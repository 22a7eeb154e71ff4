import Mathlib.Init

/-!
# Labelled transition systems

States, labelled steps and what holds of every run. A step is a relation, so a label that
the system cannot take in a state, or one that ends it, simply has no successor.

## Key results

- `Reachable.invariant`: what holds initially and is kept by every step holds of every
  reachable state
- `Reachable.of_restrict`: a run whose steps all meet a condition is a run
- `Reachable.foldlM`: what a function computes step by step is reachable
- `Simulation.runs`: a run of a simulated system is, label by label, a run of the other one
-/

/-- A labelled transition system. -/
structure Lts (σ ℓ : Type) where
  init : σ → Prop
  step : σ → ℓ → σ → Prop

namespace Lts

variable {σ ℓ : Type} {T : Lts σ ℓ}

/-- The states of the runs of `T`. -/
inductive Reachable (T : Lts σ ℓ) : σ → Prop where
  | init {s : σ} (h : T.init s) : Reachable T s
  | step {s s' : σ} {l : ℓ} (r : Reachable T s) (h : T.step s l s') : Reachable T s'

/-- Induction over a run, with the run up to the step at hand. -/
theorem Reachable.invariant {P : σ → Prop} (hinit : ∀ s, T.init s → P s)
    (hstep : ∀ s l s', T.Reachable s → P s → T.step s l s' → P s') {s : σ} (r : T.Reachable s) :
    P s := by
  induction r with
  | init h => exact hinit _ h
  | step r h ih => exact hstep _ _ _ r ih h

/-- The runs of `T` in which every label meets `ok` in the state it is taken in. -/
def restrict (T : Lts σ ℓ) (ok : σ → ℓ → Prop) : Lts σ ℓ where
  init := T.init
  step s l s' := ok s l ∧ T.step s l s'

/-- What is reached by restricted steps is reached. -/
theorem Reachable.of_restrict {ok : σ → ℓ → Prop} {s : σ} (r : (T.restrict ok).Reachable s) :
    T.Reachable s := by
  induction r with
  | init h => exact .init h
  | step _ h ih => exact ih.step h.2

/-- One more restricted step. -/
theorem Reachable.restrict_step {ok : σ → ℓ → Prop} {s s' : σ} {l : ℓ}
    (r : (T.restrict ok).Reachable s) (h : T.step s l s') (hok : ok s l) :
    (T.restrict ok).Reachable s' := .step r ⟨hok, h⟩

/-- A run that a function computes. -/
theorem Reachable.foldlM {exec : σ → ℓ → Option σ}
    (hexec : ∀ s l s', exec s l = some s' → T.step s l s') {s s' : σ} {ls : List ℓ}
    (r : T.Reachable s) (h : ls.foldlM exec s = some s') : T.Reachable s' := by
  induction ls generalizing s with
  | nil =>
    simp only [List.foldlM_nil, Option.pure_def, Option.some.injEq] at h
    exact h ▸ r
  | cons l ls ih =>
    simp only [List.foldlM_cons, Option.bind_eq_bind, Option.bind_eq_some_iff] at h
    obtain ⟨t, ht, h⟩ := h
    exact ih (r.step (hexec s l t ht)) h

/-! ## Labels of a run, and simulation -/

/-- The runs of `T`, with the labels of their steps in order. -/
inductive Runs (T : Lts σ ℓ) : List ℓ → σ → Prop where
  | nil {s : σ} (h : T.init s) : Runs T [] s
  | snoc {s s' : σ} {ls : List ℓ} {l : ℓ} (r : Runs T ls s) (h : T.step s l s') :
      Runs T (ls ++ [l]) s'

/-- The end of a run is reached. -/
theorem Runs.reachable {s : σ} {ls : List ℓ} (r : T.Runs ls s) : T.Reachable s := by
  induction r with
  | nil h => exact .init h
  | snoc _ h ih => exact ih.step h

/-- A run of restricted steps is a run. -/
theorem Runs.of_restrict {ok : σ → ℓ → Prop} {s : σ} {ls : List ℓ}
    (r : (T.restrict ok).Runs ls s) : T.Runs ls s := by
  induction r with
  | nil h => exact .nil h
  | snoc _ h ih => exact ih.snoc h.2

/-- A run that a function computes, in the runs that meet a condition. -/
theorem Runs.foldlM (ok : σ → ℓ → Prop) [∀ s l, Decidable (ok s l)] {exec : σ → ℓ → Option σ}
    (hexec : ∀ s l s', exec s l = some s' → T.step s l s') {s s' : σ} {ls₀ ls : List ℓ}
    (r : (T.restrict ok).Runs ls₀ s)
    (h : ls.foldlM (fun s l => if ok s l then exec s l else none) s = some s') :
    (T.restrict ok).Runs (ls₀ ++ ls) s' := by
  induction ls generalizing s ls₀ with
  | nil =>
    simp only [List.foldlM_nil, Option.pure_def, Option.some.injEq] at h
    rw [List.append_nil]
    exact h ▸ r
  | cons l ls ih =>
    simp only [List.foldlM_cons, Option.bind_eq_bind, Option.bind_eq_some_iff,
      Option.ite_none_right_eq_some] at h
    obtain ⟨t, ⟨hok, ht⟩, h⟩ := h
    rw [← List.singleton_append, ← List.append_assoc]
    exact ih (r.snoc ⟨hok, hexec s l t ht⟩) h

/-- `U` can follow `T` step by step, label by label, along `R`. -/
structure Simulation {τ : Type} (T : Lts σ ℓ) (U : Lts τ ℓ) (R : σ → τ → Prop) : Prop where
  init : ∀ s, T.init s → ∃ t, U.init t ∧ R s t
  step : ∀ s l s' t, R s t → T.step s l s' → ∃ t', U.step t l t' ∧ R s' t'

/-- A simulation follows whole runs. -/
theorem Simulation.runs {τ : Type} {U : Lts τ ℓ} {R : σ → τ → Prop} (h : Simulation T U R)
    {s : σ} {ls : List ℓ} (r : T.Runs ls s) : ∃ t, U.Runs ls t ∧ R s t := by
  induction r with
  | nil hinit =>
    obtain ⟨t, ht, hR⟩ := h.init _ hinit
    exact ⟨t, .nil ht, hR⟩
  | snoc _ hstep ih =>
    obtain ⟨t, ht, hR⟩ := ih
    obtain ⟨t', hstep', hR'⟩ := h.step _ _ _ _ hR hstep
    exact ⟨t', ht.snoc hstep', hR'⟩

end Lts
