import R4.Spec.FuzzyChoice
import R4.Spec.ReplayTrace

/-!
# Fuzzy matches of the backlog and the next item

The items of the backlog are tried in front of the next item, each of them with its own fuzzy
stage when the next item is about to be skipped. So an item of the backlog can take the event
action that the next item is waiting for. What a call does is observed through the register and
the warning collector: a fuzzy match is announced, and an item of the backlog is reported after it
has run.

## Key results

- `runEventAction_cases`: an event action runs if there is a provider or a handler for it
- `tryBacklog_observed`: the first item of the backlog that can run
- `due_event_not_taken_iff`: when no item of the backlog takes what is due
-/

namespace R4

open ReplayScheduler EventActionRegister

variable {W O X : Type}

/-- What is seen of a call: the event actions that are tried and the warnings. -/
inductive CallObservation where
  | tried (t : ReplayTry)
  | reported (description : StdString)
deriving DecidableEq

/-- Every call of `runEventAction` and every warning is written down. -/
def ReplayEnv.observed (env : ReplayEnv W) : ReplayEnv (W × List CallObservation) where
  runEventAction providers newId originalId d w :=
    (env.runEventAction providers newId originalId d w.1).map fun result =>
      (result.1, result.2, w.2 ++ [.tried ⟨newId, originalId, d, result.1⟩])
  getWaitingNames w := env.getWaitingNames w.1
  translateOldIdToNew w := env.translateOldIdToNew w.1
  debugPrintNames w := env.debugPrintNames w.1
  hbAllocateEventActionId w :=
    ((env.hbAllocateEventActionId w.1).1, (env.hbAllocateEventActionId w.1).2, w.2)
  actionLogStrictMode mode w := (env.actionLogStrictMode mode w.1, w.2)
  warningCollectorSetCurrentEventAction eventAction w :=
    (env.warningCollectorSetCurrentEventAction eventAction w.1, w.2)
  warningCollectorReport module description details w :=
    (env.warningCollectorReport module description details w.1, w.2 ++ [.reported description])
  score := env.score

/-- The observations can be left out of an observed world. -/
theorem ReplayEnv.observed_seenThrough (env : ReplayEnv W) :
    env.observed.SeenThrough Prod.fst env where
  runEventAction _ _ _ _ _ := by
    simp only [ReplayEnv.observed, Option.map_map]
    exact congrFun Option.map_id _
  getWaitingNames _ := rfl
  translateOldIdToNew _ _ := rfl
  debugPrintNames _ := rfl
  hbAllocateEventActionId _ := rfl
  actionLogStrictMode _ _ := rfl
  warningCollectorSetCurrentEventAction _ _ := rfl
  warningCollectorReport _ _ _ _ := rfl
  score := rfl

namespace DueEvents

/-- The scheduler, before anything has been observed. -/
def observe (s : ReplayScheduler W) : ReplayScheduler (W × List CallObservation) :=
  s.mapWorld fun w => (w, [])

/-- The warning in front of a fuzzy match. -/
def fuzzyMatched : CallObservation :=
  .reported "Event action fuzzy matched in best effort mode.".toList

/-- The warning behind an event action of the backlog. -/
def fromPending : CallObservation := .reported "Event action executed from pending schedule.".toList

/-- The call ended with a fuzzy match of an item of the backlog, which ran the event action with
    this name. -/
def FuzzyFromBacklog (trace : List CallObservation) (name : StdString) : Prop :=
  ∃ before t, trace = before ++ [fuzzyMatched, .tried t, fromPending] ∧ t.found = true ∧
    t.descriptor.toString = name

/-! ## The register -/

/-- Somebody takes the event action: a provider of its type, or a handler. -/
def CanRun (r : EventActionRegister O) (d : EventActionDescriptor) : Prop :=
  r.providersFrom d.type ≠ [] ∨ (r.descriptorToHandler.lookup d.toString).isSome

/-- Every provider takes what it is offered: `autoEventProvider` and `userEventProvider` return
    true. -/
def ProvidersTake (p : ProgramEnv O X) (r : EventActionRegister O) : Prop :=
  ∀ providers type first provider, (first, provider) ∈ r.providersFrom type →
    ∀ d w found w', p.call providers provider d w = some (found, w') → found = true

/-- An event action runs if somebody takes it, and otherwise nothing happens. -/
theorem runEventAction_cases {p : ProgramEnv O X} {providers : Providers}
    {newId originalId : EventActionId} {d : EventActionDescriptor} {w w' : Program O X}
    {found : Bool} (htake : ProvidersTake p w.1)
    (h : p.replayEnv.runEventAction providers newId originalId d w = some (found, w')) :
    CanRun w.1 d ∧ found = true ∨ ¬CanRun w.1 d ∧ found = false ∧ w' = w := by
  simp only [ProgramEnv.replayEnv, runEventAction, Option.bind_eq_bind,
    Option.bind_eq_some_iff] at h
  obtain ⟨⟨found₁, w₁⟩, hproviders, h⟩ := h
  unfold CanRun
  cases hlist : w.1.providersFrom d.type with
  | nil =>
    rw [hlist, runProviders, Option.some.injEq, Prod.mk.injEq] at hproviders
    obtain ⟨rfl, rfl⟩ := hproviders
    simp only [Bool.false_eq_true, if_false, runHandler] at h
    split at h
    · rename_i hlookup
      obtain ⟨rfl, rfl⟩ := Prod.mk.inj (Option.some.inj h)
      exact Or.inr ⟨by simp [hlookup], rfl, rfl⟩
    · simp at h
    · rename_i hlookup
      obtain ⟨_, -, h⟩ := Option.bind_eq_some_iff.mp h
      obtain ⟨_, -, h⟩ := Option.bind_eq_some_iff.mp h
      obtain ⟨_, -, h⟩ := Option.bind_eq_some_iff.mp h
      obtain ⟨_, -, h⟩ := Option.bind_eq_some_iff.mp h
      exact Or.inl ⟨by simp [hlookup], (Prod.mk.inj (Option.some.inj h)).1.symm⟩
  | cons head rest =>
    obtain ⟨first, provider⟩ := head
    rw [hlist, runProviders] at hproviders
    simp only [Option.bind_eq_bind, Option.bind_eq_some_iff, runProvider] at hproviders
    obtain ⟨⟨found₂, w₂⟩, ⟨_, _, ⟨found₃, r₃, e₃⟩, hcall, _, _, hresult⟩, hloop⟩ := hproviders
    simp only [Option.pure_def, Option.some.injEq, Prod.mk.injEq] at hresult
    obtain ⟨rfl, rfl⟩ := hresult
    -- the first provider takes it
    have hfound : found₃ = true :=
      htake providers d.type first provider (by rw [hlist]; exact List.mem_cons_self) _ _ _ _ hcall
    subst hfound
    simp only [if_true, Option.pure_def, Option.some.injEq, Prod.mk.injEq] at hloop
    obtain ⟨rfl, rfl⟩ := hloop
    simp only [if_true, Option.pure_def, Option.some.injEq, Prod.mk.injEq] at h
    exact Or.inl ⟨Or.inl (by simp), h.1.symm⟩

/-! ## One item -/

/-- Items that cannot run are fuzzy matched. -/
def FuzzyOn {W : Type} (s : ReplayScheduler W) : Prop :=
  s.skipAfterNextTry = true ∧ s.mode = .bestEffort

/-- The fuzzy stage of an item with this descriptor runs `best`. -/
def Matches (p : ProgramEnv O X) (w : Program O X) (d best : EventActionDescriptor) : Prop :=
  ¬CanRun w.1 d ∧ isFuzzyType d.type = true ∧
    fuzzyChoice p.replayEnv d w.1.getWaitingNames = some (some best) ∧ CanRun w.1 best

/-- The fuzzy stage of an item runs `best`. -/
def ItemMatches (p : ProgramEnv O X) (w : Program O X) (x : ReplayItem)
    (best : EventActionDescriptor) : Prop :=
  x.descriptor.isNull = false ∧ ∃ d, patchDescriptor p.replayEnv x.descriptor w = some d ∧
    Matches p w d best

/-- An item ends the loop over the backlog: it is a marker, or it or, in the fuzzy stage, what it
    is matched with can run. -/
def Stops (p : ProgramEnv O X) (fuzzyOn : Prop) (w : Program O X) (x : ReplayItem) : Prop :=
  x.descriptor.isNull = true ∨
  (∃ d, patchDescriptor p.replayEnv x.descriptor w = some d ∧ CanRun w.1 d) ∨
  fuzzyOn ∧ ∃ best, ItemMatches p w x best

/-- What is observed of an item, on top of what has been observed before. -/
inductive Tried (p : ProgramEnv O X) (s : ReplayScheduler (Program O X × List CallObservation))
    (x : ReplayItem) : Bool → List CallObservation → Prop where
  | marker (hnull : x.descriptor.isNull = true) : Tried p s x true s.world.2
  | exact {d : EventActionDescriptor} {t : ReplayTry} (hnull : x.descriptor.isNull = false)
      (hd : patchDescriptor p.replayEnv x.descriptor s.world.1 = some d)
      (hrun : CanRun s.world.1.1 d) : Tried p s x true (s.world.2 ++ [.tried t])
  | fuzzy {best : EventActionDescriptor} {t t' : ReplayTry} (hon : FuzzyOn s)
      (hmatch : ItemMatches p s.world.1 x best) (hfound : t'.found = true)
      (hbest : t'.descriptor = best) :
      Tried p s x true (s.world.2 ++ [.tried t, fuzzyMatched, .tried t'])
  | miss {t : ReplayTry} {more : List CallObservation} (hmiss : ¬Stops p (FuzzyOn s) s.world.1 x)
      (hfound : t.found = false) (hmore : fromPending ∉ more) :
      Tried p s x false (s.world.2 ++ more ++ [.tried t])

variable {p : ProgramEnv O X}

/-- A try is observed, and an event action is found if and only if it can run. -/
theorem runUnder_observed {s s' : ReplayScheduler (Program O X × List CallObservation)}
    {originalId : EventActionId} {d : EventActionDescriptor} {found : Bool}
    (htake : ProvidersTake p s.world.1.1)
    (h : s.runUnder p.replayEnv.observed originalId d = some (found, s')) :
    Frame s s' ∧ s'.world.2 = s.world.2 ++ [.tried ⟨s.nextEventActionId, originalId, d, found⟩] ∧
      (CanRun s.world.1.1 d ∧ found = true ∨
        ¬CanRun s.world.1.1 d ∧ found = false ∧ s'.world.1 = s.world.1) := by
  obtain ⟨hcall, -⟩ := runUnder_eq_some h
  obtain ⟨⟨found', w'⟩, hrun, hresult⟩ := Option.map_eq_some_iff.mp hcall
  obtain ⟨hfound, hworld⟩ := Prod.mk.inj hresult
  dsimp only at hfound hworld
  subst hfound
  rw [← hworld]
  exact ⟨frame_runUnder h, rfl, runEventAction_cases htake hrun⟩

/-- A parent id is translated by the register alone. -/
theorem patchDescriptor_congr {w w' : Program O X} (h : w'.1 = w.1) (d : EventActionDescriptor) :
    patchDescriptor p.replayEnv d w' = patchDescriptor p.replayEnv d w := by
  simp only [patchDescriptor, ProgramEnv.replayEnv, h]

/-- The choice of the fuzzy stage does not depend on the observations. -/
theorem fuzzyChoice_observed (d : EventActionDescriptor) (names : List StdString) :
    fuzzyChoice p.replayEnv.observed d names = fuzzyChoice p.replayEnv d names := by
  simp only [fuzzyChoice, bestCandidate_eq p.replayEnv.observed_seenThrough]

/-- The exact attempt on a descriptor, and the fuzzy one after it. -/
theorem tryDescriptor_observed {s s' : ReplayScheduler (Program O X × List CallObservation)}
    {originalId : EventActionId} {d : EventActionDescriptor} {found : Bool}
    (htake : ∀ w : Program O X, w.1 = s.world.1.1 → ProvidersTake p w.1)
    (h : s.tryDescriptor p.replayEnv.observed originalId d = some (found, s')) :
    (CanRun s.world.1.1 d ∧ found = true ∧ ∃ t, s'.world.2 = s.world.2 ++ [.tried t]) ∨
    (∃ best t t', FuzzyOn s ∧ Matches p s.world.1 d best ∧ found = true ∧ t'.found = true ∧
      t'.descriptor = best ∧ s'.world.2 = s.world.2 ++ [.tried t, fuzzyMatched, .tried t']) ∨
    (¬CanRun s.world.1.1 d ∧ ¬(FuzzyOn s ∧ ∃ best, Matches p s.world.1 d best) ∧ found = false ∧
      s'.world.1.1 = s.world.1.1 ∧ ∃ more t, t.found = false ∧ fromPending ∉ more ∧
        s'.world.2 = s.world.2 ++ more ++ [.tried t]) := by
  simp only [tryDescriptor, Option.bind_eq_bind, Option.bind_eq_some_iff] at h
  obtain ⟨⟨found₁, s₁⟩, hrun, ⟨found₂, s₂⟩, hstage, h⟩ := h
  -- the id for the next event action is not observed
  obtain ⟨rfl, hregister, htrace⟩ : found₂ = found ∧ (found = false → s'.world = s₂.world) ∧
      s'.world.2 = s₂.world.2 := by
    dsimp only at h
    split at h <;> simp only [Option.pure_def, Option.some.injEq, Prod.mk.injEq] at h
    · rename_i hfound
      obtain ⟨rfl, rfl⟩ := h
      exact ⟨hfound, by simp, rfl⟩
    · rename_i hfound
      obtain ⟨rfl, rfl⟩ := h
      exact ⟨by simpa using hfound, fun _ => rfl, rfl⟩
  obtain ⟨hframe, htrace₁, ⟨hcan, rfl⟩ | ⟨hcan, rfl, hworld⟩⟩ :=
    runUnder_observed (htake _ rfl) hrun
  · -- it has run, and there is no fuzzy stage
    rw [fuzzyStage, if_neg (by simp), Option.some.injEq, Prod.mk.injEq] at hstage
    obtain ⟨rfl, rfl⟩ := hstage
    exact Or.inl ⟨hcan, rfl, _, htrace.trans htrace₁⟩
  · have hnames : p.replayEnv.observed.getWaitingNames s₁.world = s.world.1.1.getWaitingNames := by
      show s₁.world.1.1.getWaitingNames = _
      rw [hworld]
    unfold fuzzyStage at hstage
    rw [hframe.skipAfterNextTry, hframe.mode] at hstage
    split at hstage
    · rename_i hon
      rcases tryFuzzy_cases hstage with ⟨hchoice, rfl, rfl⟩ | ⟨best, details, hchoice, hbest⟩
      · -- nothing is similar enough
        rw [fuzzyChoice_observed, hnames] at hchoice
        refine Or.inr (Or.inr ⟨hcan, ?_, rfl, ?_, [], ⟨s.nextEventActionId, originalId, d, false⟩,
          rfl, by simp, ?_⟩)
        · rintro ⟨-, best, -, -, hmatch, -⟩
          rw [hchoice] at hmatch
          simp at hmatch
        · rw [hregister rfl, hworld]
        · rw [htrace, htrace₁, List.append_nil]
      · rw [fuzzyChoice_observed, hnames] at hchoice
        have hreported : (s₁.report p.replayEnv.observed
            "Event action fuzzy matched in best effort mode." details).world.1.1 =
            s.world.1.1 := by
          show s₁.world.1.1 = _
          rw [hworld]
        have hobserved : (s₁.report p.replayEnv.observed
            "Event action fuzzy matched in best effort mode." details).world.2 =
            s.world.2 ++ [.tried ⟨s.nextEventActionId, originalId, d, false⟩] ++
              [fuzzyMatched] := by
          rw [← htrace₁]
          rfl
        obtain ⟨-, htrace₂, hcases⟩ := runUnder_observed (htake _ hreported) hbest
        rw [hreported] at hcases
        obtain ⟨t', hfound, hdescriptor, htrace'⟩ : ∃ t' : ReplayTry, t'.found = found₂ ∧
            t'.descriptor = best ∧ s'.world.2 = s.world.2 ++
              [.tried ⟨s.nextEventActionId, originalId, d, false⟩, fuzzyMatched, .tried t'] := by
          refine ⟨⟨s₁.nextEventActionId, originalId, best, found₂⟩, rfl, rfl,
            htrace.trans (htrace₂.trans ?_)⟩
          rw [hobserved, List.append_assoc, List.append_assoc]
          rfl
        rcases hcases with ⟨hcan', rfl⟩ | ⟨hcan', rfl, hworld'⟩
        · exact Or.inr (Or.inl ⟨best, _, t', ⟨hon.2.1, hon.2.2.1⟩, ⟨hcan, hon.2.2.2, hchoice,
            hcan'⟩, rfl, hfound, hdescriptor, htrace'⟩)
        · -- a name without a handler
          refine Or.inr (Or.inr ⟨hcan, ?_, rfl, ?_,
            [.tried ⟨s.nextEventActionId, originalId, d, false⟩, fuzzyMatched], t', hfound,
            by simp [fromPending, fuzzyMatched], ?_⟩)
          · rintro ⟨-, best', -, -, hmatch, hcan''⟩
            obtain rfl : best = best' := by
              rw [hchoice, Option.some.injEq, Option.some.injEq] at hmatch
              exact hmatch
            exact hcan' hcan''
          · rw [hregister rfl, hworld', hreported]
          · rw [htrace', List.append_assoc]
            rfl
    · rename_i hoff
      obtain ⟨rfl, rfl⟩ := Prod.mk.inj (Option.some.inj hstage)
      refine Or.inr (Or.inr ⟨hcan, ?_, rfl, ?_, [], ⟨s.nextEventActionId, originalId, d, false⟩,
        rfl, by simp, ?_⟩)
      · rintro ⟨hon, best, -, htype, -⟩
        exact hoff ⟨rfl, hon.1, hon.2, htype⟩
      · rw [hregister rfl, hworld]
      · rw [htrace, htrace₁, List.append_nil]

/-- What a try of an item does. -/
theorem tryExecute_observed {s s' : ReplayScheduler (Program O X × List CallObservation)}
    {inPlace : ReplayItem → ReplayScheduler (Program O X × List CallObservation) →
      ReplayScheduler (Program O X × List CallObservation)} {x x' : ReplayItem} {found : Bool}
    (hplace : ∀ x s, (inPlace x s).world = s.world ∧ (inPlace x s).mode = s.mode ∧
      (inPlace x s).skipAfterNextTry = s.skipAfterNextTry)
    (htake : ProvidersTake p s.world.1.1)
    (h : s.tryExecuteEventActionDescriptor p.replayEnv.observed inPlace x =
      some (found, x', s')) :
    Tried p s x found s'.world.2 ∧ (found = false → s'.world.1.1 = s.world.1.1 ∧
      s'.mode = s.mode ∧ s'.skipAfterNextTry = s.skipAfterNextTry) := by
  unfold tryExecuteEventActionDescriptor at h
  split at h
  · rename_i hnull
    simp only [Option.some.injEq, Prod.mk.injEq] at h
    obtain ⟨rfl, -, rfl⟩ := h
    have hworld : s.marker.world = s.world := by
      unfold marker
      split <;> rfl
    rw [hworld]
    exact ⟨.marker hnull, fun hfalse => by simp at hfalse⟩
  · rename_i hnull
    simp only [Option.bind_eq_bind, Option.bind_eq_some_iff, Option.pure_def, Option.some.injEq,
      Prod.mk.injEq] at h
    obtain ⟨d, hpatch, ⟨found', s₁⟩, htry, rfl, -, rfl⟩ := h
    have hd : patchDescriptor p.replayEnv x.descriptor s.world.1 = some d := by
      rw [patchDescriptor_eq p.replayEnv.observed_seenThrough] at hpatch
      rw [← hpatch]
      exact (patchDescriptor_congr rfl _).symm
    have hnull : x.descriptor.isNull = false := by simpa using hnull
    -- what is tried in is the scheduler with the patched item in its place
    generalize hx' : ({ x with descriptor := d } : ReplayItem) = x₁ at htry
    obtain ⟨hworld, hmode, hskip⟩ := hplace x₁ { s with
      world := p.replayEnv.observed.warningCollectorSetCurrentEventAction s.nextEventActionId
        s.world }
    generalize inPlace x₁ { s with
      world := p.replayEnv.observed.warningCollectorSetCurrentEventAction s.nextEventActionId
        s.world } = s₀ at htry hworld hmode hskip
    have hregister : s₀.world.1.1 = s.world.1.1 := by rw [hworld]; rfl
    have htrace : s₀.world.2 = s.world.2 := by rw [hworld]; rfl
    have hon : FuzzyOn s₀ ↔ FuzzyOn s := by simp only [FuzzyOn, hmode, hskip]
    have hmatches : ∀ best, Matches p s₀.world.1 d best ↔ Matches p s.world.1 d best := by
      intro best
      simp only [Matches, hregister]
    have hframe := frame_tryDescriptor htry
    obtain ⟨hcan, rfl, t, htrace'⟩ | ⟨best, t, t', hstage, hmatch, rfl, hfound, hbest, htrace'⟩ |
        ⟨hcan, hmatch, rfl, hsame, more, t, hfound, hmore, htrace'⟩ :=
      tryDescriptor_observed (fun w hw => by rw [hw, hregister]; exact htake) htry
    · rw [htrace', htrace]
      exact ⟨.exact hnull hd (hregister ▸ hcan), by simp⟩
    · rw [htrace', htrace]
      exact ⟨.fuzzy (hon.mp hstage) ⟨hnull, d, hd, (hmatches best).mp hmatch⟩ hfound hbest,
        by simp⟩
    · rw [htrace', htrace]
      refine ⟨.miss ?_ hfound hmore, fun _ => ⟨hsame.trans hregister,
        hframe.mode.trans hmode, hframe.skipAfterNextTry.trans hskip⟩⟩
      rintro (hmarker | ⟨d', hd', hcan'⟩ | ⟨hstage, best, -, d', hd', hbest⟩)
      · simp [hnull] at hmarker
      · obtain rfl := Option.some.inj (hd.symm.trans hd')
        exact hcan (hregister ▸ hcan')
      · obtain rfl := Option.some.inj (hd.symm.trans hd')
        exact hmatch ⟨hon.mpr hstage, best, (hmatches best).mpr hbest⟩

/-! ## The loop over the backlog -/

/-- Nothing has run yet: the last that has been observed is a try that failed. -/
def Missed (trace : List CallObservation) : Prop :=
  fromPending ∉ trace ∧ ∀ o ∈ trace.getLast?, ∃ t : ReplayTry, o = .tried t ∧ t.found = false

/-- An item that does not end the loop leaves only tries that failed. -/
theorem Tried.missed {s : ReplayScheduler (Program O X × List CallObservation)} {x : ReplayItem}
    {trace : List CallObservation} (h : Tried p s x false trace) (hmissed : Missed s.world.2) :
    ¬Stops p (FuzzyOn s) s.world.1 x ∧ Missed trace := by
  cases h with
  | miss hmiss hfound hmore =>
    refine ⟨hmiss, ?_, ?_⟩
    · simp only [List.mem_append, List.mem_singleton, hmissed.1, hmore, false_or]
      exact nofun
    · simp [hfound]

/-- The item that ends the loop: whether its fuzzy match has run. -/
theorem Tried.stopped {s : ReplayScheduler (Program O X × List CallObservation)} {x : ReplayItem}
    {trace : List CallObservation} (h : Tried p s x true trace) (hmissed : Missed s.world.2) :
    Stops p (FuzzyOn s) s.world.1 x ∧ ∀ name, FuzzyFromBacklog (trace ++ [fromPending]) name ↔
      FuzzyOn s ∧ ∃ best, ItemMatches p s.world.1 x best ∧ best.toString = name := by
  obtain ⟨-, hlast⟩ := hmissed
  cases h with
  | marker hnull =>
    refine ⟨Or.inl hnull, fun name => ⟨?_, ?_⟩⟩
    · rintro ⟨before, t, heq, hfound, -⟩
      -- the try that would have run is the last of those that failed
      rw [show before ++ [fuzzyMatched, .tried t, fromPending] =
        (before ++ [fuzzyMatched, .tried t]) ++ [fromPending] by simp] at heq
      rw [List.append_cancel_right heq] at hlast
      obtain ⟨t', ht', hmiss⟩ := hlast (.tried t) (by simp)
      obtain rfl := CallObservation.tried.inj ht'
      simp [hfound] at hmiss
    · rintro ⟨-, best, ⟨hnull', -⟩, -⟩
      simp [hnull] at hnull'
  | @exact d t hnull hd hrun =>
    refine ⟨Or.inr (Or.inl ⟨d, hd, hrun⟩), fun name => ⟨?_, ?_⟩⟩
    · rintro ⟨before, t', heq, -⟩
      rw [List.append_assoc, show before ++ [fuzzyMatched, .tried t', fromPending] =
        (before ++ [fuzzyMatched]) ++ [.tried t', fromPending] by simp] at heq
      rw [(List.append_inj' heq rfl).1] at hlast
      obtain ⟨t'', ht'', -⟩ := hlast fuzzyMatched (by simp)
      exact nomatch ht''
    · rintro ⟨-, best, ⟨-, d', hd', hmatch⟩, -⟩
      obtain rfl := Option.some.inj (hd.symm.trans hd')
      exact absurd hrun hmatch.1
  | @fuzzy best t t' hon hmatch hfound hbest =>
    refine ⟨Or.inr (Or.inr ⟨hon, best, hmatch⟩), fun name => ⟨?_, ?_⟩⟩
    · rintro ⟨before, t'', heq, -, hname⟩
      rw [List.append_assoc, show s.world.2 ++
        ([.tried t, fuzzyMatched, .tried t'] ++ [fromPending]) =
        (s.world.2 ++ [.tried t]) ++ [fuzzyMatched, .tried t', fromPending] by simp] at heq
      obtain rfl : t' = t'' := by simpa using (List.append_inj' heq rfl).2
      exact ⟨hon, best, hmatch, by rw [← hbest, hname]⟩
    · rintro ⟨-, best', ⟨-, d', hd', hmatch'⟩, hname⟩
      obtain ⟨-, d, hd, hmatch⟩ := hmatch
      obtain rfl := Option.some.inj (hd.symm.trans hd')
      obtain rfl : best = best' := by
        have := hmatch.2.2.1.symm.trans hmatch'.2.2.1
        simpa using this
      exact ⟨s.world.2 ++ [.tried t], t', by simp, hfound, by rw [hbest, hname]⟩

/-- Whether an item matches depends on the register alone. -/
theorem itemMatches_congr {w w' : Program O X} (h : w'.1 = w.1) {x : ReplayItem}
    {best : EventActionDescriptor} : ItemMatches p w' x best ↔ ItemMatches p w x best := by
  simp only [ItemMatches, Matches, patchDescriptor_congr h, h]

/-- Whether an item stops the loop depends on the register alone. -/
theorem stops_congr {w w' : Program O X} (h : w'.1 = w.1) {fuzzyOn : Prop} {x : ReplayItem} :
    Stops p fuzzyOn w' x ↔ Stops p fuzzyOn w x := by
  simp only [Stops, itemMatches_congr h, patchDescriptor_congr h, h]

/-- The first item of the backlog that can run ends the loop. -/
theorem tryBacklog_observed {done todo : List ReplayItem}
    {s s' : ReplayScheduler (Program O X × List CallObservation)} {success : Bool}
    (htake : ∀ w : Program O X, w.1 = s.world.1.1 → ProvidersTake p w.1)
    (hmissed : Missed s.world.2)
    (h : tryBacklog p.replayEnv.observed done todo s = some (success, s')) :
    (success = false ∧ (∀ x ∈ todo, ¬Stops p (FuzzyOn s) s.world.1 x) ∧ Missed s'.world.2 ∧
      s'.world.1.1 = s.world.1.1) ∨
    (success = true ∧ ∃ pre x rest, todo = pre ++ x :: rest ∧
      (∀ y ∈ pre, ¬Stops p (FuzzyOn s) s.world.1 y) ∧ Stops p (FuzzyOn s) s.world.1 x ∧
      ∀ name, FuzzyFromBacklog s'.world.2 name ↔
        FuzzyOn s ∧ ∃ best, ItemMatches p s.world.1 x best ∧ best.toString = name) := by
  induction todo generalizing done s with
  | nil =>
    simp only [tryBacklog, Option.some.injEq, Prod.mk.injEq] at h
    obtain ⟨rfl, rfl⟩ := h
    exact Or.inl ⟨rfl, by simp, hmissed, rfl⟩
  | cons x rest ih =>
    simp only [tryBacklog, Option.bind_eq_bind, Option.bind_eq_some_iff] at h
    obtain ⟨⟨found, x', s₁⟩, htry, h⟩ := h
    -- the mode of the action log is neither the register nor observed
    generalize hs₀ : ({ s with
      world := p.replayEnv.observed.actionLogStrictMode false s.world } :
        ReplayScheduler (Program O X × List CallObservation)) = s₀ at htry
    have hregister : s₀.world.1.1 = s.world.1.1 := by rw [← hs₀]; rfl
    have hon : FuzzyOn s₀ = FuzzyOn s := by rw [← hs₀]; rfl
    have hmissed₀ : Missed s₀.world.2 := by rw [← hs₀]; exact hmissed
    obtain ⟨htried, hkept⟩ := tryExecute_observed (by intros; exact ⟨rfl, rfl, rfl⟩)
      (htake _ hregister) htry
    cases found with
    | true =>
      simp only [if_true, Option.pure_def, Option.some.injEq, Prod.mk.injEq] at h
      obtain ⟨rfl, rfl⟩ := h
      obtain ⟨hstops, hfuzzy⟩ := htried.stopped hmissed₀
      rw [hon] at hstops hfuzzy
      refine Or.inr ⟨rfl, [], x, rest, rfl, by simp, (stops_congr hregister).mp hstops,
        fun name => (hfuzzy name).trans ?_⟩
      simp only [itemMatches_congr hregister]
    | false =>
      simp only [Bool.false_eq_true, if_false] at h
      obtain ⟨hmiss, hmissed₁⟩ := htried.missed hmissed₀
      obtain ⟨hsame, hmode, hskip⟩ := hkept rfl
      rw [hon, stops_congr hregister] at hmiss
      have hsame' : s₁.world.1.1 = s.world.1.1 := hsame.trans hregister
      have hon₁ : FuzzyOn { s₁ with
          world := p.replayEnv.observed.actionLogStrictMode true s₁.world } = FuzzyOn s := by
        rw [← hon]
        simp only [FuzzyOn, hmode, hskip]
      have hrest := ih (s := { s₁ with
        world := p.replayEnv.observed.actionLogStrictMode true s₁.world })
        (fun w hw => htake w (hw.trans hsame')) hmissed₁ h
      rw [hon₁] at hrest
      have hcongr : ∀ {y}, Stops p (FuzzyOn s)
          (p.replayEnv.observed.actionLogStrictMode true s₁.world).1 y ↔
          Stops p (FuzzyOn s) s.world.1 y := fun {y} => stops_congr hsame'
      have hcongr' : ∀ {y best}, ItemMatches p
          (p.replayEnv.observed.actionLogStrictMode true s₁.world).1 y best ↔
          ItemMatches p s.world.1 y best := fun {y best} => itemMatches_congr hsame'
      simp only [hcongr, hcongr'] at hrest
      rcases hrest with ⟨rfl, hall, hmissed', hregister'⟩ | ⟨rfl, pre, y, post, rfl, hpre, hrest⟩
      · refine Or.inl ⟨rfl, ?_, hmissed', hregister'.trans hsame'⟩
        intro y hy
        rcases List.mem_cons.mp hy with rfl | hy
        · exact hmiss
        · exact hall y hy
      · refine Or.inr ⟨rfl, x :: pre, y, post, rfl, ?_, hrest⟩
        intro z hz
        rcases List.mem_cons.mp hz with rfl | hz
        · exact hmiss
        · exact hpre z hz

/-! ## One call -/

/-- The first item of the backlog that can run is fuzzy matched with the event action of this
    name. -/
def DueTaken (p : ProgramEnv O X) (s : ReplayScheduler (Program O X)) (name : StdString) : Prop :=
  FuzzyOn s ∧ ∃ pre x rest best, s.scheduleBacklog = pre ++ x :: rest ∧
    (∀ y ∈ pre, ¬Stops p (FuzzyOn s) s.world y) ∧ ItemMatches p s.world x best ∧
    best.toString = name

/-- Two ways to say what comes first. -/
theorem eq_of_first {α : Type} {P : α → Prop} {pre pre' : List α} {x x' : α} {rest rest' : List α}
    (h : pre ++ x :: rest = pre' ++ x' :: rest') (hpre : ∀ y ∈ pre, ¬P y) (hx : P x)
    (hpre' : ∀ y ∈ pre', ¬P y) (hx' : P x') : x = x' := by
  induction pre generalizing pre' with
  | nil =>
    cases pre' with
    | nil => exact (List.cons.inj h).1
    | cons y ys =>
      -- the first list ends at its element, and the second one goes on over it
      obtain ⟨rfl, -⟩ := List.cons.inj h
      exact absurd hx (hpre' x List.mem_cons_self)
  | cons z zs ih =>
    cases pre' with
    | nil =>
      -- the other way round
      obtain ⟨rfl, -⟩ := List.cons.inj h
      exact absurd hx' (hpre z List.mem_cons_self)
    | cons y ys =>
      exact ih (List.cons.inj h).2 (fun w hw => hpre w (List.mem_cons_of_mem _ hw))
        fun w hw => hpre' w (List.mem_cons_of_mem _ hw)

/-- Without the report behind it nothing of the backlog has run. -/
theorem not_fuzzyFromBacklog {trace : List CallObservation} (h : fromPending ∉ trace)
    (name : StdString) : ¬FuzzyFromBacklog trace name := by
  rintro ⟨before, t, rfl, -⟩
  exact h (by simp)

/-- A try reports no execution from the pending schedule. -/
theorem Tried.notPending {s : ReplayScheduler (Program O X × List CallObservation)}
    {x : ReplayItem} {found : Bool} {trace : List CallObservation} (h : Tried p s x found trace)
    (hnone : fromPending ∉ s.world.2) : fromPending ∉ trace := by
  have htried : ∀ t, fromPending ≠ .tried t := fun t => nofun
  have hfuzzy : fromPending ≠ fuzzyMatched := by decide
  cases h with
  | marker => exact hnone
  | exact => simp only [List.mem_append, hnone, List.mem_singleton, htried, or_self,
      not_false_eq_true]
  | fuzzy => simp only [List.mem_append, hnone, List.mem_cons, List.not_mem_nil, htried, hfuzzy,
      or_self, not_false_eq_true]
  | miss hmiss hfound hmore => simp only [List.mem_append, hnone, hmore, List.mem_singleton, htried,
      or_self, not_false_eq_true]

/-- What is still waiting in the end is not an item of the backlog. -/
theorem stopRegister_observed {s : ReplayScheduler (Program O X × List CallObservation)}
    (state : ReplaySchedulerState) (hnone : fromPending ∉ s.world.2) :
    fromPending ∉ (s.stopRegister p.replayEnv.observed state).world.2 := by
  -- what is reported at the end is not about the backlog
  have hreports : ∀ (names : List StdString)
      (s : ReplayScheduler (Program O X × List CallObservation)), fromPending ∉ s.world.2 →
      fromPending ∉ (names.foldl (fun s name =>
        s.report p.replayEnv.observed "Non-executed event action." name) s).world.2 := by
    intro names
    induction names with
    | nil => exact fun s h => h
    | cons name names ih =>
      intro s h
      have hne : fromPending ≠ .reported "Non-executed event action.".toList := by decide
      apply ih
      show fromPending ∉ s.world.2 ++ [.reported "Non-executed event action.".toList]
      simp only [List.mem_append, h, List.mem_singleton, hne, or_self, not_false_eq_true]
  -- stopping leaves the world alone
  have hstop : ∀ s : ReplayScheduler (Program O X × List CallObservation),
      s.stop.world = s.world := by
    intro s
    unfold stop
    split <;> rfl
  unfold stopRegister
  split
  · exact hnone
  · dsimp only
    rw [hstop]
    split
    · exact hreports _ _ hnone
    · exact hnone

/-- The attempt on the next item does not report an item of the backlog. -/
theorem tryHead_observed {head : ReplayItem} {rest : List ReplayItem}
    {s s' : ReplayScheduler (Program O X × List CallObservation)} {more : Bool}
    (htake : ProvidersTake p s.world.1.1) (hmissed : fromPending ∉ s.world.2)
    (h : s.tryHead p.replayEnv.observed head rest = some (more, s')) :
    fromPending ∉ s'.world.2 := by
  simp only [tryHead, Option.bind_eq_bind, Option.bind_eq_some_iff] at h
  obtain ⟨⟨found, x', s₁⟩, htry, h⟩ := h
  -- the head is tried, which reports nothing from the backlog
  obtain ⟨htried, -⟩ := tryExecute_observed (by intros; exact ⟨rfl, rfl, rfl⟩) htake htry
  have hnone := htried.notPending hmissed
  dsimp only at h
  -- a hit
  split at h
  · simp only [Option.pure_def, Option.some.injEq, Prod.mk.injEq] at h
    obtain ⟨-, rfl⟩ := h
    exact hnone
  · -- a miss that is skipped, with a warning about that
    split at h
    · simp only [Option.pure_def, Option.some.injEq, Prod.mk.injEq] at h
      obtain ⟨-, rfl⟩ := h
      have hskipped : fromPending ≠
          .reported "Event action skipped after timeout.".toList := by decide
      show fromPending ∉ s₁.world.2 ++ [.reported "Event action skipped after timeout.".toList]
      simp only [List.mem_append, hnone, List.mem_singleton, hskipped, or_self, not_false_eq_true]
    · -- a miss that waits
      split at h
      · simp only [Option.pure_def, Option.some.injEq, Prod.mk.injEq] at h
        obtain ⟨-, rfl⟩ := h
        exact hnone
      · simp only [Option.bind_eq_some_iff, Option.pure_def, Option.some.injEq,
          Prod.mk.injEq] at h
        obtain ⟨interval, -, -, rfl⟩ := h
        exact hnone

/-- A fuzzy match of the backlog runs in a call exactly if the first item of the backlog that can
    run is fuzzy matched. -/
theorem fuzzyFromBacklog_iff {s : ReplayScheduler (Program O X)} {head : ReplayItem}
    {rest : List ReplayItem} (hschedule : s.schedule = head :: rest)
    (htake : ProvidersTake p s.world.1) {more : Bool}
    {s' : ReplayScheduler (Program O X × List CallObservation)}
    (h : (observe s).executeDelayedEventAction p.replayEnv.observed = some (more, s'))
    (name : StdString) : FuzzyFromBacklog s'.world.2 name ↔ DueTaken p s name := by
  -- nothing has been observed before the call
  have hmissed : Missed (observe s).world.2 := ⟨by simp [observe, mapWorld], by
    simp [observe, mapWorld]⟩
  have hsplit : (observe s).schedule = head :: rest := hschedule
  unfold executeDelayedEventAction at h
  rw [hsplit] at h
  dsimp only at h
  split at h
  · -- the mode is `STOP`, in which nothing is tried
    rename_i hstop
    simp only [Option.some.injEq, Prod.mk.injEq] at h
    obtain ⟨-, rfl⟩ := h
    refine iff_of_false (not_fuzzyFromBacklog (stopRegister_observed .finished hmissed.1) name) ?_
    rintro ⟨⟨-, hmode⟩, -⟩
    exact absurd (hmode.symm.trans hstop) (by decide)
  · simp only [Option.bind_eq_bind, Option.bind_eq_some_iff] at h
    obtain ⟨⟨success, s₁⟩, hbacklog, h⟩ := h
    rcases tryBacklog_observed (fun w hw => hw ▸ htake) hmissed hbacklog with
      ⟨rfl, hall, hmissed₁, hsame⟩ | ⟨rfl, pre, x, post, hlist, hpre, hstops, hfuzzy⟩
    · -- no item of the backlog has stopped the loop, and the head is none of them
      simp only [Bool.false_eq_true, if_false] at h
      have htake₁ : ProvidersTake p s₁.world.1.1 := by rw [hsame]; exact htake
      have hnone := tryHead_observed htake₁ hmissed₁.1 h
      refine iff_of_false (not_fuzzyFromBacklog hnone name) ?_
      rintro ⟨hon, pre, x, post, best, hlist, -, hmatch, -⟩
      -- an item that matched would have stopped it
      exact hall x (by rw [show (observe s).scheduleBacklog = pre ++ x :: post from hlist]; simp)
        (Or.inr (Or.inr ⟨hon, best, hmatch⟩))
    · -- the loop has stopped at an item, and what it did there decides
      simp only [if_true, Option.pure_def, Option.some.injEq, Prod.mk.injEq] at h
      obtain ⟨-, rfl⟩ := h
      rw [hfuzzy]
      constructor
      · rintro ⟨hon, best, hmatch, hname⟩
        exact ⟨hon, pre, x, post, best, hlist, hpre, hmatch, hname⟩
      · -- the first item that stops the loop is the one that matches
        rintro ⟨hon, pre', x', post', best, hlist', hpre', hmatch, hname⟩
        obtain rfl : x = x' := eq_of_first (P := Stops p (FuzzyOn s) s.world)
          (hlist.symm.trans hlist') hpre hstops hpre' (Or.inr (Or.inr ⟨hon, best, hmatch⟩))
        exact ⟨hon, best, hmatch, hname⟩

/-- In a call of `executeDelayedEventAction` no fuzzy match of an item of the backlog takes the
    event action that the next item is waiting for, exactly if it is not what the first item of the
    backlog that can run is matched with. -/
theorem due_event_not_taken_iff {p : ProgramEnv O X} {s : ReplayScheduler (Program O X)}
    {head : ReplayItem} {rest : List ReplayItem} (hschedule : s.schedule = head :: rest)
    (htake : ProvidersTake p s.world.1) {more : Bool}
    {s' : ReplayScheduler (Program O X × List CallObservation)}
    (h : (observe s).executeDelayedEventAction p.replayEnv.observed = some (more, s')) :
    (∀ d, patchDescriptor p.replayEnv head.descriptor s.world = some d →
      (s.world.1.descriptorToHandler.lookup d.toString).isSome →
        ¬FuzzyFromBacklog s'.world.2 d.toString) ↔
    ∀ d, patchDescriptor p.replayEnv head.descriptor s.world = some d →
      (s.world.1.descriptorToHandler.lookup d.toString).isSome → ¬DueTaken p s d.toString := by
  simp only [fuzzyFromBacklog_iff hschedule htake h]

/-- A parser of `http://a/` and a path of one letter. -/
def parsePath (url : StdString) : FuzzyUrlMatcher.ParsedUrl :=
  ⟨"a".toList, url.drop 8, none, none⟩

/-- Handlers that return at once. -/
def parserProgram : ProgramEnv Nat Unit where
  address _ := 0
  call _ _ _ w := some (true, w)
  warningCollectorSetCurrentEventAction _ w := w
  warningCollectorReport _ _ _ w := w
  score := FuzzyUrlMatcher.scoreText parsePath

/-- The parser of a document. -/
def parserOf (url : String) : EventActionDescriptor :=
  .make .parsing "HTMLDocumentParser".toList (url.toList ++ ",1".toList)

/-- The parser of the document `x` has been skipped, and that of `y` is next and waiting. -/
def skippedParser : ReplayScheduler (Program Nat Unit) where
  world := (EventActionRegister.empty.registerEventActionHandler (parserOf "http://a/y") 7,
    .init, ())
  schedule := [⟨1, 2, parserOf "http://a/y"⟩]
  scheduleBacklog := [⟨0, 1, parserOf "http://a/x"⟩]
  consumed := []
  providers := ⟨⟨.bestEffort, none⟩, ⟨.bestEffort, none⟩, .bestEffort⟩
  mode := .bestEffort
  state := .running
  doneEmitted := false
  sigDoneCount := 0
  timeoutTimerActive := false
  timeoutTimerInterval := 500
  skipAfterNextTry := true
  timeoutMiliseconds := 20000
  nextEventActionId := 2

/-- The program has no provider that declines. -/
theorem providersTake_parserProgram (r : EventActionRegister Nat) :
    ProvidersTake parserProgram r := by
  intro providers type first provider _ d w found w' h
  exact (Prod.mk.inj (Option.some.inj h)).1.symm

/-- As long as the next item is not about to be skipped, the skipped parser takes nothing. -/
theorem due_event_not_taken_of_waiting :
    ∃ s', (observe { skippedParser with skipAfterNextTry := false }).executeDelayedEventAction
      parserProgram.replayEnv.observed = some (true, s') ∧
      ¬FuzzyFromBacklog s'.world.2 (parserOf "http://a/y").toString := by
  obtain ⟨s', h⟩ : ∃ s', (observe { skippedParser with
      skipAfterNextTry := false }).executeDelayedEventAction parserProgram.replayEnv.observed =
      some (true, s') := ⟨_, rfl⟩
  refine ⟨s', h, (due_event_not_taken_iff rfl (providersTake_parserProgram _) h).mpr ?_ _ rfl rfl⟩
  rintro d - - ⟨⟨hskip, -⟩, -⟩
  exact absurd hskip (by decide)

/-- The skipped parser takes the event action of the next one. -/
theorem due_parser_taken :
    ¬∀ (p : ProgramEnv Nat Unit) (s : ReplayScheduler (Program Nat Unit)) (head : ReplayItem)
      (rest : List ReplayItem) (more : Bool)
      (s' : ReplayScheduler (Program Nat Unit × List CallObservation)),
      s.schedule = head :: rest → ProvidersTake p s.world.1 →
      (observe s).executeDelayedEventAction p.replayEnv.observed = some (more, s') →
      ∀ d, patchDescriptor p.replayEnv head.descriptor s.world = some d →
        (s.world.1.descriptorToHandler.lookup d.toString).isSome →
          ¬FuzzyFromBacklog s'.world.2 d.toString := by
  intro h
  obtain ⟨s', hs', htrace⟩ : ∃ s', (observe skippedParser).executeDelayedEventAction
      parserProgram.replayEnv.observed = some (true, s') ∧
      s'.world.2 = [.tried ⟨2, 1, parserOf "http://a/x", false⟩, fuzzyMatched,
        .tried ⟨2, 1, parserOf "http://a/y", true⟩, fromPending] := ⟨_, rfl, rfl⟩
  refine h parserProgram skippedParser _ _ true s' rfl (providersTake_parserProgram _) hs'
    (parserOf "http://a/y") rfl rfl ?_
  rw [htrace]
  exact ⟨[_], _, rfl, rfl, rfl⟩

end DueEvents

end R4
