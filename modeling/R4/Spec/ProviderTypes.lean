import Mathlib.Data.List.Induction
import R4.Native.Register

/-!
# The types of the providers that are called

A provider is registered for the event actions of a type. The providers are kept in a map that is
ordered by type, and the loop over them starts at the type of the event action. As long as they
decline it does not stop at the end of that type, but goes on with the types behind it.

## Key results

- `runProviders_logged`: `invokedProviders` are those whose functions a run calls
- `exists_mem_providersFrom_iff`: the providers that are offered an event action
- `callsOwnType_iff`: when they are those that were registered for its type
-/

namespace R4.EventActionRegister

variable {O E : Type}

/-! ## The providers that are called -/

/-- The providers whose functions the loop calls, also if the process ends in it. -/
def invokedProviders (p : Platform O E) (newEventActionId originalEventActionId : EventActionId)
    (descriptor : EventActionDescriptor) : List (O × O) → EventActionRegister O × E → List O
  | [], _ => []
  | (first, provider) :: rest, s =>
    let (id, env) := eventActionId p newEventActionId s.2
    match enterDispatch p id originalEventActionId descriptor first s.1 env with
    -- the event action cannot be entered
    | none => []
    | some _ =>
      provider ::
        match runProvider p newEventActionId originalEventActionId descriptor first provider s with
        | some (false, s) =>
          invokedProviders p newEventActionId originalEventActionId descriptor rest s
        | _ => []

/-- A platform with a log of the functions that are called. -/
def logged (p : Platform O E) : Platform O (E × List O) where
  hbAllocateEventActionId s :=
    ((p.hbAllocateEventActionId s.1).1, (p.hbAllocateEventActionId s.1).2, s.2)
  hbEnterEventAction id type s := (p.hbEnterEventAction id type s.1).map fun env => (env, s.2)
  hbExitEventAction commit s := (p.hbExitEventAction commit s.1).map fun env => (env, s.2)
  actionLogEventTriggered o s := (p.actionLogEventTriggered o s.1, s.2)
  call o d s := (p.call o d (s.1, s.2.1)).map fun result =>
    (result.1, result.2.1, result.2.2, s.2.2 ++ [o])

/-- A provider that is asked is logged. -/
theorem runProvider_logged (p : Platform O E) (newId originalId : EventActionId)
    (d : EventActionDescriptor) (first provider : O) (r : EventActionRegister O) (env : E)
    (log : List O) :
    runProvider (logged p) newId originalId d first provider (r, env, log) =
      (runProvider p newId originalId d first provider (r, env)).map fun result =>
        (result.1, result.2.1, result.2.2, log ++ [provider]) := by
  have hid : eventActionId (logged p) newId (env, log) =
      ((eventActionId p newId env).1, (eventActionId p newId env).2, log) := by
    unfold eventActionId
    split <;> rfl
  simp only [runProvider, hid, enterDispatch, Option.bind_eq_bind]
  cases henter : p.hbEnterEventAction (eventActionId p newId env).1
      (toActionLogType d.category) (eventActionId p newId env).2 with
  | none => simp [logged, henter]
  | some env₁ =>
    cases hcall : p.call provider d (r.eventActionDispatchStart (eventActionId p newId env).1
        originalId d, p.actionLogEventTriggered first env₁) with
    | none => simp [logged, henter, hcall]
    | some result =>
      obtain ⟨found, r', env₂⟩ := result
      cases hexit : p.hbExitEventAction found env₂ with
      | none => simp [logged, henter, hcall, hexit]
      | some env₃ => simp [logged, henter, hcall, hexit]

/-- The log of a run has the providers that are called. -/
theorem runProviders_logged (p : Platform O E) (newId originalId : EventActionId)
    (d : EventActionDescriptor) (providers : List (O × O)) (r : EventActionRegister O) (env : E)
    (log : List O) :
    runProviders (logged p) newId originalId d providers (r, env, log) =
      (runProviders p newId originalId d providers (r, env)).map fun result =>
        (result.1, result.2.1, result.2.2,
          log ++ invokedProviders p newId originalId d providers (r, env)) := by
  induction providers generalizing r env log with
  | nil => simp [runProviders, invokedProviders]
  | cons entry providers ih =>
    obtain ⟨first, provider⟩ := entry
    simp only [runProviders, runProvider_logged, Option.bind_eq_bind]
    cases hrun : runProvider p newId originalId d first provider (r, env) with
    | none => rfl
    | some result =>
      obtain ⟨found, r', env'⟩ := result
      -- a provider that returns has been entered
      obtain ⟨s, hs⟩ : ∃ s, enterDispatch p (eventActionId p newId env).1 originalId d first r
          (eventActionId p newId env).2 = some s := by
        simp only [runProvider, Option.bind_eq_bind, Option.bind_eq_some_iff] at hrun
        exact ⟨_, hrun.choose_spec.1⟩
      cases found with
      | true => simp [invokedProviders, hs, hrun]
      | false => simp [invokedProviders, hs, hrun, ih]

/-- Only providers that are offered the event action are called. -/
theorem exists_of_mem_invokedProviders {p : Platform O E} {newId originalId : EventActionId}
    {d : EventActionDescriptor} {providers : List (O × O)} {s : EventActionRegister O × E} {o : O}
    (h : o ∈ invokedProviders p newId originalId d providers s) :
    ∃ first, (first, o) ∈ providers := by
  induction providers generalizing s with
  | nil => exact nomatch h
  | cons entry providers ih =>
    obtain ⟨first, provider⟩ := entry
    unfold invokedProviders at h
    dsimp only at h
    split at h
    · exact nomatch h
    · rcases List.mem_cons.mp h with rfl | h
      · exact ⟨first, List.mem_cons_self⟩
      · split at h
        · obtain ⟨first, hmem⟩ := ih h
          exact ⟨first, List.mem_cons_of_mem _ hmem⟩
        · exact nomatch h

/-- A platform on which every provider declines. -/
def declining (O : Type) : Platform O Unit where
  hbAllocateEventActionId env := (0, env)
  hbEnterEventAction _ _ env := some env
  hbExitEventAction _ env := some env
  actionLogEventTriggered _ env := env
  call _ _ s := some (false, s)

/-- All of them are called then. -/
theorem invokedProviders_declining (newId originalId : EventActionId) (d : EventActionDescriptor)
    (providers : List (O × O)) (s : EventActionRegister O × Unit) :
    invokedProviders (declining O) newId originalId d providers s = providers.map Prod.snd := by
  induction providers generalizing s with
  | nil => rfl
  | cons entry providers ih =>
    rw [List.map_cons, ← ih]
    rfl

/-! ## The map of the providers -/

/-- The types are in order, and none is without a provider. -/
structure Ordered (providers : List (StdString × List O)) : Prop where
  sorted : (providers.map Prod.fst).Pairwise (· < ·)
  nonempty : ∀ e ∈ providers, e.2 ≠ []

/-- The types of the map. -/
theorem mem_keys_pushProvider_iff {providers : List (StdString × List O)}
    {type type' : StdString} {target : O} :
    type' ∈ (pushProvider type target providers).map Prod.fst ↔
      type' = type ∨ type' ∈ providers.map Prod.fst := by
  induction providers with
  | nil => simp [pushProvider]
  | cons entry providers ih =>
    obtain ⟨t, l⟩ := entry
    unfold pushProvider
    split
    · rename_i heq
      subst heq
      simp
    · split
      · simp
      · rw [List.map_cons, List.mem_cons, ih, List.map_cons, List.mem_cons, or_left_comm]

/-- Registering a provider keeps the types in their order. -/
theorem Ordered.pushProvider {providers : List (StdString × List O)} (h : Ordered providers)
    (type : StdString) (target : O) : Ordered (pushProvider type target providers) := by
  induction providers with
  | nil =>
    refine ⟨List.pairwise_singleton _ _, fun e he => ?_⟩
    rw [List.mem_singleton.mp he]
    exact List.cons_ne_nil _ _
  | cons entry providers ih =>
    obtain ⟨t, l⟩ := entry
    obtain ⟨hfirst, hsorted⟩ := List.pairwise_cons.mp h.sorted
    have hrest := fun e he => h.nonempty e (List.mem_cons_of_mem _ he)
    unfold EventActionRegister.pushProvider
    split
    · refine ⟨h.sorted, fun e he => ?_⟩
      rcases List.mem_cons.mp he with rfl | he
      · simp
      · exact hrest e he
    · rename_i hne
      split
      · -- a type that is new is inserted in front of the first greater one
        rename_i hlt
        refine ⟨List.pairwise_cons.mpr ⟨fun t' ht' => ?_, h.sorted⟩, fun e he => ?_⟩
        · rcases List.mem_cons.mp ht' with rfl | ht'
          · exact hlt
          · exact lt_trans hlt (hfirst t' ht')
        · rcases List.mem_cons.mp he with rfl | he
          · simp
          · exact h.nonempty e he
      · rename_i hlt
        have ih := ih ⟨hsorted, hrest⟩
        refine ⟨List.pairwise_cons.mpr ⟨fun t' ht' => ?_, ih.sorted⟩, fun e he => ?_⟩
        · rcases mem_keys_pushProvider_iff.mp ht' with rfl | ht'
          · exact lt_of_le_of_ne (not_lt.mp hlt) (Ne.symm hne)
          · exact hfirst t' ht'
        · rcases List.mem_cons.mp he with rfl | he
          · exact h.nonempty _ List.mem_cons_self
          · exact ih.nonempty e he

/-- The entries from a key on, in a map that is in order. -/
theorem mem_dropWhile_iff {providers : List (StdString × List O)}
    (h : (providers.map Prod.fst).Pairwise (· < ·)) {type : StdString}
    {e : StdString × List O} :
    e ∈ providers.dropWhile (fun e => e.1 ≠ type) ↔
      type ∈ providers.map Prod.fst ∧ e ∈ providers ∧ type ≤ e.1 := by
  induction providers with
  | nil => simp
  | cons entry providers ih =>
    obtain ⟨hfirst, hsorted⟩ := List.pairwise_cons.mp h
    by_cases heq : entry.1 = type
    · rw [List.dropWhile_cons_of_neg (by simpa using heq)]
      refine ⟨fun he => ⟨heq ▸ List.mem_cons_self, he, ?_⟩, fun he => he.2.1⟩
      rcases List.mem_cons.mp he with rfl | he
      · exact le_of_eq heq.symm
      · exact heq ▸ le_of_lt (hfirst e.1 (List.mem_map_of_mem he))
    · rw [List.dropWhile_cons_of_pos (by simpa using heq), ih hsorted, List.map_cons,
        List.mem_cons, List.mem_cons, or_iff_right (Ne.symm heq)]
      refine and_congr_right fun hmem => and_congr_left fun hle => ?_
      refine (or_iff_right ?_).symm
      rintro rfl
      exact absurd (hfirst type hmem) (not_lt.mpr hle)

/-- The providers that are offered an event action: there has to be one for its type, and then it
    is all of them for that type and the types behind it. -/
theorem exists_mem_providersFrom_iff {r : EventActionRegister O} (h : Ordered r.typeToProvider)
    {type : StdString} {o : O} :
    (∃ first, (first, o) ∈ r.providersFrom type) ↔
      (∃ o, Registered r.typeToProvider type o) ∧
        ∃ type', type ≤ type' ∧ Registered r.typeToProvider type' o := by
  have hkey : type ∈ r.typeToProvider.map Prod.fst ↔
      ∃ o, Registered r.typeToProvider type o := by
    constructor
    · intro hmem
      obtain ⟨⟨t, targets⟩, he, rfl⟩ := List.mem_map.mp hmem
      obtain ⟨o, ho⟩ := List.exists_mem_of_ne_nil targets (h.nonempty _ he)
      exact ⟨o, targets, he, ho⟩
    · rintro ⟨o, targets, he, -⟩
      exact List.mem_map_of_mem (f := Prod.fst) he
  rw [← hkey, providersFrom]
  simp only [List.mem_flatMap]
  constructor
  · rintro ⟨first, ⟨type', targets⟩, he, hmem⟩
    obtain ⟨hkey, he, hle⟩ := (mem_dropWhile_iff h.sorted).mp he
    refine ⟨hkey, type', hle, targets, he, ?_⟩
    cases targets with
    | nil => exact absurd hmem List.not_mem_nil
    | cons first' rest =>
      obtain ⟨provider, hprovider, heq⟩ := List.mem_map.mp hmem
      exact (Prod.mk.inj heq).2 ▸ hprovider
  · rintro ⟨hkey, type', hle, targets, he, ho⟩
    have he := (mem_dropWhile_iff h.sorted).mpr ⟨hkey, he, hle⟩
    cases targets with
    | nil => exact absurd ho List.not_mem_nil
    | cons first rest => exact ⟨first, (type', first :: rest), he, List.mem_map_of_mem ho⟩

/-! ## Registrations -/

/-- Providers are registered one after the other, at a register without any. -/
def registerProviders (registrations : List (StdString × O)) (r : EventActionRegister O) :
    EventActionRegister O :=
  registrations.foldl (fun r registration =>
    r.registerEventActionProvider registration.1 registration.2) { r with typeToProvider := [] }

/-- The map has what was registered. -/
theorem registerProviders_spec (registrations : List (StdString × O))
    (r : EventActionRegister O) :
    Ordered (registerProviders registrations r).typeToProvider ∧
      ∀ type o, Registered (registerProviders registrations r).typeToProvider type o ↔
        (type, o) ∈ registrations := by
  induction registrations using List.reverseRecOn with
  | nil =>
    refine ⟨⟨List.Pairwise.nil, fun e he => absurd he List.not_mem_nil⟩, fun type o => ?_⟩
    simp [registerProviders, Registered]
  | append_singleton registrations registration ih =>
    obtain ⟨hordered, hregistered⟩ := ih
    have hpush : (registerProviders (registrations ++ [registration]) r).typeToProvider =
        pushProvider registration.1 registration.2
          (registerProviders registrations r).typeToProvider := by
      rw [registerProviders, List.foldl_append]
      rfl
    rw [hpush]
    refine ⟨hordered.pushProvider _ _, fun type o => ?_⟩
    rw [registered_pushProvider_iff, hregistered, List.mem_append, List.mem_singleton, or_comm,
      Prod.ext_iff]

/-- Whatever they return, the providers that `runEventAction` calls were registered for the type
    of the descriptor. -/
def CallsOwnType (registrations : List (StdString × O)) (r : EventActionRegister O)
    (d : EventActionDescriptor) : Prop :=
  ∀ (E : Type) (p : Platform O E) (newId originalId : EventActionId) (env : E),
    ∀ o ∈ invokedProviders p newId originalId d
        ((registerProviders registrations r).providersFrom d.type)
        (registerProviders registrations r, env),
      (d.type, o) ∈ registrations

/-- Only providers of the type of an event action are called for it, if there is none of that
    type or each one of a type behind it is also one of that type, and only then. -/
theorem callsOwnType_iff (registrations : List (StdString × O)) (r : EventActionRegister O)
    (d : EventActionDescriptor) :
    CallsOwnType registrations r d ↔
      ((∃ o, (d.type, o) ∈ registrations) →
        ∀ type o, (type, o) ∈ registrations → d.type < type → (d.type, o) ∈ registrations) := by
  obtain ⟨hordered, hregistered⟩ := registerProviders_spec registrations r
  constructor
  · rintro h ⟨own, hown⟩ type o ho hlt
    refine h Unit (declining O) (-1) (-1) () o ?_
    -- every provider declines, so all that are offered the event action are called
    rw [invokedProviders_declining]
    obtain ⟨first, hmem⟩ := (exists_mem_providersFrom_iff hordered).mpr
      ⟨⟨own, (hregistered _ _).mpr hown⟩, type, le_of_lt hlt, (hregistered _ _).mpr ho⟩
    exact List.mem_map_of_mem (f := Prod.snd) hmem
  · intro h E p newId originalId env o ho
    obtain ⟨⟨own, hown⟩, type, hle, hmem⟩ :=
      (exists_mem_providersFrom_iff hordered).mp (exists_of_mem_invokedProviders ho)
    rw [hregistered] at hown hmem
    rcases lt_or_eq_of_le hle with hlt | rfl
    · exact h ⟨own, hown⟩ type o hmem hlt
    · exact hmem

/-- The provider of `B` is called for an event action of `A` that the one of `A` declines. -/
theorem provider_of_later_type_called :
    ¬ CallsOwnType [("A".toList, 1), ("B".toList, 2)] (empty : EventActionRegister Nat)
      (.make .other "A".toList []) := by
  intro h
  have hmem := h Unit (declining Nat) (-1) (-1) () 2 (by decide +kernel)
  exact absurd hmem (by decide +kernel)

end R4.EventActionRegister
