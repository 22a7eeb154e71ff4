import Mathlib.Logic.Relation
import Mathlib.Logic.Function.Basic
import R4.ForStd.Lts
import R4.Native.HappensBefore

/-!
# The logged happens-before arcs

A run calls the happens-before functions in any order, in strict mode or not. `Adds` says
what a call can do to the arcs: every arc that it logs was requested by it, and everything
that it requested in the right direction is logged when it returns. The set of the
requested arcs, which is updated before the direction is checked, and the log stay in step
because an arc that goes backwards is never logged at all.

## Key results

- `perform_adds`: what one call does to the arcs
- `ArcsOk`: the log has every arc of the set that goes forward, once
- `logged_arcs_strict_order`: the logged arcs are distinct, ordered and complete
-/

namespace R4

/-- The two event actions that an arc connects. -/
def Arc.ends (arc : Arc) : EventActionId × EventActionId := (arc.tail, arc.head)

namespace HBState

/-! ## What a call does to the arcs -/

/-- The log and the set of requested arcs agree on the arcs that go forward. -/
structure ArcsOk (s : HBState) : Prop where
  nodup : (s.actionLog.arcs.map Arc.ends).Nodup
  forward : ∀ arc ∈ s.actionLog.arcs, arc.tail < arc.head
  logged : ∀ p : EventActionId × EventActionId, p.1 < p.2 →
    (p ∈ s.hb.hbarcsUnique ↔ p ∈ s.actionLog.arcs.map Arc.ends)

/-- A call that requested the arcs `pairs`. -/
structure Adds (s : HBState) (pairs : List (EventActionId × EventActionId)) (s' : HBState) :
    Prop where
  ok : ArcsOk s → ArcsOk s'
  grows : s.actionLog.arcs <+: s'.actionLog.arcs
  origin : ∀ arc ∈ s'.actionLog.arcs, arc ∈ s.actionLog.arcs ∨ arc.ends ∈ pairs
  uniqueGrows : ∀ p ∈ s.hb.hbarcsUnique, p ∈ s'.hb.hbarcsUnique
  requested : ∀ p ∈ pairs, p.1 < p.2 → p ∈ s'.hb.hbarcsUnique
  positive : s.strictMode = true → ∀ p ∈ pairs, p.1 < p.2 → 0 < p.1
  strictMode : s'.strictMode = s.strictMode

/-- A call that touches neither the arcs nor the mode. -/
theorem Adds.of_same {s s' : HBState} (harcs : s'.actionLog.arcs = s.actionLog.arcs)
    (hunique : s'.hb.hbarcsUnique = s.hb.hbarcsUnique) (hmode : s'.strictMode = s.strictMode) :
    Adds s [] s' where
  ok ok := ⟨by rw [harcs]; exact ok.nodup, by rw [harcs]; exact ok.forward,
    by rw [harcs, hunique]; exact ok.logged⟩
  grows := harcs ▸ List.prefix_rfl
  origin arc h := Or.inl (by rwa [harcs] at h)
  uniqueGrows p hp := by rwa [hunique]
  requested p hp := by simp at hp
  positive _ p hp := by simp at hp
  strictMode := hmode

/-- Arcs of two calls, one behind the other. -/
theorem Adds.trans {s s' s'' : HBState} {pairs pairs' : List (EventActionId × EventActionId)}
    (h : Adds s pairs s') (h' : Adds s' pairs' s'') : Adds s (pairs ++ pairs') s'' where
  ok ok := h'.ok (h.ok ok)
  grows := h.grows.trans h'.grows
  origin arc harc := by
    -- an arc was there before, or is one of the two calls
    rcases h'.origin arc harc with harc | hpair
    · exact (h.origin arc harc).imp_right fun hpair => List.mem_append_left _ hpair
    · exact Or.inr (List.mem_append_right _ hpair)
  uniqueGrows p hp := h'.uniqueGrows p (h.uniqueGrows p hp)
  requested p hp hlt := by
    -- an arc that was asked for first stays in the set
    rcases List.mem_append.mp hp with hp | hp
    · exact h'.uniqueGrows p (h.requested p hp hlt)
    · exact h'.requested p hp hlt
  positive hstrict p hp hlt := by
    -- what both of them log is in order
    rcases List.mem_append.mp hp with hp | hp
    · exact h.positive hstrict p hp hlt
    · exact h'.positive (h.strictMode.trans hstrict) p hp hlt
  strictMode := h'.strictMode.trans h.strictMode

/-- What comes before a call and touches neither the arcs nor the mode. -/
theorem Adds.start {s s' s'' : HBState} {pairs : List (EventActionId × EventActionId)}
    (h : Adds s' pairs s'') (harcs : s'.actionLog.arcs = s.actionLog.arcs)
    (hunique : s'.hb.hbarcsUnique = s.hb.hbarcsUnique) (hmode : s'.strictMode = s.strictMode) :
    Adds s pairs s'' :=
  (Adds.of_same harcs hunique hmode).trans h

/-- `addUniqueArc` touches the set of requested arcs and the log only. -/
theorem addUniqueArc_frame {s s' : HBState} {earlier later : EventActionId} {duration : Int}
    (h : s.addUniqueArc earlier later duration = some s') :
    s'.hb = { s.hb with hbarcsUnique := s'.hb.hbarcsUnique } ∧ s'.strictMode = s.strictMode := by
  unfold addUniqueArc actionLogAddArc at h
  split at h
  · obtain rfl := Option.some.inj h
    exact ⟨rfl, rfl⟩
  · split at h
    · split at h
      · simp at h
      · obtain rfl := Option.some.inj h
        exact ⟨rfl, rfl⟩
    · obtain rfl := Option.some.inj h
      exact ⟨rfl, rfl⟩

/-- An arc that has not been requested before is logged if it goes forward. -/
theorem addUniqueArc_adds {s s' : HBState} {earlier later : EventActionId} {duration : Int}
    (hpositive : s.strictMode = true → earlier < later → 0 < earlier)
    (h : s.addUniqueArc earlier later duration = some s') : Adds s [(earlier, later)] s' := by
  have hstrict : s.strictMode = true → ∀ p ∈ [(earlier, later)], p.1 < p.2 → 0 < p.1 := by
    intro hmode p hp
    obtain rfl := List.mem_singleton.mp hp
    exact hpositive hmode
  have hmode := (addUniqueArc_frame h).2
  unfold addUniqueArc at h
  split at h
  · rename_i hmem
    -- the arc was requested before, so nothing happens
    obtain rfl := Option.some.inj h
    refine ⟨id, List.prefix_rfl, fun _ => Or.inl, fun _ => id, ?_, hstrict, rfl⟩
    intro p hp _
    obtain rfl := List.mem_singleton.mp hp
    exact hmem
  · rename_i hnew
    unfold actionLogAddArc at h
    split at h
    · -- an arc that goes backwards is requested, and not logged
      rename_i hle
      split at h
      · simp at h
      · obtain rfl := Option.some.inj h
        refine ⟨fun ok => ⟨ok.nodup, ok.forward, ?_⟩, List.prefix_rfl, fun _ => Or.inl,
          fun p hp => List.mem_append_left _ hp, ?_, hstrict, hmode⟩
        · intro p hlt
          rw [← ok.logged p hlt]
          refine ⟨fun hp => ?_, fun hp => List.mem_append_left _ hp⟩
          rcases List.mem_append.mp hp with hp | hp
          · exact hp
          · obtain rfl := List.mem_singleton.mp hp
            exact absurd hlt (Int.not_lt.mpr hle)
        · exact fun p hp _ => List.mem_append_right _ hp
    · rename_i hlt
      obtain rfl := Option.some.inj h
      -- a new arc that goes forward is requested and logged
      refine ⟨fun ok => ⟨?_, ?_, ?_⟩, List.prefix_append _ _, ?_,
        fun p hp => List.mem_append_left _ hp, fun p hp _ => List.mem_append_right _ hp, hstrict,
        hmode⟩
      · -- a logged arc would have been requested
        have hfresh : (earlier, later) ∉ s.actionLog.arcs.map Arc.ends := fun hmem =>
          hnew ((ok.logged (earlier, later) (Int.not_le.mp hlt)).mpr hmem)
        rw [ActionLog.addArc_arcs, List.map_append]
        exact List.Nodup.append ok.nodup (List.nodup_singleton _)
          (List.disjoint_singleton.mpr hfresh)
      · intro arc harc
        rcases List.mem_append.mp harc with harc | harc
        · exact ok.forward arc harc
        · obtain rfl := List.mem_singleton.mp harc
          exact Int.not_le.mp hlt
      · intro p hp
        rw [ActionLog.addArc_arcs, List.map_append, List.mem_append, List.mem_append,
          ok.logged p hp]
        rfl
      · intro arc harc
        rcases List.mem_append.mp harc with harc | harc
        · exact Or.inl harc
        · obtain rfl := List.mem_singleton.mp harc
          exact Or.inr (List.mem_singleton.mpr rfl)

/-- In strict mode `addExplicitArc` accepts positive ids only. -/
theorem addExplicitArc_adds {s s' : HBState} {earlier later : EventActionId}
    (h : s.addExplicitArc earlier later = some s') :
    Adds s [(earlier, later)] s' ∧ s'.hb = { s.hb with hbarcsUnique := s'.hb.hbarcsUnique } := by
  unfold addExplicitArc at h
  split at h
  · simp at h
  · rename_i hvalid
    refine ⟨addUniqueArc_adds (fun hmode _ => ?_) h, (addUniqueArc_frame h).1⟩
    simp only [hmode, and_true, not_or] at hvalid
    exact Int.not_le.mp hvalid.1

/-- A timed arc is added, and nothing else of the component changes. -/
theorem addTimedArc_adds {s s' : HBState} {earlier later : EventActionId} {duration : Int}
    (h : s.addTimedArc earlier later duration = some s') :
    Adds s [(earlier, later)] s' ∧ s'.hb = { s.hb with hbarcsUnique := s'.hb.hbarcsUnique } := by
  unfold addTimedArc at h
  split at h
  · simp at h
  · rename_i hvalid
    refine ⟨addUniqueArc_adds (fun hmode _ => ?_) h, (addUniqueArc_frame h).1⟩
    simp only [hmode, and_true, not_or] at hvalid
    exact Int.not_le.mp hvalid.1

/-- A request for an arc from an event action to itself does nothing. -/
theorem adds_self (s : HBState) (id : EventActionId) : Adds s [(id, id)] s where
  ok := fun h => h
  grows := List.prefix_rfl
  origin _ h := Or.inl h
  uniqueGrows _ h := h
  requested p hp hlt := by
    obtain rfl := List.mem_singleton.mp hp
    exact absurd hlt (Int.lt_irrefl _)
  positive _ p hp hlt := by
    obtain rfl := List.mem_singleton.mp hp
    exact absurd hlt (Int.lt_irrefl _)
  strictMode := rfl

/-- So is an explicit arc. -/
theorem hbAddExplicitArc_adds {s s' : HBState} {earlier later : EventActionId}
    (h : s.hbAddExplicitArc earlier later = some s') :
    Adds s [(earlier, later)] s' ∧ s'.hb = { s.hb with hbarcsUnique := s'.hb.hbarcsUnique } := by
  unfold hbAddExplicitArc at h
  split at h
  · exact addExplicitArc_adds h
  · rename_i hself
    obtain rfl := Option.some.inj h
    obtain rfl := not_not.mp hself
    exact ⟨adds_self s earlier, rfl⟩

/-- So is a timed arc that is asked for. -/
theorem hbAddTimedArc_adds {s s' : HBState} {earlier later : EventActionId} {duration : Int}
    (h : s.hbAddTimedArc earlier later duration = some s') :
    Adds s [(earlier, later)] s' ∧ s'.hb = { s.hb with hbarcsUnique := s'.hb.hbarcsUnique } := by
  unfold hbAddTimedArc at h
  split at h
  · exact addTimedArc_adds h
  · rename_i hself
    obtain rfl := Option.some.inj h
    obtain rfl := not_not.mp hself
    exact ⟨adds_self s earlier, rfl⟩

/-- What `checkLogged` lets pass it does not change. -/
theorem checkLogged_eq {s s' : HBState} {logged : Bool} (h : s.checkLogged logged = some s') :
    s' = s := by
  unfold checkLogged at h
  split at h
  · simp at h
  · exact (Option.some.inj h).symm

/-- `ActionLogEnterOperation` starts the event action in the log. -/
theorem actionLogEnterOperation_eq {s s' : HBState} {id : EventActionId} {type : ActionLogType}
    (h : s.actionLogEnterOperation id type = some s') :
    s' = { s with actionLog := ((s.actionLog.startEventAction id).setEventActionType type).2 } :=
  checkLogged_eq h

/-- A command goes to the log alone. -/
theorem actionLogCommand_eq {s s' : HBState} {command : CommandType} {stringId : Int}
    (h : s.actionLogCommand command stringId = some s') :
    s' = { s with actionLog := (s.actionLog.logCommand command stringId).2 } :=
  checkLogged_eq h

/-- So does the end of an operation. -/
theorem actionLogExitOperation_eq {s s' : HBState} (h : s.actionLogExitOperation = some s') :
    s' = { s with actionLog := s.actionLog.endEventAction.2 } :=
  checkLogged_eq h

/-- The arc that a new event action of the user interface is chained with. -/
def uiRequests (s : HBState) (id : EventActionId) (type : ActionLogType) :
    List (EventActionId × EventActionId) :=
  if type = .userInterface ∧ s.hb.lastUIEventAction ≠ 0 then [(s.hb.lastUIEventAction, id)] else []

/-- The state in which an event action has been opened in the log. -/
def opened (s : HBState) (id : EventActionId) (type : ActionLogType) : HBState :=
  { s with
    hb := { s.hb with currentEventActionId := id }
    actionLog := ((s.actionLog.startEventAction id).setEventActionType type).2 }

/-- What entering an event action can do: the first of the user interface starts the chain,
    the others are chained with the last one, and the rest are only opened. -/
theorem hbEnterEventAction_cases {s s' : HBState} {id : EventActionId} {type : ActionLogType}
    (h : s.hbEnterEventAction id type = some s') :
    (type = .userInterface ∧ s.hb.lastUIEventAction = 0 ∧
      s' = { s.opened id type with
        hb := { (s.opened id type).hb with lastUIEventAction := id } }) ∨
    (type = .userInterface ∧ s.hb.lastUIEventAction ≠ 0 ∧
      ∃ s₂, (s.opened id type).addExplicitArc s.hb.lastUIEventAction id = some s₂ ∧
        s' = { s₂ with hb := { s₂.hb with lastUIEventAction := id } }) ∨
    (type ≠ .userInterface ∧ s' = s.opened id type) := by
  simp only [hbEnterEventAction, setCurrentEventAction, Option.bind_eq_some_iff] at h
  obtain ⟨s₁, henter, h⟩ := h
  obtain rfl := actionLogEnterOperation_eq henter
  -- a user event is chained behind the one before
  by_cases hui : type = .userInterface
  · rw [if_pos hui, chainUIEventAction, Option.map_eq_some_iff] at h
    obtain ⟨s₂, hchain, rfl⟩ := h
    -- there was none before
    by_cases hlast : s.hb.lastUIEventAction = 0
    · rw [if_neg (by simp [hlast])] at hchain
      obtain rfl := Option.some.inj hchain
      exact .inl ⟨hui, hlast, rfl⟩
    · -- the arc from the one before is added
      rw [if_pos hlast] at hchain
      exact .inr (.inl ⟨hui, hlast, s₂, hchain, rfl⟩)
  · -- any other event action is not chained
    rw [if_neg hui] at h
    exact .inr (.inr ⟨hui, (Option.some.inj h).symm⟩)

/-- Entering an event action makes it the current one, and the last one of the user
    interface if it is one. -/
theorem hbEnterEventAction_adds {s s' : HBState} {id : EventActionId} {type : ActionLogType}
    (h : s.hbEnterEventAction id type = some s') :
    Adds s (uiRequests s id type) s' ∧ s'.hb = { s.hb with
      currentEventActionId := id
      lastUIEventAction := if type = .userInterface then id else s.hb.lastUIEventAction
      hbarcsUnique := s'.hb.hbarcsUnique } := by
  obtain ⟨hui, hlast, rfl⟩ | ⟨hui, hlast, s₂, hchain, rfl⟩ | ⟨hui, rfl⟩ :=
    hbEnterEventAction_cases h
  · rw [uiRequests, if_neg (by simp [hlast]), if_pos hui]
    exact ⟨.of_same (by simp [opened]) rfl rfl, rfl⟩
  · obtain ⟨hadds, hhb⟩ := addExplicitArc_adds hchain
    rw [uiRequests, if_pos ⟨hui, hlast⟩, if_pos hui]
    refine ⟨?_, by rw [hhb]; rfl⟩
    have hchained : Adds s [(s.hb.lastUIEventAction, id)] s₂ :=
      hadds.start (by simp [opened]) rfl rfl
    exact hchained.trans (.of_same rfl rfl rfl)
  · rw [uiRequests, if_neg (by simp [hui]), if_neg hui]
    exact ⟨.of_same (by simp [opened]) rfl rfl, rfl⟩

/-- Leaving an event action adds no arc. -/
theorem hbExitEventAction_adds {s s' : HBState} {commit : Bool}
    (h : s.hbExitEventAction commit = some s') :
    Adds s [] s' ∧ s'.hb = { s.hb with
      currentEventActionId := 0
      lastEventAction := if commit then s.hb.currentEventActionId else s.hb.lastEventAction } := by
  obtain ⟨s₁, hexit, rfl⟩ := Option.map_eq_some_iff.mp h
  obtain rfl := actionLogExitOperation_eq hexit
  exact ⟨.of_same (by simp) rfl rfl, rfl⟩

/-- A join adds an arc from each thread to its slice. -/
theorem joinThreads_adds {joinSlice : EventActionId} {ids : List EventActionId} {s s' : HBState}
    (h : MultiJoinHappensBefore.joinThreads joinSlice ids s = some s') :
    Adds s (ids.map fun id => (id, joinSlice)) s' ∧
      s'.hb = { s.hb with hbarcsUnique := s'.hb.hbarcsUnique } := by
  -- one request after the other, each in the state that the one before left
  induction ids generalizing s with
  | nil =>
    obtain rfl := Option.some.inj h
    exact ⟨.of_same rfl rfl rfl, rfl⟩
  | cons id ids ih =>
    rw [MultiJoinHappensBefore.joinThreads, Option.bind_eq_some_iff] at h
    obtain ⟨s₁, hfirst, h⟩ := h
    have hself : s.hbAddExplicitArc id joinSlice = some s₁ := hfirst
    obtain ⟨hadds, hhb⟩ := hbAddExplicitArc_adds hself
    obtain ⟨hrest, hhb'⟩ := ih h
    refine ⟨hadds.trans hrest, ?_⟩
    rw [hhb', hhb]

end HBState

/-! ## Runs -/

namespace ArcRun

/-- A call of a happens-before function. `MultiJoinHappensBefore` objects are numbered. -/
inductive ArcLabel where
  | addExplicitArc (earlier later : EventActionId)
  | addTimedArc (earlier later : EventActionId) (duration : Int)
  | enterEventAction (id : EventActionId) (type : ActionLogType)
  | exitEventAction (commit : Bool)
  | threadEndAction (join : Nat)
  | joinAction (join : Nat)
  | strictMode (strict : Bool)
  | allocate
  | logCommand (command : CommandType) (stringId : Int)
  | triggerEvent (eventId : Int)
  | eventTriggered (eventId : Int)

/-- The happens-before component with the join objects. -/
abbrev Component := HBState × (Nat → MultiJoinHappensBefore)

/-- The call. -/
def perform : ArcLabel → Component → Option Component
  | .addExplicitArc earlier later, (s, joins) =>
    (s.hbAddExplicitArc earlier later).map fun s => (s, joins)
  | .addTimedArc earlier later duration, (s, joins) =>
    (s.hbAddTimedArc earlier later duration).map fun s => (s, joins)
  | .enterEventAction id type, (s, joins) => (s.hbEnterEventAction id type).map fun s => (s, joins)
  | .exitEventAction commit, (s, joins) => (s.hbExitEventAction commit).map fun s => (s, joins)
  | .threadEndAction join, (s, joins) =>
    ((joins join).threadEndAction s).map fun m => (s, Function.update joins join m)
  | .joinAction join, (s, joins) =>
    ((joins join).joinAction s).map fun result => (result.2, Function.update joins join result.1)
  | .strictMode strict, (s, joins) => some (s.actionLogStrictMode strict, joins)
  | .allocate, (s, joins) => some (s.allocateEventActionId.2, joins)
  | .logCommand command stringId, (s, joins) =>
    (s.actionLogCommand command stringId).map fun s => (s, joins)
  | .triggerEvent eventId, (s, joins) => some (s.actionLogTriggerEvent eventId, joins)
  | .eventTriggered eventId, (s, joins) => some (s.actionLogEventTriggered eventId, joins)

/-- The arcs that the call requests: those it is asked for, the chain of the user interface,
    and those to the event action that joins. -/
def requests : ArcLabel → Component → List (EventActionId × EventActionId)
  | .addExplicitArc earlier later, _ => [(earlier, later)]
  | .addTimedArc earlier later _, _ => [(earlier, later)]
  | .enterEventAction id type, (s, _) => s.uiRequests id type
  | .joinAction join, (s, joins) =>
    (joins join).endThreads.map fun id => (id, s.hb.currentEventActionId)
  | _, _ => []

/-- A call, apart from a change of the mode, adds the arcs that it requests. -/
theorem perform_adds {l : ArcLabel} {c c' : Component} (h : perform l c = some c')
    (hmode : ∀ strict, l ≠ .strictMode strict) : HBState.Adds c.1 (requests l c) c'.1 := by
  obtain ⟨s, joins⟩ := c
  cases l with
  | addExplicitArc earlier later =>
    obtain ⟨s', hcall, rfl⟩ := Option.map_eq_some_iff.mp h
    exact (HBState.hbAddExplicitArc_adds hcall).1
  | addTimedArc earlier later duration =>
    obtain ⟨s', hcall, rfl⟩ := Option.map_eq_some_iff.mp h
    exact (HBState.hbAddTimedArc_adds hcall).1
  | enterEventAction id type =>
    obtain ⟨s', hcall, rfl⟩ := Option.map_eq_some_iff.mp h
    exact (HBState.hbEnterEventAction_adds hcall).1
  | exitEventAction commit =>
    obtain ⟨s', hcall, rfl⟩ := Option.map_eq_some_iff.mp h
    exact (HBState.hbExitEventAction_adds hcall).1
  | threadEndAction join =>
    obtain ⟨m, -, rfl⟩ := Option.map_eq_some_iff.mp h
    exact .of_same rfl rfl rfl
  | joinAction join =>
    obtain ⟨⟨m, s'⟩, hcall, rfl⟩ := Option.map_eq_some_iff.mp h
    unfold MultiJoinHappensBefore.joinAction at hcall
    simp only [requests]
    cases hthreads : (joins join).endThreads with
    | nil =>
      simp only [hthreads, Option.some.injEq, Prod.mk.injEq] at hcall
      obtain ⟨-, rfl⟩ := hcall
      exact .of_same rfl rfl rfl
    | cons id ids =>
      simp only [hthreads, Option.bind_eq_bind, Option.bind_eq_some_iff, Option.pure_def,
        Option.some.injEq, Prod.mk.injEq] at hcall
      obtain ⟨_, -, joinSlice, hcurrent, s₁, hjoin, -, rfl⟩ := hcall
      -- the join is requested for the current event action
      have hslice : s.hb.currentEventActionId = joinSlice := by
        unfold HBState.currentEventAction at hcurrent
        split at hcurrent
        · simp at hcurrent
        · exact Option.some.inj hcurrent
      rw [hslice]
      exact (HBState.joinThreads_adds hjoin).1
  | strictMode strict => exact absurd rfl (hmode strict)
  | allocate =>
    obtain rfl := Option.some.inj h
    exact .of_same rfl rfl rfl
  | logCommand command stringId =>
    obtain ⟨s', hcall, rfl⟩ := Option.map_eq_some_iff.mp h
    obtain rfl := HBState.actionLogCommand_eq hcall
    exact .of_same (by simp) rfl rfl
  | triggerEvent eventId =>
    obtain rfl := Option.some.inj h
    exact .of_same (by simp [HBState.actionLogTriggerEvent]) rfl rfl
  | eventTriggered eventId =>
    obtain rfl := Option.some.inj h
    exact .of_same (by simp [HBState.actionLogEventTriggered]) rfl rfl

/-- A run, with what it requested and the event actions it entered. -/
structure RunState where
  component : Component
  requested : List (EventActionId × EventActionId)
  entered : List EventActionId

/-- The event action that a call enters. -/
def enters : ArcLabel → List EventActionId
  | .enterEventAction id _ => [id]
  | _ => []

/-- A call of the run. -/
def exec (x : RunState) (l : ArcLabel) : Option RunState :=
  (perform l x.component).map fun component =>
    { component := component
      requested := x.requested ++ requests l x.component
      entered := x.entered ++ enters l }

/-- The runs of the happens-before component. -/
def arcRuns : Lts RunState ArcLabel where
  init x := x = ⟨(.init, fun _ => .init), [], []⟩
  step x l x' := exec x l = some x'

/-- The arcs of the log. -/
def RunState.arcs (x : RunState) : List Arc := x.component.1.actionLog.arcs

/-- What holds of the arcs between any two calls. -/
structure Ok (x : RunState) : Prop where
  arcs : x.component.1.ArcsOk
  requested : ∀ p ∈ x.requested, p.1 < p.2 → p ∈ x.component.1.hb.hbarcsUnique

/-- Every step keeps the arcs in order. -/
theorem Ok.step {x x' : RunState} {l : ArcLabel} (ok : Ok x) (h : exec x l = some x') : Ok x' := by
  obtain ⟨c, hcall, rfl⟩ := Option.map_eq_some_iff.mp h
  by_cases hmode : ∃ strict, l = .strictMode strict
  · obtain ⟨strict, rfl⟩ := hmode
    obtain rfl := Option.some.inj hcall
    -- changing the mode changes neither the log nor the set of requests
    refine ⟨⟨ok.arcs.nodup, ok.arcs.forward, ok.arcs.logged⟩, ?_⟩
    simp only [requests, List.append_nil]
    exact ok.requested
  · have hadds := perform_adds hcall fun strict hl => hmode ⟨strict, hl⟩
    refine ⟨hadds.ok ok.arcs, ?_⟩
    intro p hp hlt
    -- requested earlier in the run, or by this call
    rcases List.mem_append.mp hp with hp | hp
    · exact hadds.uniqueGrows p (ok.requested p hp hlt)
    · exact hadds.requested p hp hlt

/-- In every run the arcs are in order. -/
theorem ok_of_reachable {x : RunState} (r : arcRuns.Reachable x) : Ok x := by
  refine Lts.Reachable.invariant (P := Ok) ?_ ?_ r
  · intro x hx
    obtain rfl := hx
    refine ⟨⟨List.nodup_nil, ?_, ?_⟩, ?_⟩
    · intro arc harc
      simp [HBState.init, ActionLog.init] at harc
    · intro p _
      simp [HBState.init, EventActionsHB.init, ActionLog.init]
    · intro p hp
      simp at hp
  · intro x l x' _ ok h
    exact ok.step h

/-- Arcs that go upwards have no cycle. -/
theorem acyclic_of_forward {arcs : List Arc} (h : ∀ arc ∈ arcs, arc.tail < arc.head)
    (id : EventActionId) :
    ¬Relation.TransGen (fun a b => (a, b) ∈ arcs.map Arc.ends) id id := by
  have hlt : ∀ {a b}, Relation.TransGen (fun a b => (a, b) ∈ arcs.map Arc.ends) a b → a < b := by
    intro a b hpath
    have hstep : ∀ {a b}, (a, b) ∈ arcs.map Arc.ends → a < b := by
      intro a b hab
      obtain ⟨arc, harc, hends⟩ := List.mem_map.mp hab
      obtain ⟨rfl, rfl⟩ := Prod.mk.inj hends
      exact h arc harc
    induction hpath with
    | single hab => exact hstep hab
    | tail _ hab ih => exact Int.lt_trans ih (hstep hab)
  exact fun hpath => Int.lt_irrefl id (hlt hpath)

/-- The logged happens-before relation. In every run that does not end in a crash, no arc is
    logged twice, every arc goes from a smaller to a greater id, so that there is no cycle,
    and every arc that was requested in this direction has been logged. -/
theorem logged_arcs_strict_order (x : RunState) (r : arcRuns.Reachable x) :
    (x.arcs.map Arc.ends).Nodup ∧ (∀ arc ∈ x.arcs, arc.tail < arc.head) ∧
      (∀ id, ¬Relation.TransGen (fun a b => (a, b) ∈ x.arcs.map Arc.ends) id id) ∧
      ∀ p ∈ x.requested, p.1 < p.2 → p ∈ x.arcs.map Arc.ends := by
  have ok := ok_of_reachable r
  refine ⟨ok.arcs.nodup, ok.arcs.forward, acyclic_of_forward ok.arcs.forward, ?_⟩
  intro p hp hlt
  exact (ok.arcs.logged p hlt).mp (ok.requested p hp hlt)

/-- The same arc requested in both modes, and one that goes backwards. -/
theorem logged_arcs_strict_order_of_modes :
    ∃ x, arcRuns.Reachable x ∧ x.requested = [(1, 2), (2, 1), (1, 2)] ∧
      x.arcs.map Arc.ends = [(1, 2)] ∧ (x.arcs.map Arc.ends).Nodup := by
  -- in strict mode the second request would end the process
  have hrun : (([.addExplicitArc 1 2, .strictMode false, .addTimedArc 2 1 7, .addTimedArc 1 2 7] :
      List ArcLabel).foldlM exec ⟨(.init, fun _ => .init), [], []⟩).map
        (fun x => (x.requested, x.arcs.map Arc.ends)) =
      some ([(1, 2), (2, 1), (1, 2)], [(1, 2)]) := by decide +kernel
  obtain ⟨x, hx, hobserved⟩ := Option.map_eq_some_iff.mp hrun
  obtain ⟨hrequested, harcs⟩ := Prod.mk.inj hobserved
  have r : arcRuns.Reachable x := Lts.Reachable.foldlM (fun _ _ _ h => h) (.init rfl) hx
  exact ⟨x, r, hrequested, harcs, (logged_arcs_strict_order x r).1⟩

end ArcRun

end R4
