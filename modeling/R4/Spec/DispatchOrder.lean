import R4.ForStd.Lts
import R4.Native.Dispatch
import R4.Spec.ArcRun
import R4.Spec.ReplaySchedulerStep

/-!
# The order of the dispatched event actions

A record run takes a new id for every event action when it is dispatched, or when an
immediate one is entered. A replay runs them under an id that the scheduler has allocated
before. In both, an event action is appended to the history under an id above all that are
there, and arcs are logged upwards, so an arc between two event actions of the schedule file
starts at an earlier line.

## Key results

- `Ok.runEventAction`: what is kept by an event action of a record run
- `ran_runEventAction`: what an event action of a replay does to the history
- `arcs_agree_with_dispatch_order`: the arcs of both kinds of run agree with the schedule
-/

namespace R4.DispatchOrder

open EventActionRegister

variable {O X : Type}

/-! ## The happens-before component -/

/-- A call of a happens-before function, with any join objects. -/
def HBCall (s s' : HBState) : Prop :=
  ∃ l joins joins', ArcRun.perform l (s, joins) = some (s', joins')

/-- The arcs stay in order, and no id is taken back. -/
structure Moves (s s' : HBState) : Prop where
  arcs : s.ArcsOk → s'.ArcsOk
  next : s.hb.nextEventActionId ≤ s'.hb.nextEventActionId

theorem Moves.refl (s : HBState) : Moves s s := ⟨id, Int.le_refl _⟩

theorem Moves.trans {s s' s'' : HBState} (h : Moves s s') (h' : Moves s' s'') : Moves s s'' :=
  ⟨fun ok => h'.arcs (h.arcs ok), Int.le_trans h.next h'.next⟩

/-- Arcs that are in order, with no new id. -/
theorem Moves.of_adds {s s' : HBState} {pairs : List (EventActionId × EventActionId)}
    (hadds : HBState.Adds s pairs s')
    (hnext : s'.hb.nextEventActionId = s.hb.nextEventActionId) : Moves s s' :=
  ⟨hadds.ok, Int.le_of_eq hnext.symm⟩

/-- A new id is above all others. -/
theorem moves_allocate (s : HBState) : Moves s s.allocateEventActionId.2 :=
  ⟨fun ok => ⟨ok.nodup, ok.forward, ok.logged⟩, Int.le_of_lt (Int.lt_succ _)⟩

/-- The strict mode changes neither arcs nor ids. -/
theorem moves_strictMode (strict : Bool) (s : HBState) : Moves s (s.actionLogStrictMode strict) :=
  ⟨fun ok => ⟨ok.nodup, ok.forward, ok.logged⟩, Int.le_refl _⟩

/-- Entering an event action. -/
theorem moves_enter {s s' : HBState} {id : EventActionId} {type : ActionLogType}
    (h : s.hbEnterEventAction id type = some s') : Moves s s' := by
  obtain ⟨hadds, hhb⟩ := HBState.hbEnterEventAction_adds h
  exact .of_adds hadds (by rw [hhb])

/-- Leaving one. -/
theorem moves_exit {s s' : HBState} {commit : Bool} (h : s.hbExitEventAction commit = some s') :
    Moves s s' := by
  obtain ⟨hadds, hhb⟩ := HBState.hbExitEventAction_adds h
  exact .of_adds hadds (by rw [hhb])

/-- An event that was triggered long ago. -/
theorem moves_eventTriggered (eventId : Int) (s : HBState) :
    Moves s (s.actionLogEventTriggered eventId) :=
  .of_adds (.of_same (by simp [HBState.actionLogEventTriggered]) rfl rfl) rfl

/-- Only the allocation gives out an id. -/
theorem next_perform {l : ArcRun.ArcLabel} {c c' : ArcRun.Component}
    (h : ArcRun.perform l c = some c') (hl : l ≠ .allocate) :
    c'.1.hb.nextEventActionId = c.1.hb.nextEventActionId := by
  obtain ⟨s, joins⟩ := c
  cases l with
  | allocate => exact absurd rfl hl
  | addExplicitArc earlier later =>
    obtain ⟨s', hcall, rfl⟩ := Option.map_eq_some_iff.mp h
    rw [(HBState.hbAddExplicitArc_adds hcall).2]
  | addTimedArc earlier later duration =>
    obtain ⟨s', hcall, rfl⟩ := Option.map_eq_some_iff.mp h
    rw [(HBState.hbAddTimedArc_adds hcall).2]
  | enterEventAction id type =>
    obtain ⟨s', hcall, rfl⟩ := Option.map_eq_some_iff.mp h
    rw [(HBState.hbEnterEventAction_adds hcall).2]
  | exitEventAction commit =>
    obtain ⟨s', hcall, rfl⟩ := Option.map_eq_some_iff.mp h
    rw [(HBState.hbExitEventAction_adds hcall).2]
  | threadEndAction join =>
    obtain ⟨m, -, rfl⟩ := Option.map_eq_some_iff.mp h
    rfl
  | joinAction join =>
    obtain ⟨⟨m, s'⟩, hcall, rfl⟩ := Option.map_eq_some_iff.mp h
    unfold MultiJoinHappensBefore.joinAction at hcall
    dsimp only at hcall
    split at hcall
    · obtain ⟨-, rfl⟩ := Prod.mk.inj (Option.some.inj hcall)
      rfl
    · simp only [Option.bind_eq_bind, Option.bind_eq_some_iff, Option.pure_def, Option.some.injEq,
        Prod.mk.injEq] at hcall
      obtain ⟨_, -, joinSlice, -, s₁, hjoin, -, rfl⟩ := hcall
      rw [(HBState.joinThreads_adds hjoin).2]
  | strictMode strict =>
    obtain rfl := Option.some.inj h
    rfl
  | logCommand command stringId =>
    obtain ⟨s', hcall, rfl⟩ := Option.map_eq_some_iff.mp h
    obtain rfl := HBState.actionLogCommand_eq hcall
    rfl
  | triggerEvent eventId =>
    obtain rfl := Option.some.inj h
    rfl
  | eventTriggered eventId =>
    obtain rfl := Option.some.inj h
    rfl

/-- Every call of a happens-before function keeps the arcs in order. -/
theorem HBCall.moves {s s' : HBState} (h : HBCall s s') : Moves s s' := by
  obtain ⟨l, joins, joins', h⟩ := h
  -- an id is allocated, or the mode is set, or arcs may be added
  by_cases hallocate : l = .allocate
  · subst hallocate
    obtain ⟨rfl, -⟩ := Prod.mk.inj (Option.some.inj h)
    exact moves_allocate s
  · by_cases hmode : ∃ strict, l = .strictMode strict
    · obtain ⟨strict, rfl⟩ := hmode
      obtain ⟨rfl, -⟩ := Prod.mk.inj (Option.some.inj h)
      exact moves_strictMode strict s
    · exact .of_adds (ArcRun.perform_adds h fun strict hl => hmode ⟨strict, hl⟩)
        (next_perform h hallocate)

/-! ## What handlers do -/

/-- What a handler, or anything else between two event actions, can do. Event actions that
    are entered at once, and dispatches inside of a handler, are those of a record run. -/
inductive Effect (recording : Bool) : Program O X → Program O X → Prop where
  | refl (w : Program O X) : Effect recording w w
  | trans {w w' w'' : Program O X} (h : Effect recording w w') (h' : Effect recording w' w'') :
      Effect recording w w''
  | happensBefore {r : EventActionRegister O} {s s' : HBState} {x : X} (h : HBCall s s') :
      Effect recording (r, s, x) (r, s', x)
  | outside (r : EventActionRegister O) (s : HBState) (x x' : X) :
      Effect recording (r, s, x) (r, s, x')
  | registerHandler (w : Program O X) (d : EventActionDescriptor) (target : O) :
      Effect recording w (w.1.registerEventActionHandler d target, w.2)
  | deregisterHandler (w : Program O X) (d : EventActionDescriptor) :
      Effect recording w (w.1.deregisterEventActionHandler d, w.2)
  | registerProvider (w : Program O X) (type : StdString) (target : O) :
      Effect recording w (w.1.registerEventActionProvider type target, w.2)
  | enterImmediate {address : O → Int}
      {call : O → EventActionDescriptor → Program O X → Option (Bool × Program O X)}
      {type : ActionLogType} {d : EventActionDescriptor} {w w' : Program O X}
      (hrecording : recording = true)
      (h : enterImmediateEventAction (hbPlatform address call) type d w = some w') :
      Effect recording w w'
  | exitImmediate {address : O → Int}
      {call : O → EventActionDescriptor → Program O X → Option (Bool × Program O X)}
      {w w' : Program O X} (hrecording : recording = true)
      (h : exitImmediateEventAction (hbPlatform address call) w = some w') : Effect recording w w'
  | dispatch {address : O → Int}
      {call : O → EventActionDescriptor → Program O X → Option (Bool × Program O X)}
      {d : EventActionDescriptor} {found : Bool} {w w' : Program O X}
      (hrecording : recording = true)
      (acts : ∀ o d w found w', call o d w = some (found, w') → Effect recording w w')
      (h : EventActionRegister.runEventAction (hbPlatform address call) (-1) (-1) d w =
        some (found, w')) : Effect recording w w'

/-- Handlers and providers that do nothing else. -/
def Acts (recording : Bool)
    (call : O → EventActionDescriptor → Program O X → Option (Bool × Program O X)) : Prop :=
  ∀ o d w found w', call o d w = some (found, w') → Effect recording w w'

/-- The ids of the dispatched event actions. -/
def ids (r : EventActionRegister O) : List EventActionId := r.dispatchHistory.map Prod.fst

/-! ## Record runs -/

/-- What holds of a record run at any time. -/
structure Ok (w : Program O X) : Prop where
  increasing : (ids w.1).Pairwise (· < ·)
  allocated : ∀ id ∈ ids w.1, id < w.2.1.hb.nextEventActionId
  arcs : w.2.1.ArcsOk

/-- What holds of a run does not depend on the rest of the component. -/
theorem Ok.moves {r : EventActionRegister O} {s s' : HBState} {x x' : X} (ok : Ok (r, s, x))
    (h : Moves s s') : Ok (r, s', x') :=
  ⟨ok.increasing, fun id hid => Int.lt_of_lt_of_le (ok.allocated id hid) h.next, h.arcs ok.arcs⟩

/-- The register may change as long as the history loses nothing but its end. -/
theorem Ok.register {r r' : EventActionRegister O} {e : HBState × X} (ok : Ok (r, e))
    (h : r'.dispatchHistory <+: r.dispatchHistory) : Ok (r', e) := by
  have hids : ids r' <+: ids r := h.map Prod.fst
  exact ⟨ok.increasing.sublist hids.sublist, fun id hid => ok.allocated id (hids.subset hid),
    ok.arcs⟩

/-- The end of a dispatch takes back at most the last entry of the history. -/
theorem dispatchEnd_history (r : EventActionRegister O) (commit : Bool)
    (originalId : EventActionId) :
    (r.eventActionDispatchEnd commit originalId).dispatchHistory <+: r.dispatchHistory := by
  unfold eventActionDispatchEnd
  split
  · exact List.prefix_rfl
  · exact List.dropLast_prefix _

/-- An event action is dispatched under a new id. -/
theorem Ok.enterFresh {r : EventActionRegister O} {s s' : HBState} {x : X} (ok : Ok (r, s, x))
    {type : ActionLogType} {originalId : EventActionId} {d : EventActionDescriptor}
    (h : s.allocateEventActionId.2.hbEnterEventAction s.allocateEventActionId.1 type = some s') :
    Ok (r.eventActionDispatchStart s.allocateEventActionId.1 originalId d, s', x) := by
  -- the new id is the one that was next, so it is above all that were there
  have hmoves := (moves_allocate s).trans (moves_enter h)
  have hnext : s.allocateEventActionId.1 < s'.hb.nextEventActionId :=
    Int.lt_of_lt_of_le (Int.lt_succ _) (moves_enter h).next
  have hids : ids (r.eventActionDispatchStart s.allocateEventActionId.1 originalId d) =
      ids r ++ [s.allocateEventActionId.1] := by
    simp [ids, eventActionDispatchStart]
  refine ⟨?_, ?_, hmoves.arcs ok.arcs⟩
  · rw [hids, List.pairwise_append]
    refine ⟨ok.increasing, List.pairwise_singleton _ _, fun id hid id' hid' => ?_⟩
    obtain rfl := List.mem_singleton.mp hid'
    exact ok.allocated id hid
  · intro id hid
    rw [hids] at hid
    -- an id that was there, or the new one
    rcases List.mem_append.mp hid with hid | hid
    · exact Int.lt_of_lt_of_le (ok.allocated id hid) hmoves.next
    · obtain rfl := List.mem_singleton.mp hid
      exact hnext

variable {address : O → Int}
  {call : O → EventActionDescriptor → Program O X → Option (Bool × Program O X)}

/-- Handlers and providers that keep what holds of a record run. -/
def Keeps (call : O → EventActionDescriptor → Program O X → Option (Bool × Program O X)) : Prop :=
  ∀ o d w found w', call o d w = some (found, w') → Ok w → Ok w'

/-- Everything up to the call of the handler. -/
theorem Ok.enterDispatch {w w' : Program O X} (ok : Ok w) {originalId : EventActionId}
    {d : EventActionDescriptor} {triggered : O}
    (h : enterDispatch (hbPlatform address call) w.2.1.allocateEventActionId.1 originalId d
      triggered w.1 (w.2.1.allocateEventActionId.2, w.2.2) = some w') : Ok w' := by
  obtain ⟨_, hplatform, rfl⟩ := Option.map_eq_some_iff.mp h
  obtain ⟨s₁, henter, rfl⟩ := Option.map_eq_some_iff.mp hplatform
  have hentered : Ok (w.1.eventActionDispatchStart w.2.1.allocateEventActionId.1 originalId d, s₁,
      w.2.2) := ok.enterFresh henter
  exact hentered.moves (moves_eventTriggered (address triggered) s₁)

/-- Everything after it. -/
theorem Ok.exitDispatch {r : EventActionRegister O} {s : HBState} {x : X} {e : HBState × X}
    {commit : Bool} (ok : Ok (r, s, x)) (originalId : EventActionId)
    (h : (hbPlatform address call).hbExitEventAction commit (s, x) = some e) :
    Ok (r.eventActionDispatchEnd commit originalId, e) := by
  obtain ⟨s', hexit, rfl⟩ := Option.map_eq_some_iff.mp h
  have hleft : Ok (r, s', x) := ok.moves (moves_exit hexit)
  exact hleft.register (dispatchEnd_history _ _ _)

/-- A provider that is asked. -/
theorem Ok.runProvider {w w' : Program O X} (ok : Ok w) (keeps : Keeps call)
    {originalId : EventActionId} {d : EventActionDescriptor}
    {first provider : O} {found : Bool}
    (h : runProvider (hbPlatform address call) (-1) originalId d first provider w =
      some (found, w')) : Ok w' := by
  simp only [EventActionRegister.runProvider, eventActionId, if_true, Option.bind_eq_bind,
    Option.bind_eq_some_iff, Option.pure_def, Option.some.injEq, Prod.mk.injEq] at h
  obtain ⟨w₁, henter, ⟨done, w₂⟩, hcall, e, hexit, rfl, rfl⟩ := h
  -- the provider runs between the start and the end of the dispatch
  have hran : Ok w₂ := keeps _ _ _ _ _ hcall (ok.enterDispatch henter)
  exact hran.exitDispatch originalId hexit

/-- The loop over the providers. -/
theorem Ok.runProviders {w w' : Program O X} (ok : Ok w) (keeps : Keeps call)
    {originalId : EventActionId} {d : EventActionDescriptor}
    {providers : List (O × O)} {found : Bool}
    (h : runProviders (hbPlatform address call) (-1) originalId d providers w =
      some (found, w')) : Ok w' := by
  induction providers generalizing w with
  | nil =>
    obtain ⟨-, rfl⟩ := Prod.mk.inj (Option.some.inj h)
    exact ok
  | cons e rest ih =>
    simp only [EventActionRegister.runProviders, Option.bind_eq_bind, Option.bind_eq_some_iff] at h
    obtain ⟨⟨handled, w₁⟩, hfirst, h⟩ := h
    have ok₁ := ok.runProvider keeps hfirst
    split at h
    · obtain ⟨-, rfl⟩ := Prod.mk.inj (Option.some.inj h)
      exact ok₁
    · exact ih ok₁ h

/-- Taking a handler out of its queue adds no entry. -/
theorem popHandler_history {r r' : EventActionRegister O} {key : StdString}
    (h : r.popHandler key = some r') : r'.dispatchHistory = r.dispatchHistory := by
  obtain ⟨-, heq⟩ := popHandler_frame h
  rw [heq]

/-- A handler that was registered. -/
theorem Ok.runHandler {w w' : Program O X} (ok : Ok w) (keeps : Keeps call)
    {originalId : EventActionId} {d : EventActionDescriptor}
    {found : Bool}
    (h : runHandler (hbPlatform address call) (-1) originalId d w = some (found, w')) : Ok w' := by
  unfold EventActionRegister.runHandler at h
  split at h
  · obtain ⟨-, rfl⟩ := Prod.mk.inj (Option.some.inj h)
    exact ok
  · simp at h
  · simp only [eventActionId, if_true, Option.bind_eq_bind, Option.bind_eq_some_iff,
      Option.pure_def, Option.some.injEq, Prod.mk.injEq] at h
    obtain ⟨w₁, henter, ⟨done, w₂⟩, hcall, r, hpop, e, hexit, -, rfl⟩ := h
    have hran : Ok w₂ := keeps _ _ _ _ _ hcall (ok.enterDispatch henter)
    -- popping the handler is no concern of the history
    have hhistory : r.dispatchHistory = w₂.1.dispatchHistory := popHandler_history hpop
    have hpopped : Ok (r, w₂.2) := hran.register (hhistory ▸ List.prefix_rfl)
    exact hpopped.exitDispatch originalId hexit

/-- An event action of a record run keeps the history in order. -/
theorem Ok.runEventAction {w w' : Program O X} (ok : Ok w) (keeps : Keeps call)
    {originalId : EventActionId} {d : EventActionDescriptor}
    {found : Bool}
    (h : runEventAction (hbPlatform address call) (-1) originalId d w = some (found, w')) :
    Ok w' := by
  simp only [EventActionRegister.runEventAction, Option.bind_eq_bind, Option.bind_eq_some_iff] at h
  obtain ⟨⟨handled, w₁⟩, hproviders, h⟩ := h
  have ok₁ := ok.runProviders keeps hproviders
  split at h
  · obtain ⟨-, rfl⟩ := Prod.mk.inj (Option.some.inj h)
    exact ok₁
  · exact ok₁.runHandler keeps h

/-- The start of an immediate event action. -/
theorem Ok.enterImmediate {w w' : Program O X} (ok : Ok w) {type : ActionLogType}
    {d : EventActionDescriptor}
    (h : enterImmediateEventAction (hbPlatform address call) type d w = some w') : Ok w' := by
  simp only [enterImmediateEventAction, hbPlatform, Option.bind_eq_bind, Option.bind_eq_some_iff,
    Option.map_eq_some_iff, Option.pure_def, Option.some.injEq] at h
  obtain ⟨_, ⟨s', henter, rfl⟩, rfl⟩ := h
  exact ok.enterFresh henter

/-- Its end. -/
theorem Ok.exitImmediate {w w' : Program O X} (ok : Ok w)
    (h : exitImmediateEventAction (hbPlatform address call) w = some w') : Ok w' := by
  simp only [exitImmediateEventAction, hbPlatform, Option.bind_eq_bind, Option.bind_eq_some_iff,
    Option.map_eq_some_iff, Option.pure_def, Option.some.injEq] at h
  obtain ⟨_, ⟨s', hexit, rfl⟩, rfl⟩ := h
  have hmoved : Ok (w.1, s', w.2.2) := ok.moves (moves_exit hexit)
  exact hmoved.register (dispatchEnd_history _ _ _)

/-- Whatever a handler does keeps the history and the arcs in order. A dispatch inside of it
    is one more of its steps. -/
theorem Ok.effect {recording : Bool} {w w' : Program O X} (ok : Ok w)
    (h : Effect recording w w') : Ok w' := by
  induction h with
  | refl => exact ok
  | trans _ _ ih ih' => exact ih' (ih ok)
  | happensBefore h => exact ok.moves h.moves
  | outside r s x x' => exact ok.moves (.refl s)
  | registerHandler => exact ok.register List.prefix_rfl
  | deregisterHandler => exact ok.register List.prefix_rfl
  | registerProvider => exact ok.register List.prefix_rfl
  | enterImmediate _ h => exact ok.enterImmediate h
  | exitImmediate _ h => exact ok.exitImmediate h
  | dispatch _ _ h ih =>
    exact ok.runEventAction (fun o d w found w' hcall ok => ih o d w found w' hcall ok) h

/-- What happens in a record run. -/
inductive RecordLabel where
  | effect
  | run

/-- The steps of a record run: `runEventAction(descriptor)`, and anything that a handler can
    do, immediate event actions among it. -/
inductive RecordStep (address : O → Int) : Program O X → RecordLabel → Program O X → Prop where
  | effect {w w' : Program O X} (h : Effect true w w') : RecordStep address w .effect w'
  | run {w w' : Program O X} {d : EventActionDescriptor} {found : Bool}
      {call : O → EventActionDescriptor → Program O X → Option (Bool × Program O X)}
      (acts : Acts true call)
      (h : EventActionRegister.runEventAction (hbPlatform address call) (-1) (-1) d w =
        some (found, w')) : RecordStep address w .run w'

/-- The record runs. -/
def recordRuns (address : O → Int) : Lts (Program O X) RecordLabel where
  init w := w.1 = .empty ∧ w.2.1 = .init
  step := RecordStep address

/-- At the start of a record run. -/
theorem ok_init {w : Program O X} (hregister : w.1 = .empty) (hcomponent : w.2.1 = .init) :
    Ok w := by
  obtain ⟨r, s, x⟩ := w
  obtain rfl : r = .empty := hregister
  obtain rfl : s = .init := hcomponent
  refine ⟨List.Pairwise.nil, fun id hid => absurd hid List.not_mem_nil, List.nodup_nil, ?_, ?_⟩
  · intro arc harc
    exact absurd harc List.not_mem_nil
  · intro p _
    simp [HBState.init, EventActionsHB.init, ActionLog.init]

/-- At any time of a record run. -/
theorem ok_of_recordRuns {w : Program O X} (r : (recordRuns address).Reachable w) : Ok w := by
  refine Lts.Reachable.invariant (P := Ok) ?_ ?_ r
  · intro w hw
    exact ok_init hw.1 hw.2
  · intro w l w' _ ok h
    cases h with
    | effect h => exact ok.effect h
    | run acts h =>
      have keeps : Keeps _ := fun o d w found w' hcall ok => ok.effect (acts o d w found w' hcall)
      exact ok.runEventAction keeps h

/-! ## Replay runs -/

/-- Without immediate event actions a handler leaves the history alone. -/
theorem effect_keeps {w w' : Program O X} (h : Effect false w w') :
    w'.1.dispatchHistory = w.1.dispatchHistory ∧ Moves w.2.1 w'.2.1 := by
  induction h with
  | refl => exact ⟨rfl, .refl _⟩
  | trans _ _ ih ih' => exact ⟨ih'.1.trans ih.1, ih.2.trans ih'.2⟩
  | happensBefore h => exact ⟨rfl, h.moves⟩
  | outside r s => exact ⟨rfl, .refl s⟩
  | registerHandler => exact ⟨rfl, .refl _⟩
  | deregisterHandler => exact ⟨rfl, .refl _⟩
  | registerProvider => exact ⟨rfl, .refl _⟩
  | enterImmediate hrecording => exact absurd hrecording (by decide)
  | exitImmediate hrecording => exact absurd hrecording (by decide)
  | dispatch hrecording => exact absurd hrecording (by decide)

/-- What an event action does that is run under a preallocated id. -/
structure Ran (newId : EventActionId) (found : Bool) (w w' : Program O X) : Prop where
  ids : ids w'.1 = ids w.1 ++ if found then [newId] else []
  moves : Moves w.2.1 w'.2.1

/-- A provider that declined leaves nothing behind. -/
theorem Ran.of_missed {newId : EventActionId} {found : Bool} {w w₁ w' : Program O X}
    (h : Ran newId false w w₁) (h' : Ran newId found w₁ w') : Ran newId found w w' :=
  ⟨by rw [h'.ids, h.ids]; simp, h.moves.trans h'.moves⟩

/-- The handler runs between the start and the end of the dispatch. -/
theorem ran_dispatch {w w₁ w₂ : Program O X} {r : EventActionRegister O} {e : HBState × X}
    {newId originalId : EventActionId} {d : EventActionDescriptor} {triggered : O} {found : Bool}
    (hstart : enterDispatch (hbPlatform address call) newId originalId d triggered w.1 w.2 =
      some w₁)
    (hcall : Effect false w₁ w₂)
    (hr : r.dispatchHistory = w₂.1.dispatchHistory)
    (hend : (hbPlatform address call).hbExitEventAction found w₂.2 = some e) :
    Ran newId found w (r.eventActionDispatchEnd found originalId, e) := by
  obtain ⟨_, hplatform, rfl⟩ := Option.map_eq_some_iff.mp hstart
  obtain ⟨s₁, henter, rfl⟩ := Option.map_eq_some_iff.mp hplatform
  obtain ⟨s₃, hexit, rfl⟩ := Option.map_eq_some_iff.mp hend
  obtain ⟨hhistory, hmoves⟩ := effect_keeps hcall
  -- at the end of the dispatch its entry is still the last one, and a declined one is removed
  have hkept : r.dispatchHistory = w.1.dispatchHistory ++ [(newId, d)] := hr.trans hhistory
  refine ⟨?_, ?_⟩
  · cases found with
    | true => simp [ids, eventActionDispatchEnd, hkept]
    | false => simp [ids, eventActionDispatchEnd, hkept]
  · exact (((moves_enter henter).trans (moves_eventTriggered (address triggered) s₁)).trans
      hmoves).trans (moves_exit hexit)

/-- The loop over the providers dispatches under the new id, if at all. -/
theorem ran_runProviders {w w' : Program O X} (acts : Acts false call)
    {newId originalId : EventActionId} (hnew : newId ≠ -1) {d : EventActionDescriptor}
    {providers : List (O × O)} {found : Bool}
    (h : runProviders (hbPlatform address call) newId originalId d providers w =
      some (found, w')) : Ran newId found w w' := by
  induction providers generalizing w with
  | nil =>
    obtain ⟨rfl, rfl⟩ := Prod.mk.inj (Option.some.inj h)
    exact ⟨by simp, .refl _⟩
  | cons e rest ih =>
    simp only [runProviders, runProvider, eventActionId, if_neg hnew, Option.bind_eq_bind,
      Option.bind_eq_some_iff, Option.pure_def, Option.some.injEq] at h
    obtain ⟨_, ⟨w₁, henter, ⟨done, w₂⟩, hcall, env, hexit, rfl⟩, h⟩ := h
    have hran := ran_dispatch henter (acts _ _ _ _ _ hcall) rfl hexit
    -- a provider that declines leaves the history as it was, and the next one is offered
    cases done with
    | true =>
      obtain ⟨rfl, rfl⟩ := Prod.mk.inj (Option.some.inj h)
      exact hran
    | false => exact hran.of_missed (ih h)

/-- The same for a handler that was registered. -/
theorem ran_runHandler {w w' : Program O X} (acts : Acts false call)
    {newId originalId : EventActionId} (hnew : newId ≠ -1) {d : EventActionDescriptor}
    {found : Bool}
    (h : runHandler (hbPlatform address call) newId originalId d w = some (found, w')) :
    Ran newId found w w' := by
  unfold runHandler at h
  split at h
  · obtain ⟨rfl, rfl⟩ := Prod.mk.inj (Option.some.inj h)
    exact ⟨by simp, .refl _⟩
  · simp at h
  · simp only [eventActionId, if_neg hnew, Option.bind_eq_bind, Option.bind_eq_some_iff,
      Option.pure_def, Option.some.injEq, Prod.mk.injEq] at h
    obtain ⟨w₁, henter, ⟨done, w₂⟩, hcall, r, hpop, e, hexit, rfl, rfl⟩ := h
    exact ran_dispatch henter (acts _ _ _ _ _ hcall) (popHandler_history hpop) hexit

/-- An event action that is run under a preallocated id is appended to the history, and one
    that is not run leaves it as it was. -/
theorem ran_runEventAction {w w' : Program O X} (acts : Acts false call)
    {newId originalId : EventActionId} (hnew : newId ≠ -1) {d : EventActionDescriptor}
    {found : Bool}
    (h : runEventAction (hbPlatform address call) newId originalId d w = some (found, w')) :
    Ran newId found w w' := by
  simp only [runEventAction, Option.bind_eq_bind, Option.bind_eq_some_iff] at h
  obtain ⟨⟨handled, w₁⟩, hproviders, h⟩ := h
  have hran := ran_runProviders acts hnew hproviders
  cases handled with
  | true =>
    obtain ⟨rfl, rfl⟩ := Prod.mk.inj (Option.some.inj h)
    exact hran
  | false => exact hran.of_missed (ran_runHandler acts hnew h)

/-- What holds of a replay at any time: the id of the next event action is above all that
    have been dispatched. -/
structure ReplayOk (w : Program O X) (next : EventActionId) : Prop where
  ok : Ok w
  positive : 0 < next
  above : ∀ id ∈ ids w.1, id < next
  allocated : next < w.2.1.hb.nextEventActionId

/-- The history stays, and the happens-before component moves. -/
theorem ReplayOk.keep {w w' : Program O X} {next : EventActionId} (ok : ReplayOk w next)
    (hids : ids w'.1 = ids w.1) (hmoves : Moves w.2.1 w'.2.1) : ReplayOk w' next where
  ok := ⟨hids ▸ ok.ok.increasing,
    fun id hid => Int.lt_of_lt_of_le (ok.ok.allocated id (hids ▸ hid)) hmoves.next,
    hmoves.arcs ok.ok.arcs⟩
  positive := ok.positive
  above id hid := ok.above id (hids ▸ hid)
  allocated := Int.lt_of_lt_of_le ok.allocated hmoves.next

/-- Whatever a scheduler does to its world keeps the replay in order. -/
theorem ReplayOk.worldStep {p : ProgramEnv O X} (acts : ∀ providers, Acts false (p.call providers))
    {c c' : Program O X × EventActionId} (ok : ReplayOk c.1 c.2)
    (h : ReplayScheduler.WorldStep p.replayEnv c c') : ReplayOk c'.1 c'.2 := by
  have hnew : c.2 ≠ -1 := by
    have := ok.positive
    intro hid
    rw [hid] at this
    exact absurd this (by decide)
  cases h with
  | quiet h =>
    cases h with
    | strictMode mode => exact ok.keep rfl (moves_strictMode mode _)
    | setCurrentEventAction => exact ok.keep rfl (.refl _)
    | report => exact ok.keep rfl (.refl _)
  | miss h =>
    have hran := ran_runEventAction (acts _) hnew h
    exact ok.keep (by rw [hran.ids]; simp) hran.moves
  | @hit w w' id originalId providers d h =>
    -- the id is appended, and the next one is allocated above it
    have hran : Ran id true w w' := ran_runEventAction (acts _) hnew h
    have hids : ids w'.1 = ids w.1 ++ [id] := hran.ids
    have hnext : id < w'.2.1.hb.nextEventActionId :=
      Int.lt_of_lt_of_le ok.allocated hran.moves.next
    have hbelow : ∀ i ∈ ids w'.1, i < w'.2.1.hb.nextEventActionId := by
      intro i hi
      rw [hids] at hi
      rcases List.mem_append.mp hi with hi | hi
      · exact Int.lt_trans (ok.above i hi) hnext
      · obtain rfl := List.mem_singleton.mp hi
        exact hnext
    have hok : Ok w' := by
      refine ⟨?_, hbelow, hran.moves.arcs ok.ok.arcs⟩
      rw [hids, List.pairwise_append]
      refine ⟨ok.ok.increasing, List.pairwise_singleton _ _, fun i hi i' hi' => ?_⟩
      obtain rfl := List.mem_singleton.mp hi'
      exact ok.above i hi
    refine ⟨hok.moves (moves_allocate w'.2.1), w'.2.1.hb.nextPositive, hbelow, ?_⟩
    exact Int.lt_succ w'.2.1.hb.nextEventActionId

/-- So does any number of such steps. -/
theorem ReplayOk.worldSteps {p : ProgramEnv O X} (acts : ∀ providers, Acts false (p.call providers))
    {c c' : Program O X × EventActionId} (ok : ReplayOk c.1 c.2)
    (h : Relation.ReflTransGen (ReplayScheduler.WorldStep p.replayEnv) c c') :
    ReplayOk c'.1 c'.2 := by
  induction h with
  | refl => exact ok
  | tail _ h ih => exact ih.worldStep acts h

/-- The steps of a replay in the program: those of the scheduler, and anything that a handler
    can do but immediate event actions. -/
inductive ReplayRunStep (p : ProgramEnv O X) : ReplayScheduler (Program O X) →
    ReplayScheduler.ReplayLabel → ReplayScheduler (Program O X) → Prop where
  | effect {s : ReplayScheduler (Program O X)} {w : Program O X} (h : Effect false s.world w) :
      ReplayRunStep p s .environment { s with world := w }
  | scheduler {s s' : ReplayScheduler (Program O X)} {l : ReplayScheduler.ReplayLabel}
      (hl : l ≠ .environment) (h : ReplayScheduler.ReplayStep p.replayEnv s l s') :
      ReplayRunStep p s l s'

/-- The replay runs of a schedule. -/
def replayRuns (p : ProgramEnv O X) (items : List EventActionScheduleItem) :
    Lts (ReplayScheduler (Program O X)) ReplayScheduler.ReplayLabel where
  init s := ∃ schedulerTimeout r e w, r = .empty ∧ e.1 = .init ∧
    Effect false (r, e) w ∧
    s = ReplayScheduler.init p.replayEnv items schedulerTimeout w
  step := ReplayRunStep p

/-- These runs are replays of the schedule file. -/
theorem replay_of_replayRuns {p : ProgramEnv O X} {items : List EventActionScheduleItem}
    {s : ReplayScheduler (Program O X)} (r : (replayRuns p items).Reachable s) :
    (ReplayScheduler.replay p.replayEnv items).Reachable s := by
  induction r with
  | init h =>
    obtain ⟨schedulerTimeout, r, e, w, -, -, -, rfl⟩ := h
    exact .init ⟨schedulerTimeout, w, rfl⟩
  | step _ h ih =>
    cases h with
    | effect => exact ih.step (.environment _ _)
    | scheduler _ h => exact ih.step h

/-- At any time of a replay run. -/
theorem replayOk_of_replayRuns {p : ProgramEnv O X} {items : List EventActionScheduleItem}
    (acts : ∀ providers, Acts false (p.call providers)) {s : ReplayScheduler (Program O X)}
    (r : (replayRuns p items).Reachable s) : ReplayOk s.world s.nextEventActionId := by
  refine Lts.Reachable.invariant (P := fun s => ReplayOk s.world s.nextEventActionId) ?_ ?_ r
  · rintro s ⟨schedulerTimeout, r, e, w, hregister, hcomponent, heffects, rfl⟩
    have ok : Ok w := (ok_init hregister hcomponent).effect heffects
    have hhistory : w.1.dispatchHistory = [] := by
      rw [(effect_keeps heffects).1, hregister]
      rfl
    refine ⟨ok.moves (moves_allocate w.2.1), w.2.1.hb.nextPositive, fun id hid => ?_, ?_⟩
    · exact ok.allocated id hid
    · exact Int.lt_succ w.2.1.hb.nextEventActionId
  · intro s l s' hs ok h
    cases h with
    | effect h =>
      obtain ⟨hhistory, hmoves⟩ := effect_keeps h
      exact ok.keep (congrArg (List.map Prod.fst) hhistory) hmoves
    | scheduler hl h =>
      -- no marker gets into the backlog, so a step is made of attempts
      have conserved := ReplayScheduler.conserved_of_reachable (replay_of_replayRuns hs)
      have hsteps : Relation.ReflTransGen (ReplayScheduler.WorldStep p.replayEnv) s.worldNext
          s'.worldNext := ReplayScheduler.worldSteps_of_replayStep conserved.backlogEvents hl h
      exact ReplayOk.worldSteps acts ok hsteps

/-! ## The schedule file -/

/-- The line of the schedule file on which an item of the history starts. -/
def lineOf (history : List EventActionScheduleItem) (i : Nat) : Nat :=
  (EventActionSchedule.serialize (history.take i)).count '\n' + 1

/-- Every item ends its line. -/
theorem lineOf_lt {history : List EventActionScheduleItem} {i j : Nat} (hij : i < j)
    (hj : j ≤ history.length) : lineOf history i < lineOf history j := by
  -- what is written between the two items holds a newline
  have hsplit : history.take j = history.take i ++ (history.take j).drop i := by
    have := List.take_append_drop i (history.take j)
    rw [List.take_take, Nat.min_eq_left (Nat.le_of_lt hij)] at this
    exact this.symm
  have hne : (history.take j).drop i ≠ [] := by
    intro hnil
    have := List.drop_eq_nil_iff.mp hnil
    rw [List.length_take] at this
    omega
  obtain ⟨item, rest, hrest⟩ := List.exists_cons_of_ne_nil hne
  have hcount : 0 < (EventActionSchedule.serialize ((history.take j).drop i)).count '\n' := by
    rw [hrest, List.count_pos_iff]
    simp [EventActionSchedule.serialize]
  have hserialize : EventActionSchedule.serialize (history.take j) =
      EventActionSchedule.serialize (history.take i) ++
        EventActionSchedule.serialize ((history.take j).drop i) := by
    rw [EventActionSchedule.serialize, hsplit, List.flatMap_append, ← hsplit]
    rfl
  unfold lineOf
  rw [hserialize, List.count_append]
  omega

/-- The arcs between event actions of the history go downwards in its file. -/
structure Agrees (w : Program O X) : Prop where
  increasing : (ids w.1).Pairwise (· < ·)
  arcs : ∀ arc ∈ w.2.1.actionLog.arcs, ∀ i j, (ids w.1)[i]? = some arc.tail →
    (ids w.1)[j]? = some arc.head →
    lineOf w.1.dispatchHistory i < lineOf w.1.dispatchHistory j

/-- What holds of a run gives the agreement of its arcs with its history. -/
theorem Ok.agrees {w : Program O X} (ok : Ok w) : Agrees w := by
  refine ⟨ok.increasing, fun arc harc i j hi hj => ?_⟩
  have hforward := ok.arcs.forward arc harc
  obtain ⟨hi', htail⟩ := List.getElem?_eq_some_iff.mp hi
  obtain ⟨hj', hhead⟩ := List.getElem?_eq_some_iff.mp hj
  -- ids increase along the history, so an arc upwards is an arc downwards in the file
  have hlt : i < j := by
    by_contra hle
    rcases Nat.lt_or_eq_of_le (Nat.not_lt.mp hle) with hji | rfl
    · have := List.pairwise_iff_getElem.mp ok.increasing j i hj' hi' hji
      rw [htail, hhead] at this
      exact absurd hforward (Int.not_lt.mpr (Int.le_of_lt this))
    · rw [htail] at hhead
      rw [hhead] at hforward
      exact absurd hforward (Int.lt_irrefl _)
  refine lineOf_lt hlt (Nat.le_of_lt ?_)
  simpa [ids] using hj'

/-- Happens-before arcs agree with the order of the schedule. In every record run, with
    immediate event actions anywhere, and in every replay run without them, the ids in the
    dispatch history increase, and every logged arc between two event actions of the history
    starts on an earlier line of the schedule file than that on which it ends. -/
theorem arcs_agree_with_dispatch_order (address : O → Int) (p : ProgramEnv O X)
    (acts : ∀ providers, Acts false (p.call providers)) (items : List EventActionScheduleItem) :
    (∀ w, (recordRuns (X := X) address).Reachable w → Agrees w) ∧
      ∀ s, (replayRuns p items).Reachable s → Agrees s.world :=
  ⟨fun _ r => (ok_of_recordRuns r).agrees, fun _ r => (replayOk_of_replayRuns acts r).ok.agrees⟩

/-- A program of two handlers, the second of which adds an arc from the first. -/
def chainedHandlers : ProgramEnv Nat Unit where
  address _ := 0
  call _ o _ w :=
    if o = 2 then (w.2.1.hbAddExplicitArc 1 2).map fun s => (true, w.1, s, w.2.2)
    else some (true, w)
  warningCollectorSetCurrentEventAction _ x := x
  warningCollectorReport _ _ _ x := x
  score _ _ := 0

/-- The handlers of the example do nothing else. -/
theorem acts_chainedHandlers (providers : Providers) :
    Acts false (chainedHandlers.call providers) := by
  intro o d w found w' h
  simp only [chainedHandlers] at h
  split at h
  · obtain ⟨s, harc, h⟩ := Option.map_eq_some_iff.mp h
    obtain ⟨-, rfl⟩ := Prod.mk.inj h
    refine .happensBefore ⟨.addExplicitArc 1 2, fun _ => .init, fun _ => .init, ?_⟩
    simp [ArcRun.perform, harc]
  · obtain ⟨-, rfl⟩ := Prod.mk.inj (Option.some.inj h)
    exact .refl _

/-- In a replay of two event actions the second is chained with the first. -/
theorem arcs_agree_with_dispatch_order_of_chain :
    let a := EventActionDescriptor.make .network "A".toList []
    let b := EventActionDescriptor.make .network "B".toList []
    ∃ s, (replayRuns chainedHandlers [(7, a), (8, b)]).Reachable s ∧
      ids s.world.1 = [1, 2] ∧
      s.world.2.1.actionLog.arcs.map (fun arc => (arc.tail, arc.head)) = [(1, 2)] ∧
      Agrees s.world := by
  intro a b
  let items : List EventActionScheduleItem := [(7, a), (8, b)]
  let env := chainedHandlers.replayEnv
  let w₀ : Program Nat Unit := (.empty, .init, ())
  let w₁ : Program Nat Unit := (w₀.1.registerEventActionHandler a 1, w₀.2)
  let w₂ : Program Nat Unit := (w₁.1.registerEventActionHandler b 2, w₁.2)
  let run (s : ReplayScheduler (Program Nat Unit)) (l : ReplayScheduler.ReplayLabel) :
      Option (ReplayScheduler (Program Nat Unit)) :=
    match l with
    | .execute => (s.executeDelayedEventAction env).map Prod.snd
    | _ => none
  have hrun : (([.execute, .execute].foldlM run (ReplayScheduler.init env items 100 w₂)).map
      fun s => (ids s.world.1,
        s.world.2.1.actionLog.arcs.map fun arc => (arc.tail, arc.head))) =
      some ([1, 2], [(1, 2)]) := by decide +kernel
  obtain ⟨s, hs, hobserved⟩ := Option.map_eq_some_iff.mp hrun
  obtain ⟨hids, harcs⟩ := Prod.mk.inj hobserved
  have hstep : ∀ s l s', run s l = some s' → (replayRuns chainedHandlers items).step s l s' := by
    intro s l s' h
    cases l with
    | execute =>
      obtain ⟨⟨more, _⟩, hcall, rfl⟩ := Option.map_eq_some_iff.mp h
      exact .scheduler (fun hl => by cases hl) (.execute hcall)
    | environment | eventTimeout | globalTimeout => simp [run] at h
  have heffect : Effect false w₀ w₂ :=
    (Effect.registerHandler w₀ a 1).trans (.registerHandler w₁ b 2)
  have r := Lts.Reachable.foldlM hstep (.init ⟨100, _, _, w₂, rfl, rfl, heffect, rfl⟩) hs
  refine ⟨s, r, hids, harcs, ?_⟩
  exact (arcs_agree_with_dispatch_order chainedHandlers.address chainedHandlers
    acts_chainedHandlers items).2 s r

end R4.DispatchOrder
