import R4.Native.Dispatch
import R4.Spec.ArcRun

/-!
# Event actions that every provider declines

A provider that is offered an event action runs between the start and the end of its
dispatch, and when it declines, the dispatch is undone. What is left behind is the entry of
the event action in the action log, the missing entry of the old id, and for an event
action of the user interface the last one of its chain, from which the next attempt
requests an arc to itself.

## Key results

- `attempt_spec`: what one declined attempt does to the happens-before component
- `runProviders_eq`: the loop over the providers as a fold over these attempts
- `rejected_attempt_leaves_no_trace_iff`: when the undo is exact
-/

namespace R4

open EventActionRegister

namespace ActionLog

/-- The type with which the event action `id` is in the log. -/
def typeOf (log : ActionLog) (id : Int) : Option ActionLogType :=
  log.eventActions[id]?.map EventAction.type

/-- No event action is started. -/
structure Idle (log : ActionLog) : Prop where
  currentEventActionId : log.currentEventActionId = -1
  cmdsInCurrentEvent : log.cmdsInCurrentEvent = []
  scopeDepth : log.scopeDepth = 0

/-- What an attempt does to the log: the event action is started, given its type, triggered
    by whatever is pending for the object, and ended. -/
def attempt (log : ActionLog) (id : Int) (type : ActionLogType) (eventId : Int) : ActionLog :=
  (((log.startEventAction id).setEventActionType type).2.eventTriggered eventId).endEventAction.2

/-- An attempt leaves no event action open. -/
theorem idle_attempt (log : ActionLog) (id : Int) (type : ActionLogType) (eventId : Int) :
    (log.attempt id type eventId).Idle := ⟨rfl, rfl, rfl⟩

/-- An event that nobody has triggered leaves the log as it is. -/
theorem eventTriggered_eq_self {log : ActionLog} {eventId : Int}
    (hpending : log.pendingTriggerArcs[eventId]? = none) : log.eventTriggered eventId = log := by
  unfold eventTriggered
  split
  · rfl
  · rw [hpending]

/-- Commands aside, triggering changes no event action. -/
theorem typeOf_eventTriggered (log : ActionLog) (eventId j : Int) :
    (log.eventTriggered eventId).typeOf j = log.typeOf j := by
  unfold eventTriggered
  split
  · rfl
  · split
    · rfl
    · rename_i arc _
      simp only [typeOf, modifyEventAction, Std.ExtTreeMap.getElem?_modify]
      split
      · rename_i hj
        obtain rfl := Std.LawfulEqCmp.compare_eq_iff_eq.mp hj
        rw [Option.map_map]
        rfl
      · rfl

/-- Inside of an event action the pending arcs of the event are gone, and those of others stay. -/
theorem pending_eventTriggered (log : ActionLog) (eventId k : Int)
    (hcurrent : log.currentEventActionId ≠ -1) :
    (log.eventTriggered eventId).pendingTriggerArcs[k]? =
      if eventId = k then none else log.pendingTriggerArcs[k]? := by
  unfold eventTriggered
  rw [if_neg hcurrent]
  cases hpending : log.pendingTriggerArcs[eventId]? with
  | none =>
    dsimp only
    split
    · rename_i hk
      rw [← hk, hpending]
    · rfl
  | some arc =>
    simp only [Std.ExtTreeMap.getElem?_erase, Std.LawfulEqCmp.compare_eq_iff_eq]

/-- The type is set of the event action that has just been started. -/
theorem setEventActionType_startEventAction (log : ActionLog) {id : Int} (hid : id ≠ -1)
    (type : ActionLogType) :
    ((log.startEventAction id).setEventActionType type) =
      (true, (log.startEventAction id).modifyEventAction id fun a => { a with type := type }) :=
  if_neg hid

/-- After an attempt the event action has the type of the attempt, and the others have theirs. -/
theorem typeOf_attempt (log : ActionLog) {id : Int} (hid : id ≠ -1) (type : ActionLogType)
    (eventId j : Int) :
    (log.attempt id type eventId).typeOf j = if id = j then some type else log.typeOf j := by
  have hend : (log.attempt id type eventId).typeOf j =
      (((log.startEventAction id).setEventActionType type).2.eventTriggered eventId).typeOf j := rfl
  rw [hend, typeOf_eventTriggered, setEventActionType_startEventAction log hid]
  simp only [typeOf, modifyEventAction, startEventAction, Std.ExtTreeMap.getElem?_modify,
    Std.ExtTreeMap.getElem?_insertIfNew, Std.LawfulEqCmp.compare_eq_iff_eq]
  -- the type has been set for this id
  by_cases hj : id = j
  · subst hj
    simp only [if_true, true_and]
    split
    · rfl
    · -- it was there, with another type
      rename_i hmem
      obtain ⟨a, ha⟩ := Option.isSome_iff_exists.mp
        (Std.ExtTreeMap.mem_iff_isSome_getElem?.mp (not_not.mp hmem))
      rw [ha]
      rfl
  · -- the other ids keep theirs
    simp [hj]

/-- After an attempt the pending arcs of its event are gone, and those of others stay. -/
theorem pending_attempt (log : ActionLog) {id : Int} (hid : id ≠ -1) (type : ActionLogType)
    (eventId k : Int) :
    (log.attempt id type eventId).pendingTriggerArcs[k]? =
      if eventId = k then none else log.pendingTriggerArcs[k]? := by
  have hend : (log.attempt id type eventId).pendingTriggerArcs =
      (((log.startEventAction id).setEventActionType type).2.eventTriggered
        eventId).pendingTriggerArcs :=
    rfl
  rw [hend, setEventActionType_startEventAction log hid, pending_eventTriggered _ _ _ hid]
  rfl

/-- An attempt leaves the log as it was if the event action has been entered with this type
    before, nothing is started and nothing is pending for the object. -/
theorem attempt_eq_self {log : ActionLog} {id : Int} (hid : id ≠ -1) {type : ActionLogType}
    {eventId : Int} (idle : log.Idle) (htype : log.typeOf id = some type)
    (hpending : log.pendingTriggerArcs[eventId]? = none) : log.attempt id type eventId = log := by
  obtain ⟨a, ha, hatype⟩ := Option.map_eq_some_iff.mp htype
  -- the event action is in the log already, with this type
  have hmem : id ∈ log.eventActions := by
    rw [Std.ExtTreeMap.mem_iff_isSome_getElem?, ha]
    rfl
  -- setting the type again changes nothing
  have hmap : (log.eventActions.insertIfNew id .empty).modify id
      (fun a => { a with type := type }) = log.eventActions := by
    refine Std.ExtTreeMap.ext_getElem? fun k => ?_
    simp only [Std.ExtTreeMap.getElem?_modify, Std.ExtTreeMap.getElem?_insertIfNew,
      Std.LawfulEqCmp.compare_eq_iff_eq]
    by_cases hk : id = k
    · subst hk
      rw [if_pos rfl, if_neg (by simp [hmem]), ha, Option.map_some, ← hatype]
    · simp [hk]
  -- its id is not above the maximum
  have hmax : (if id > log.maxEventActionId then id else log.maxEventActionId) =
      log.maxEventActionId := by
    have := log.maxBound.2 id hmem
    split <;> omega
  -- nobody has triggered the event
  have htriggered : ((log.startEventAction id).setEventActionType type).2.eventTriggered eventId =
      ((log.startEventAction id).setEventActionType type).2 := by
    rw [setEventActionType_startEventAction log hid]
    exact eventTriggered_eq_self hpending
  unfold attempt
  rw [htriggered, setEventActionType_startEventAction log hid]
  -- each part of the log is what it was
  ext1
  · exact hmap
  · exact idle.scopeDepth.symm
  · exact hmax
  · rfl
  · rfl
  · exact idle.currentEventActionId.symm
  · exact idle.cmdsInCurrentEvent.symm

/-- Triggering does not look at the arcs. -/
theorem eventTriggered_setArcs (log : ActionLog) (arcs : List Arc) (eventId : Int) :
    ({ log with arcs := arcs } : ActionLog).eventTriggered eventId =
      { log.eventTriggered eventId with arcs := arcs } := by
  unfold eventTriggered
  dsimp only
  split
  · rfl
  · split <;> rfl

/-- Two logs that differ in the arcs only end up like that. -/
theorem end_eventTriggered_of_arcs {log log' : ActionLog}
    (h : log' = { log with arcs := log'.arcs }) (eventId : Int) :
    (log'.eventTriggered eventId).endEventAction.2 =
      { (log.eventTriggered eventId).endEventAction.2 with
        arcs := (log'.eventTriggered eventId).endEventAction.2.arcs } := by
  have hset := eventTriggered_setArcs log log'.arcs eventId
  rw [← h] at hset
  rw [hset]
  rfl

end ActionLog

/-! ## One attempt -/

namespace HBState

/-- An arc that is requested is in the set afterwards, and nothing else has changed if it was
    there before. -/
theorem addExplicitArc_unique {s s' : HBState} {earlier later : EventActionId}
    (h : s.addExplicitArc earlier later = some s') :
    (earlier, later) ∈ s'.hb.hbarcsUnique ∧ s.hb.hbarcsUnique <+: s'.hb.hbarcsUnique ∧
      ((earlier, later) ∈ s.hb.hbarcsUnique → s' = s) ∧
      s'.actionLog = { s.actionLog with arcs := s'.actionLog.arcs } := by
  unfold addExplicitArc at h
  split at h
  · simp at h
  · unfold addUniqueArc at h
    split at h
    · rename_i hmem
      obtain rfl := Option.some.inj h
      -- the arc has been requested before
      exact ⟨hmem, List.prefix_rfl, fun _ => rfl, rfl⟩
    · rename_i hnew
      -- it is new: in order it is logged, out of order it crashes or is dropped
      unfold actionLogAddArc at h
      split at h
      · split at h
        · simp at h
        · obtain rfl := Option.some.inj h
          exact ⟨by simp, List.prefix_append _ _, fun hmem => absurd hmem hnew, rfl⟩
      · obtain rfl := Option.some.inj h
        exact ⟨by simp, List.prefix_append _ _, fun hmem => absurd hmem hnew, rfl⟩

/-- What an event action is entered with. -/
structure Entered (s s' : HBState) (id : EventActionId) (type : ActionLogType) : Prop where
  log : s'.actionLog =
    { ((s.actionLog.startEventAction id).setEventActionType type).2 with
      arcs := s'.actionLog.arcs }
  grows : s.hb.hbarcsUnique <+: s'.hb.hbarcsUnique
  chained : ∀ p ∈ s.uiRequests id type, p ∈ s'.hb.hbarcsUnique
  same : (∀ p ∈ s.uiRequests id type, p ∈ s.hb.hbarcsUnique) →
    s'.hb.hbarcsUnique = s.hb.hbarcsUnique ∧ s'.actionLog.arcs = s.actionLog.arcs

/-- What `HBEnterEventAction` does when it returns. -/
theorem hbEnterEventAction_entered {s s' : HBState} {id : EventActionId} {type : ActionLogType}
    (h : s.hbEnterEventAction id type = some s') : Entered s s' id type := by
  obtain ⟨-, hlast, rfl⟩ | ⟨hui, hlast, s₂, hchain, rfl⟩ | ⟨hui, rfl⟩ :=
    hbEnterEventAction_cases h
  -- the first of the chain requests no arc
  · refine ⟨rfl, List.prefix_rfl, ?_, fun _ => ⟨rfl, by simp [opened]⟩⟩
    simp [uiRequests, hlast]
  · obtain ⟨hmem, hgrows, hsame, hlog⟩ := addExplicitArc_unique hchain
    -- the others request one arc, from the last one
    have hrequests : s.uiRequests id type = [(s.hb.lastUIEventAction, id)] :=
      if_pos ⟨hui, hlast⟩
    refine ⟨hlog, hgrows, ?_, fun hall => ?_⟩
    · rw [hrequests]
      intro p hp
      obtain rfl := List.mem_singleton.mp hp
      exact hmem
    · rw [hrequests] at hall
      obtain rfl := hsame (hall _ (List.mem_singleton.mpr rfl))
      exact ⟨rfl, by simp [opened]⟩
  · refine ⟨rfl, List.prefix_rfl, ?_, fun _ => ⟨rfl, by simp [opened]⟩⟩
    simp [uiRequests, hui]

/-- The id of an attempt, and the state in which it is entered. -/
def nextId (newId : EventActionId) (s : HBState) : EventActionId × HBState :=
  if newId = -1 then s.allocateEventActionId else (newId, s)

/-- Ids of attempts are valid ids of the log. -/
theorem nextId_ne (newId : EventActionId) (s : HBState) : (s.nextId newId).1 ≠ -1 := by
  unfold nextId
  split
  · have := s.hb.nextPositive
    simp only [allocateEventActionId]
    intro h
    rw [h] at this
    exact absurd this (by decide)
  · assumption

/-- Only the id counter is advanced. -/
theorem nextId_eq (newId : EventActionId) (s : HBState) :
    (s.nextId newId).2 = { s with hb := { s.hb with
      nextEventActionId := (s.nextId newId).2.hb.nextEventActionId
      nextPositive := (s.nextId newId).2.hb.nextPositive } } := by
  unfold nextId
  split <;> rfl

/-- A provider is offered the event action and declines it. -/
def attempt (newId : EventActionId) (type : ActionLogType) (eventId : Int) (s : HBState) :
    Option HBState :=
  ((s.nextId newId).2.hbEnterEventAction (s.nextId newId).1 type).bind fun s =>
    (s.actionLogEventTriggered eventId).hbExitEventAction false

/-- What an attempt leaves behind. -/
structure Attempted (s s' : HBState) (newId : EventActionId) (type : ActionLogType)
    (eventId : Int) : Prop where
  current : s'.hb.currentEventActionId = 0
  last : s'.hb.lastEventAction = s.hb.lastEventAction
  lastUI : s'.hb.lastUIEventAction =
    if type = .userInterface then (s.nextId newId).1 else s.hb.lastUIEventAction
  next : s'.hb.nextEventActionId = (s.nextId newId).2.hb.nextEventActionId
  strictMode : s'.strictMode = s.strictMode
  log : s'.actionLog = { s.actionLog.attempt (s.nextId newId).1 type eventId with
    arcs := s'.actionLog.arcs }
  grows : s.hb.hbarcsUnique <+: s'.hb.hbarcsUnique
  chained : ∀ p ∈ s.uiRequests (s.nextId newId).1 type, p ∈ s'.hb.hbarcsUnique
  same : (∀ p ∈ s.uiRequests (s.nextId newId).1 type, p ∈ s.hb.hbarcsUnique) →
    s'.hb.hbarcsUnique = s.hb.hbarcsUnique ∧ s'.actionLog.arcs = s.actionLog.arcs

/-- What the start of a dispatch does to the log. -/
theorem attempt_spec {s s' : HBState} {newId : EventActionId} {type : ActionLogType}
    {eventId : Int} (h : s.attempt newId type eventId = some s') :
    Attempted s s' newId type eventId := by
  obtain ⟨s₁, henter, h⟩ := Option.bind_eq_some_iff.mp h
  obtain ⟨hadds, hhb⟩ := hbEnterEventAction_adds henter
  obtain ⟨hlog, hgrows, hchained, hsame⟩ := hbEnterEventAction_entered henter
  obtain ⟨s₂, hexit, rfl⟩ := Option.map_eq_some_iff.mp h
  obtain rfl := actionLogExitOperation_eq hexit
  -- the id counter is all that the allocation has changed
  rw [nextId_eq newId s] at hadds hhb hlog hgrows hchained hsame
  have hmode := hadds.strictMode
  have hlast : s₁.hb.lastEventAction = s.hb.lastEventAction := by rw [hhb]
  have hlastUI : s₁.hb.lastUIEventAction =
      if type = .userInterface then (s.nextId newId).1 else s.hb.lastUIEventAction := by rw [hhb]
  have hnext : s₁.hb.nextEventActionId = (s.nextId newId).2.hb.nextEventActionId := by rw [hhb]
  refine ⟨rfl, hlast, hlastUI, hnext, hmode, ?_, hgrows, hchained, fun hall => ?_⟩
  · exact ActionLog.end_eventTriggered_of_arcs hlog eventId
  · obtain ⟨hunique, harcs⟩ := hsame hall
    exact ⟨hunique, by simpa [actionLogEventTriggered] using harcs⟩

/-! ## The attempts of one call -/

/-- The attempts with the providers, of which the first objects of their vectors are given. -/
def attempts (newId : EventActionId) (type : ActionLogType) (eventIds : List Int) (s : HBState) :
    Option HBState :=
  eventIds.foldlM (fun s eventId => s.attempt newId type eventId) s

/-- The ids under which the event action is attempted. -/
def attemptIds (newId : EventActionId) : Nat → EventActionId → List EventActionId
  | 0, _ => []
  | n + 1, next =>
    (if newId = -1 then next else newId) ::
      attemptIds newId n (if newId = -1 then next + 1 else next)

/-- The arcs that are requested for a chain of event actions of the user interface. -/
def uiChain : EventActionId → List EventActionId → List (EventActionId × EventActionId)
  | _, [] => []
  | last, id :: ids => (if last ≠ 0 then [(last, id)] else []) ++ uiChain id ids

/-- What the attempts leave behind. -/
structure Left (s s' : HBState) (newId : EventActionId) (type : ActionLogType)
    (eventIds : List Int) (ids : List EventActionId) : Prop where
  current : s'.hb.currentEventActionId = if eventIds = [] then s.hb.currentEventActionId else 0
  last : s'.hb.lastEventAction = s.hb.lastEventAction
  lastUI : s'.hb.lastUIEventAction =
    if type = .userInterface then ids.getLastD s.hb.lastUIEventAction else s.hb.lastUIEventAction
  next : s'.hb.nextEventActionId =
    if newId = -1 then s.hb.nextEventActionId + eventIds.length else s.hb.nextEventActionId
  idle : eventIds ≠ [] ∨ s.actionLog.Idle → s'.actionLog.Idle
  typeOf : ∀ j, s'.actionLog.typeOf j = if j ∈ ids then some type else s.actionLog.typeOf j
  pending : ∀ k, s'.actionLog.pendingTriggerArcs[k]? =
    if k ∈ eventIds then none else s.actionLog.pendingTriggerArcs[k]?
  log : s.actionLog.Idle → (∀ id ∈ ids, s.actionLog.typeOf id = some type) →
    (∀ k ∈ eventIds, s.actionLog.pendingTriggerArcs[k]? = none) →
    s'.actionLog = { s.actionLog with arcs := s'.actionLog.arcs }
  grows : s.hb.hbarcsUnique <+: s'.hb.hbarcsUnique
  chained : type = .userInterface →
    ∀ p ∈ uiChain s.hb.lastUIEventAction ids, p ∈ s'.hb.hbarcsUnique
  same : (type = .userInterface →
      ∀ p ∈ uiChain s.hb.lastUIEventAction ids, p ∈ s.hb.hbarcsUnique) →
    s'.hb.hbarcsUnique = s.hb.hbarcsUnique ∧ s'.actionLog.arcs = s.actionLog.arcs

/-- The log is idle after an attempt. -/
theorem Attempted.idle {s s' : HBState} {newId : EventActionId} {type : ActionLogType}
    {eventId : Int} (h : Attempted s s' newId type eventId) : s'.actionLog.Idle := by
  rw [h.log]
  exact ⟨rfl, rfl, rfl⟩

/-- An attempt sets the type of its event action alone. -/
theorem Attempted.typeOf {s s' : HBState} {newId : EventActionId} {type : ActionLogType}
    {eventId : Int} (h : Attempted s s' newId type eventId) (j : EventActionId) :
    s'.actionLog.typeOf j = if (s.nextId newId).1 = j then some type else s.actionLog.typeOf j := by
  rw [h.log]
  exact s.actionLog.typeOf_attempt (nextId_ne newId s) type eventId j

/-- An attempt takes the pending arcs of its event alone. -/
theorem Attempted.pending {s s' : HBState} {newId : EventActionId} {type : ActionLogType}
    {eventId : Int} (h : Attempted s s' newId type eventId) (k : Int) :
    s'.actionLog.pendingTriggerArcs[k]? =
      if eventId = k then none else s.actionLog.pendingTriggerArcs[k]? := by
  rw [h.log]
  exact s.actionLog.pending_attempt (nextId_ne newId s) type eventId k

/-- The first of several attempts, and the rest of them. -/
theorem Attempted.cons {s s₁ s' : HBState} {newId : EventActionId} {type : ActionLogType}
    {eventId : Int} {eventIds : List Int} {ids : List EventActionId}
    (h : Attempted s s₁ newId type eventId) (h' : Left s₁ s' newId type eventIds ids) :
    Left s s' newId type (eventId :: eventIds) ((s.nextId newId).1 :: ids) where
  current := by
    rw [h'.current, h.current]
    simp
  last := h'.last.trans h.last
  lastUI := by
    rw [h'.lastUI, h.lastUI]
    split
    · exact List.getLastD_cons.symm
    · rfl
  next := by
    rw [h'.next, h.next]
    by_cases hnew : newId = -1
    · simp only [nextId, hnew, if_true, allocateEventActionId, List.length_cons]
      rw [Int.add_assoc, Int.add_comm 1]
      rfl
    · simp only [nextId, hnew, if_false]
  idle _ := h'.idle (Or.inr h.idle)
  typeOf j := by
    rw [h'.typeOf, h.typeOf]
    by_cases hj : j ∈ ids
    · simp [hj]
    · simp [hj, eq_comm]
  pending k := by
    rw [h'.pending, h.pending]
    by_cases hk : k ∈ eventIds
    · simp [hk]
    · simp [hk, eq_comm]
  log idle htype hpending := by
    -- the first attempt leaves the log as it is, so the rest starts from the same log
    have hself : s.actionLog.attempt (s.nextId newId).1 type eventId = s.actionLog :=
      ActionLog.attempt_eq_self (nextId_ne newId s) idle (htype _ List.mem_cons_self)
        (hpending _ List.mem_cons_self)
    have hfirst := h.log
    rw [hself] at hfirst
    have hrest := h'.log h.idle
      (fun id hid => by
        rw [h.typeOf, htype id (List.mem_cons_of_mem _ hid)]
        simp)
      (fun k hk => by
        rw [h.pending, hpending k (List.mem_cons_of_mem _ hk)]
        simp)
    rw [hfirst] at hrest
    exact hrest
  grows := h.grows.trans h'.grows
  chained hui p hp := by
    -- an arc of the first attempt stays in the set, the others come with the rest
    rcases List.mem_append.mp hp with hp | hp
    · refine h'.grows.subset (h.chained p ?_)
      rw [uiRequests]
      simpa [hui] using hp
    · refine h'.chained hui p ?_
      rw [h.lastUI, if_pos hui]
      exact hp
  same hall := by
    have hfirst : ∀ p ∈ s.uiRequests (s.nextId newId).1 type, p ∈ s.hb.hbarcsUnique := by
      intro p hp
      unfold uiRequests at hp
      split at hp
      · rename_i hui
        refine hall hui.1 p (List.mem_append_left _ ?_)
        rwa [if_pos hui.2]
      · simp at hp
    obtain ⟨hunique, harcs⟩ := h.same hfirst
    have hrest : type = .userInterface →
        ∀ p ∈ uiChain s₁.hb.lastUIEventAction ids, p ∈ s₁.hb.hbarcsUnique := by
      intro hui p hp
      rw [h.lastUI, if_pos hui] at hp
      rw [hunique]
      exact hall hui p (List.mem_append_right _ hp)
    obtain ⟨hunique', harcs'⟩ := h'.same hrest
    exact ⟨hunique'.trans hunique, harcs'.trans harcs⟩

/-- What the attempts of one call leave behind. -/
theorem attempts_spec {newId : EventActionId} {type : ActionLogType} {eventIds : List Int}
    {s s' : HBState} (h : s.attempts newId type eventIds = some s') :
    Left s s' newId type eventIds
      (attemptIds newId eventIds.length s.hb.nextEventActionId) := by
  induction eventIds generalizing s with
  | nil =>
    obtain rfl := Option.some.inj h
    exact {
      current := by simp
      last := rfl
      lastUI := by simp [attemptIds]
      next := by simp
      idle := fun hidle => hidle.resolve_left (by simp)
      typeOf := by simp [attemptIds]
      pending := by simp
      log := fun _ _ _ => rfl
      grows := List.prefix_rfl
      chained := by simp [attemptIds, uiChain]
      same := fun _ => ⟨rfl, rfl⟩ }
  | cons eventId eventIds ih =>
    rw [attempts, List.foldlM_cons, Option.bind_eq_bind, Option.bind_eq_some_iff] at h
    obtain ⟨s₁, hfirst, hrest⟩ := h
    have hattempted := attempt_spec hfirst
    -- the rest is attempted under the next ids, or under the same id again
    have hids : attemptIds newId (eventId :: eventIds).length s.hb.nextEventActionId =
        (s.nextId newId).1 :: attemptIds newId eventIds.length s₁.hb.nextEventActionId := by
      rw [hattempted.next]
      by_cases hnew : newId = -1
      · simp [nextId, attemptIds, allocateEventActionId, hnew]
      · simp [nextId, attemptIds, hnew]
    rw [hids]
    exact hattempted.cons (ih hrest)

/-! ## Trying again -/

/-- The chain of the user interface can be continued: with ids that are still to be
    allocated, or with the reserved id, from which no arc is requested. -/
def CanChain (s : HBState) (newId : EventActionId) : Prop :=
  (newId = -1 ∧ 0 ≤ s.hb.lastUIEventAction ∧ s.hb.lastUIEventAction < s.hb.nextEventActionId) ∨
    (newId = 0 ∧ s.hb.lastUIEventAction = 0)

/-- An arc that goes forward is accepted. -/
theorem addExplicitArc_isSome {s : HBState} {earlier later : EventActionId} (hpos : 0 < earlier)
    (hlt : earlier < later) : ∃ s', s.addExplicitArc earlier later = some s' := by
  -- the arc is valid, and in order when it is logged
  have hvalid : ¬((earlier ≤ 0 ∨ later ≤ 0 ∨ earlier = later) ∧ s.strictMode = true) := by
    rintro ⟨h | h | h, -⟩
    · exact absurd hpos (Int.not_lt.mpr h)
    · exact absurd (Int.lt_trans hpos hlt) (Int.not_lt.mpr h)
    · exact absurd hlt (h ▸ Int.lt_irrefl _)
  rw [addExplicitArc, if_neg hvalid, addUniqueArc]
  split
  · exact ⟨_, rfl⟩
  · exact ⟨_, if_neg (Int.not_le.mpr hlt)⟩

/-- An id other than -1 can be entered if the chain allows it. -/
theorem hbEnterEventAction_isSome {s : HBState} {id : EventActionId} {type : ActionLogType}
    (hid : id ≠ -1) (hchain : type = .userInterface → s.hb.lastUIEventAction ≠ 0 →
      0 < s.hb.lastUIEventAction ∧ s.hb.lastUIEventAction < id) :
    ∃ s', s.hbEnterEventAction id type = some s' := by
  -- the log is entered with any id but -1
  have hlogged : ∀ t : HBState, ∃ t', t.actionLogEnterOperation id type = some t' := by
    intro t
    rw [actionLogEnterOperation, ActionLog.setEventActionType_startEventAction _ hid]
    exact ⟨_, if_neg (by simp)⟩
  obtain ⟨s₁, henter⟩ := hlogged
    { s with hb := { s.hb with currentEventActionId := id } }
  have heq := actionLogEnterOperation_eq henter
  rw [hbEnterEventAction, setCurrentEventAction, henter, Option.bind_some]
  by_cases hui : type = .userInterface
  · rw [if_pos hui, chainUIEventAction, heq]
    by_cases hlast : s.hb.lastUIEventAction = 0
    · rw [if_neg (by simp [hlast])]
      exact ⟨_, rfl⟩
    · obtain ⟨hpos, hlt⟩ := hchain hui hlast
      rw [if_pos hlast]
      obtain ⟨s₂, hs₂⟩ := addExplicitArc_isSome hpos hlt (s := { s with
        hb := { s.hb with currentEventActionId := id }
        actionLog := ((s.actionLog.startEventAction id).setEventActionType type).2 })
      exact ⟨_, congrArg (Option.map _) hs₂⟩
  · rw [if_neg hui]
    exact ⟨_, rfl⟩

/-- `eventTriggered` stays inside of the event action. -/
theorem currentEventActionId_eventTriggered (log : ActionLog) (eventId : Int) :
    (log.eventTriggered eventId).currentEventActionId = log.currentEventActionId := by
  unfold ActionLog.eventTriggered
  split
  · rfl
  · split <;> rfl

/-- The event action that is open is closed. -/
theorem actionLogExitOperation_eq_some {s : HBState}
    (h : s.actionLog.currentEventActionId ≠ -1) :
    s.actionLogExitOperation = some { s with actionLog := s.actionLog.endEventAction.2 } := by
  simp [actionLogExitOperation, checkLogged, ActionLog.endEventAction, h]

/-- An attempt whose chain can be continued does not crash. -/
theorem attempt_isSome {s : HBState} {newId : EventActionId} {type : ActionLogType}
    (eventId : Int) (h : type = .userInterface → CanChain s newId) :
    ∃ s', s.attempt newId type eventId = some s' := by
  have hchain : type = .userInterface → (s.nextId newId).2.hb.lastUIEventAction ≠ 0 →
      0 < (s.nextId newId).2.hb.lastUIEventAction ∧
        (s.nextId newId).2.hb.lastUIEventAction < (s.nextId newId).1 := by
    intro hui hne
    rw [nextId_eq] at hne ⊢
    -- a new id is above the last one of the chain
    rcases h hui with ⟨rfl, hnonneg, hlt⟩ | ⟨-, hzero⟩
    · refine ⟨lt_of_le_of_ne hnonneg (Ne.symm hne), ?_⟩
      rw [nextId, if_pos rfl]
      exact hlt
    · exact absurd hzero hne
  obtain ⟨s₁, henter⟩ := hbEnterEventAction_isSome (nextId_ne newId s) hchain
  have hlog := (hbEnterEventAction_entered henter).log
  have hcurrent : s₁.actionLog.currentEventActionId = (s.nextId newId).1 := by
    rw [hlog, ActionLog.setEventActionType_startEventAction _ (nextId_ne newId s)]
    rfl
  -- what has been entered can be left
  have hstarted : (s₁.actionLog.eventTriggered eventId).currentEventActionId ≠ -1 := by
    rw [currentEventActionId_eventTriggered, hcurrent]
    exact nextId_ne newId s
  have hexit := actionLogExitOperation_eq_some (s := s₁.actionLogEventTriggered eventId) hstarted
  rw [attempt, henter, Option.bind_some, hbExitEventAction, setCurrentEventActionInvalid, hexit]
  exact ⟨_, rfl⟩

/-- Attempts one behind the other return if the first one can be chained. -/
theorem attempts_isSome {newId : EventActionId} {type : ActionLogType} (eventIds : List Int)
    {s : HBState} (h : type = .userInterface → CanChain s newId) :
    ∃ s', s.attempts newId type eventIds = some s' := by
  induction eventIds generalizing s with
  | nil => exact ⟨s, rfl⟩
  | cons eventId eventIds ih =>
    obtain ⟨s₁, hfirst⟩ := attempt_isSome eventId h
    have hattempted := attempt_spec hfirst
    have hchain : type = .userInterface → CanChain s₁ newId := by
      intro hui
      unfold CanChain
      rw [hattempted.lastUI, if_pos hui, hattempted.next]
      -- the id that was just used is below the next one, or it is the reserved id again
      rcases h hui with ⟨rfl, -, -⟩ | ⟨rfl, -⟩
      · refine Or.inl ⟨rfl, Int.le_of_lt s.hb.nextPositive, ?_⟩
        exact Int.lt_add_one_of_le (Int.le_refl _)
      · exact Or.inr ⟨rfl, rfl⟩
    obtain ⟨s', hrest⟩ := ih hchain
    exact ⟨s', by rw [attempts, List.foldlM_cons, hfirst]; exact hrest⟩

/-- In strict mode a preallocated id cannot be chained with itself. -/
theorem attempts_eq_none {s : HBState} {newId : EventActionId} {eventIds : List Int}
    (hne : eventIds ≠ []) (hstrict : s.strictMode = true) (hnew : newId ≠ -1) (hzero : newId ≠ 0)
    (hlast : s.hb.lastUIEventAction = newId) :
    s.attempts newId .userInterface eventIds = none := by
  obtain ⟨eventId, eventIds, rfl⟩ := List.exists_cons_of_ne_nil hne
  -- the first attempt requests an arc from the id to itself
  have hattempt : s.attempt newId .userInterface eventId = none := by
    rw [attempt, nextId, if_neg hnew, Option.bind_eq_none_iff]
    intro s₁ henter
    obtain ⟨-, hfirst, -⟩ | ⟨-, -, s₂, hchain, -⟩ | ⟨hui, -⟩ := hbEnterEventAction_cases henter
    · exact absurd (hlast ▸ hfirst) hzero
    · rw [addExplicitArc, if_pos ⟨Or.inr (Or.inr hlast), hstrict⟩] at hchain
      simp at hchain
    · exact absurd rfl hui
  rw [attempts, List.foldlM_cons, hattempt]
  rfl

/-- A preallocated id is used again. -/
theorem attemptIds_preallocated {newId : EventActionId} (hnew : newId ≠ -1) (n : Nat)
    (next : EventActionId) : attemptIds newId n next = List.replicate n newId := by
  induction n generalizing next with
  | zero => rfl
  | succ n ih => rw [attemptIds, if_neg hnew, if_neg hnew, ih, List.replicate_succ]

/-- New ids are burned, one for each attempt. -/
theorem attemptIds_getLastD (n : Nat) (next last : EventActionId) :
    (attemptIds (-1) (n + 1) next).getLastD last = next + n := by
  induction n generalizing next last with
  | zero =>
    simp only [attemptIds, if_true, List.getLastD_cons, List.getLastD_nil]
    exact (Int.add_zero next).symm
  | succ n ih =>
    rw [attemptIds, List.getLastD_cons, if_pos rfl, if_pos rfl, ih, Int.add_assoc, Int.add_comm 1]
    rfl

end HBState

/-! ## The loop over the providers -/

/-- An entry that is inserted and erased leaves the map without one. -/
theorem erase_insert {α β : Type} [DecidableEq α] (m : AList fun _ : α => β) (a : α) (b : β) :
    (m.insert a b).erase a = m.erase a := by
  apply AList.ext
  exact List.kerase_cons_eq (β := fun _ => β) (s := ⟨a, b⟩) rfl

namespace EventActionRegister

variable {O X : Type}

/-- The register when a dispatch has been undone. -/
def undone (r : EventActionRegister O) (originalId : EventActionId) : EventActionRegister O :=
  { r with
    isDispatching := false
    originalToNewEventActionIdMap := r.originalToNewEventActionIdMap.erase originalId }

/-- The undo erases the entry of the old id, whether the dispatch has inserted it or not. -/
theorem dispatchEnd_dispatchStart (r : EventActionRegister O) (id originalId : EventActionId)
    (d : EventActionDescriptor) :
    (r.eventActionDispatchStart id originalId d).eventActionDispatchEnd false originalId =
      r.undone originalId := by
  have hmap : (r.eventActionDispatchStart id originalId d).originalToNewEventActionIdMap.erase
      originalId = r.originalToNewEventActionIdMap.erase originalId := by
    -- the entry was there and is erased, or it is the one just inserted
    unfold eventActionDispatchStart
    dsimp only
    split
    · rfl
    · exact erase_insert _ _ _
  rw [eventActionDispatchEnd, if_neg (by simp), hmap]
  simp [eventActionDispatchStart, undone]

/-- Undoing an entry twice is undoing it once. -/
theorem undone_undone (r : EventActionRegister O) (originalId : EventActionId) :
    (r.undone originalId).undone originalId = r.undone originalId := by
  have hmap : (r.originalToNewEventActionIdMap.erase originalId).erase originalId =
      r.originalToNewEventActionIdMap.erase originalId := by
    apply AList.ext
    show List.kerase originalId (List.kerase originalId _) = List.kerase originalId _
    exact List.kerase_of_notMem_keys (List.notMem_keys_kerase originalId
      r.originalToNewEventActionIdMap.nodupKeys)
  simp [undone, hmap]

variable {address : O → Int}
  {call : O → EventActionDescriptor → Program O X → Option (Bool × Program O X)}

/-- A provider that declines without side effects is an attempt. -/
theorem runProvider_eq {newId originalId : EventActionId} {d : EventActionDescriptor}
    {first provider : O} (hdecline : ∀ w, call provider d w = some (false, w))
    (r : EventActionRegister O) (s : HBState) (x : X) :
    runProvider (hbPlatform address call) newId originalId d first provider (r, s, x) =
      (s.attempt newId (toActionLogType d.category) (address first)).map fun s' =>
        (false, r.undone originalId, s', x) := by
  have hid : eventActionId (hbPlatform address call) newId (s, x) =
      ((s.nextId newId).1, (s.nextId newId).2, x) := by
    unfold eventActionId HBState.nextId
    split <;> rfl
  unfold runProvider
  rw [hid]
  -- both sides crash at the same calls
  cases henter : (s.nextId newId).2.hbEnterEventAction (s.nextId newId).1
      (toActionLogType d.category) with
  | none => simp [enterDispatch, hbPlatform, HBState.attempt, henter]
  | some s₁ =>
    cases hexit : (s₁.actionLogEventTriggered (address first)).hbExitEventAction false with
    | none => simp [enterDispatch, hbPlatform, HBState.attempt, henter, hdecline, hexit]
    | some s₂ =>
      simp [enterDispatch, hbPlatform, HBState.attempt, henter, hdecline, hexit,
        dispatchEnd_dispatchStart]

/-- Providers that all decline are a sequence of attempts. -/
theorem runProviders_eq {newId originalId : EventActionId} {d : EventActionDescriptor}
    {providers : List (O × O)}
    (hdecline : ∀ e ∈ providers, ∀ w, call e.2 d w = some (false, w))
    (r : EventActionRegister O) (s : HBState) (x : X) :
    runProviders (hbPlatform address call) newId originalId d providers (r, s, x) =
      (s.attempts newId (toActionLogType d.category) (providers.map fun e => address e.1)).map
        fun s' => (false, if providers = [] then r else r.undone originalId, s', x) := by
  induction providers generalizing r s with
  | nil => rfl
  | cons e rest ih =>
    obtain ⟨first, provider⟩ := e
    rw [runProviders, runProvider_eq (hdecline _ List.mem_cons_self), List.map_cons,
      HBState.attempts, List.foldlM_cons]
    cases hattempt : s.attempt newId (toActionLogType d.category) (address first) with
    | none => rfl
    | some s₁ =>
      -- the rest starts from the register as it has been undone
      have hrest := ih (fun e he => hdecline e (List.mem_cons_of_mem _ he)) (r.undone originalId) s₁
      rw [undone_undone, ite_self] at hrest
      simp only [Option.map_some, Option.bind_eq_bind, Option.bind_some, Bool.false_eq_true,
        if_false, hrest]
      rfl

/-! ## When the undo is exact -/

/-- Nothing but the id counter has changed, of what an attempt touches. -/
structure NoTrace (w w' : Program O X) : Prop where
  dispatchHistory : w'.1.dispatchHistory = w.1.dispatchHistory
  originalToNewEventActionIdMap :
    w'.1.originalToNewEventActionIdMap = w.1.originalToNewEventActionIdMap
  currentEventActionId : w'.2.1.hb.currentEventActionId = w.2.1.hb.currentEventActionId
  lastEventAction : w'.2.1.hb.lastEventAction = w.2.1.hb.lastEventAction
  lastUIEventAction : w'.2.1.hb.lastUIEventAction = w.2.1.hb.lastUIEventAction
  arcs : ∀ p, p ∈ w'.2.1.hb.hbarcsUnique ↔ p ∈ w.2.1.hb.hbarcsUnique
  actionLog : w'.2.1.actionLog = w.2.1.actionLog

/-- What attempts with the objects `eventIds` do not change: the old id is not in the map,
    every id has been entered with the same type, nothing is started, nothing is pending
    for the objects, and the arcs of the user interface are there already. -/
structure Traceless (r : EventActionRegister O) (s : HBState) (newId originalId : EventActionId)
    (type : ActionLogType) (eventIds : List Int) : Prop where
  unmapped : originalId ∉ r.originalToNewEventActionIdMap
  current : s.hb.currentEventActionId = 0
  idle : s.actionLog.Idle
  entered : ∀ id ∈ HBState.attemptIds newId eventIds.length s.hb.nextEventActionId,
    s.actionLog.typeOf id = some type
  pending : ∀ k ∈ eventIds, s.actionLog.pendingTriggerArcs[k]? = none
  chain : type = .userInterface → (newId = -1 ∨ newId = 0) ∧
    (HBState.attemptIds newId eventIds.length s.hb.nextEventActionId).getLastD
      s.hb.lastUIEventAction = s.hb.lastUIEventAction ∧
    ∀ p ∈ HBState.uiChain s.hb.lastUIEventAction
      (HBState.attemptIds newId eventIds.length s.hb.nextEventActionId), p ∈ s.hb.hbarcsUnique

/-- A key that can be erased without a change is not in the map. -/
theorem mem_of_erase_eq {α β : Type} [DecidableEq α] {m : AList fun _ : α => β} {a : α}
    (h : m.erase a = m) : a ∉ m := by
  intro hmem
  rw [← h, AList.mem_erase] at hmem
  exact hmem.1 rfl

/-- A key that is not in the map can be erased without a change. -/
theorem erase_eq_of_notMem {α β : Type} [DecidableEq α] {m : AList fun _ : α => β} {a : α}
    (h : a ∉ m) : m.erase a = m := by
  apply AList.ext
  exact List.kerase_of_notMem_keys h

/-- An undo that is exact can be told from the state before the attempts. -/
theorem traceless_of_noTrace {r : EventActionRegister O} {s s' : HBState} {x : X}
    {newId originalId : EventActionId} {type : ActionLogType} {eventIds : List Int}
    (hne : eventIds ≠ []) (h : s.attempts newId type eventIds = some s')
    (noTrace : NoTrace (r, s, x) (r.undone originalId, s', x))
    (hretry : type = .userInterface →
      (s'.actionLogStrictMode true).attempts newId type eventIds ≠ none) :
    Traceless r s newId originalId type eventIds := by
  have left := HBState.attempts_spec h
  have hlog : s'.actionLog = s.actionLog := noTrace.actionLog
  -- what the attempts have set is what was there before
  refine ⟨mem_of_erase_eq noTrace.originalToNewEventActionIdMap, ?_, ?_, ?_, ?_, ?_⟩
  · have hcurrent := noTrace.currentEventActionId
    rw [left.current, if_neg hne] at hcurrent
    exact hcurrent.symm
  · rw [← hlog]
    exact left.idle (Or.inl hne)
  · intro id hid
    rw [← hlog, left.typeOf, if_pos hid]
  · intro k hk
    rw [← hlog, left.pending, if_pos hk]
  · intro hui
    have hlastUI : s'.hb.lastUIEventAction = s.hb.lastUIEventAction := noTrace.lastUIEventAction
    have hlast := left.lastUI.symm.trans hlastUI
    rw [if_pos hui] at hlast
    refine ⟨?_, hlast, fun p hp => (noTrace.arcs p).mp (left.chained hui p hp)⟩
    -- a preallocated id would be chained with itself
    by_contra hnew
    obtain ⟨hnew, hzero⟩ := not_or.mp hnew
    rw [HBState.attemptIds_preallocated hnew] at hlast
    have hlength : eventIds.length ≠ 0 := fun h => hne (List.length_eq_zero_iff.mp h)
    have hself : s.hb.lastUIEventAction = newId := by
      rw [← hlast, List.getLastD_eq_getLast?, List.getLast?_replicate, if_neg hlength]
      rfl
    subst hui
    exact hretry rfl (HBState.attempts_eq_none hne rfl hnew hzero (hlastUI.trans hself))

/-- Where the condition holds the undo is exact. -/
theorem noTrace_of_traceless {r : EventActionRegister O} {s s' : HBState} {x : X}
    {newId originalId : EventActionId} {type : ActionLogType} {eventIds : List Int}
    (traceless : Traceless r s newId originalId type eventIds)
    (h : s.attempts newId type eventIds = some s') :
    NoTrace (r, s, x) (r.undone originalId, s', x) := by
  have left := HBState.attempts_spec h
  obtain ⟨hunique, harcs⟩ := left.same fun hui => (traceless.chain hui).2.2
  have hlog := left.log traceless.idle traceless.entered traceless.pending
  rw [harcs] at hlog
  refine ⟨rfl, erase_eq_of_notMem traceless.unmapped, ?_, left.last, ?_, ?_, hlog⟩
  · show s'.hb.currentEventActionId = s.hb.currentEventActionId
    rw [left.current, traceless.current, ite_self]
  · -- only an event action of the user interface moves the end of the chain
    show s'.hb.lastUIEventAction = s.hb.lastUIEventAction
    rw [left.lastUI]
    split
    · rename_i hui
      exact (traceless.chain hui).2.1
    · rfl
  · intro p
    show p ∈ s'.hb.hbarcsUnique ↔ p ∈ s.hb.hbarcsUnique
    rw [hunique]

/-- Where the condition holds the attempts can be made again. -/
theorem retry_of_traceless {r : EventActionRegister O} {s s' : HBState}
    {newId originalId : EventActionId} {type : ActionLogType} {eventIds : List Int}
    (hne : eventIds ≠ []) (traceless : Traceless r s newId originalId type eventIds)
    (h : s.attempts newId type eventIds = some s') :
    ∃ s'', (s'.actionLogStrictMode true).attempts newId type eventIds = some s'' := by
  have left := HBState.attempts_spec h
  apply HBState.attempts_isSome
  intro hui
  obtain ⟨hnew, hlast, -⟩ := traceless.chain hui
  have hlastUI : s'.hb.lastUIEventAction = s.hb.lastUIEventAction := by
    rw [left.lastUI, if_pos hui, hlast]
  -- there is a last attempt, whose id is the end of the chain
  obtain ⟨n, hn⟩ := Nat.exists_eq_succ_of_ne_zero fun h => hne (List.length_eq_zero_iff.mp h)
  rw [hn] at hlast
  rcases hnew with rfl | rfl
  · have hnext := left.next
    rw [if_pos rfl, hn] at hnext
    rw [HBState.attemptIds_getLastD] at hlast
    have hpositive := s.hb.nextPositive
    refine Or.inl ⟨rfl, ?_, ?_⟩
    · show 0 ≤ s'.hb.lastUIEventAction
      rw [hlastUI, ← hlast]
      exact Int.add_nonneg (Int.le_of_lt hpositive) (Int.natCast_nonneg n)
    · show s'.hb.lastUIEventAction < s'.hb.nextEventActionId
      rw [hlastUI, ← hlast, hnext, Nat.succ_eq_add_one]
      exact Int.add_lt_add_left (Int.ofNat_lt.mpr (Nat.lt_succ_self n)) _
  · rw [HBState.attemptIds_preallocated (by decide), List.getLastD_eq_getLast?,
      List.getLast?_replicate, if_neg (Nat.succ_ne_zero n)] at hlast
    exact Or.inr ⟨rfl, hlastUI.trans hlast.symm⟩

/-- A call in which every provider declines is the attempts with them. -/
theorem runEventAction_of_declined {newId originalId : EventActionId} {d : EventActionDescriptor}
    {r : EventActionRegister O}
    (hdecline : ∀ e ∈ r.providersFrom d.type, ∀ w, call e.2 d w = some (false, w))
    (hhandler : r.descriptorToHandler.lookup d.toString = none) (s : HBState) (x : X) :
    runEventAction (hbPlatform address call) newId originalId d (r, s, x) =
      (s.attempts newId (toActionLogType d.category)
        ((r.providersFrom d.type).map fun e => address e.1)).map fun s' =>
          (false, if r.providersFrom d.type = [] then r else r.undone originalId, s', x) := by
  rw [runEventAction, runProviders_eq hdecline]
  cases hattempts : s.attempts newId (toActionLogType d.category)
      ((r.providersFrom d.type).map fun e => address e.1) with
  | none => rfl
  | some s' =>
    have hnone : (if r.providersFrom d.type = [] then r else
        r.undone originalId).descriptorToHandler.lookup d.toString = none := by
      split
      · exact hhandler
      · exact hhandler
    simp only [Option.map_some, Option.bind_eq_bind, Option.bind_some, Bool.false_eq_true,
      if_false, runHandler, hnone]

/-- A call of `runEventAction` in which every provider that is offered the event action
    declines without side effects, and there is no handler, leaves no trace and can be made
    again in strict mode exactly if no provider is offered it or the state before the call
    is one that the attempts do not change. -/
theorem rejected_attempt_leaves_no_trace_iff {newId originalId : EventActionId}
    {d : EventActionDescriptor} {r : EventActionRegister O} {s : HBState} {x : X}
    {w' : Program O X}
    (hdecline : ∀ e ∈ r.providersFrom d.type, ∀ w, call e.2 d w = some (false, w))
    (hhandler : r.descriptorToHandler.lookup d.toString = none)
    (h : runEventAction (hbPlatform address call) newId originalId d (r, s, x) =
      some (false, w')) :
    (NoTrace (r, s, x) w' ∧
      runEventAction (hbPlatform address call) newId originalId d
        (w'.1, w'.2.1.actionLogStrictMode true, w'.2.2) ≠ none) ↔
    (r.providersFrom d.type = [] ∨
      Traceless r s newId originalId (toActionLogType d.category)
        ((r.providersFrom d.type).map fun e => address e.1)) := by
  rw [runEventAction_of_declined hdecline hhandler, Option.map_eq_some_iff] at h
  obtain ⟨s', hattempts, h⟩ := h
  obtain rfl := (Prod.mk.inj h).2
  -- without providers nothing is attempted
  by_cases hproviders : r.providersFrom d.type = []
  · rw [hproviders] at hattempts
    obtain rfl := Option.some.inj hattempts
    rw [if_pos hproviders, runEventAction_of_declined hdecline hhandler, hproviders]
    refine iff_of_true ⟨⟨rfl, rfl, rfl, rfl, rfl, fun p => Iff.rfl, rfl⟩, ?_⟩ (Or.inl rfl)
    simp [HBState.attempts]
  · have hne : (r.providersFrom d.type).map (fun e => address e.1) ≠ [] := by simpa using hproviders
    -- the retry is made of the same attempts, from the state that they left
    have hretry : runEventAction (hbPlatform address call) newId originalId d
        (r.undone originalId, s'.actionLogStrictMode true, x) ≠ none ↔
        (s'.actionLogStrictMode true).attempts newId (toActionLogType d.category)
          ((r.providersFrom d.type).map fun e => address e.1) ≠ none := by
      rw [runEventAction_of_declined (r := r.undone originalId) hdecline hhandler, Ne,
        Option.map_eq_none_iff]
      rfl
    rw [if_neg hproviders, or_iff_right hproviders]
    constructor
    · rintro ⟨noTrace, hnone⟩
      exact traceless_of_noTrace hne hattempts noTrace fun _ => hretry.mp hnone
    · intro traceless
      obtain ⟨s'', hagain⟩ := retry_of_traceless hne traceless hattempts
      exact ⟨noTrace_of_traceless traceless hattempts, hretry.mpr (by rw [hagain]; simp)⟩

/-- A provider of user events. -/
def userEventRegister : EventActionRegister Nat :=
  empty.registerEventActionProvider "UserEvent".toList 0

/-- It declines every one. -/
def decliningPlatform : Platform Nat (HBState × Unit) :=
  hbPlatform (fun _ => 0) fun _ _ w => some (false, w)

/-- An event action that is not of the user interface, which has been declined before. -/
theorem rejected_attempt_leaves_no_trace_of_declined_before :
    let d := EventActionDescriptor.make .network "UserEvent".toList []
    let s : HBState := { HBState.init with actionLog := ActionLog.init.attempt 1 .network 0 }
    ∃ w', runEventAction decliningPlatform 1 7 d (userEventRegister, s, ()) = some (false, w') ∧
      NoTrace (userEventRegister, s, ()) w' ∧
      runEventAction decliningPlatform 1 7 d
        (w'.1, w'.2.1.actionLogStrictMode true, w'.2.2) ≠ none := by
  intro d s
  have hproviders : userEventRegister.providersFrom d.type = [(0, 0)] := by decide +kernel
  -- the entry of the first attempt is there from the attempt before
  have traceless : Traceless userEventRegister s 1 7 (toActionLogType d.category)
      ((userEventRegister.providersFrom d.type).map fun _ => 0) := by
    rw [hproviders]
    refine ⟨by decide, rfl, ActionLog.idle_attempt _ _ _ _, ?_, ?_, fun hui => ?_⟩
    · -- the event action has its type
      intro id hid
      obtain rfl := List.mem_singleton.mp hid
      exact (ActionLog.typeOf_attempt _ (by decide) _ _ _).trans (if_pos rfl)
    · -- no arc of the event is pending
      intro k hk
      obtain rfl := List.mem_singleton.mp hk
      exact (ActionLog.pending_attempt _ (by decide) _ _ _).trans (if_pos rfl)
    · exact absurd hui (by decide)
  obtain ⟨s', hs'⟩ : ∃ s', s.attempts 1 (toActionLogType d.category)
      ((userEventRegister.providersFrom d.type).map fun _ => 0) = some s' :=
    HBState.attempts_isSome _ fun hui => absurd hui (by decide)
  -- the provider declines
  have hdecline : ∀ e ∈ userEventRegister.providersFrom d.type, ∀ w,
      decliningPlatform.call e.2 d w = some (false, w) := fun _ _ _ => rfl
  have hrun : runEventAction decliningPlatform 1 7 d (userEventRegister, s, ()) = _ :=
    runEventAction_of_declined hdecline rfl s ()
  rw [hs'] at hrun
  exact ⟨_, hrun, (rejected_attempt_leaves_no_trace_iff hdecline rfl hrun).mpr (Or.inr traceless)⟩

/-- The first attempt of a user event under the preallocated id 1 leaves its entry in the
    action log, and the second one crashes. -/
theorem declined_user_event_leaves_trace :
    let d := EventActionDescriptor.make .userInterface "UserEvent".toList []
    (∀ o w, decliningPlatform.call o d w = some (false, w)) ∧
      userEventRegister.descriptorToHandler.lookup d.toString = none ∧
      ∃ w', runEventAction decliningPlatform 1 1 d (userEventRegister, HBState.init, ()) =
          some (false, w') ∧
        ¬NoTrace (userEventRegister, HBState.init, ()) w' ∧
        runEventAction decliningPlatform 1 1 d
          (w'.1, w'.2.1.actionLogStrictMode true, w'.2.2) = none := by
  intro d
  -- the first attempt leaves its entry in the log, and a second one under the same id crashes on it
  have hobserved : (runEventAction decliningPlatform 1 1 d
      (userEventRegister, HBState.init, ())).map (fun result =>
        (result.1, result.2.2.1.actionLog.typeOf 1,
          (runEventAction decliningPlatform 1 1 d
            (result.2.1, result.2.2.1.actionLogStrictMode true, result.2.2.2)).isNone)) =
      some (false, some .userInterface, true) := by decide +kernel
  obtain ⟨⟨found, w'⟩, hrun, hobserved⟩ := Option.map_eq_some_iff.mp hobserved
  obtain ⟨rfl, hobserved⟩ := Prod.mk.inj hobserved
  obtain ⟨htype, hcrash⟩ := Prod.mk.inj hobserved
  refine ⟨fun _ _ => rfl, rfl, w', hrun, fun noTrace => ?_, Option.isNone_iff_eq_none.mp hcrash⟩
  -- if there were no trace, the log would be empty
  have hlog : w'.2.1.actionLog = ActionLog.init := noTrace.actionLog
  rw [hlog] at htype
  exact absurd htype (by decide +kernel)

end EventActionRegister

end R4
