import R4.Native.ActionLog
import R4.Native.Descriptor

/-!
# Happens-before

`WebCore::EventActionsHB` (`EventActionHappensBefore.h`, `EventActionHappensBefore.cpp`) and
the functions around it (`EventActionHappensBeforeReport.cpp`, `wtf/ActionLogReport.cpp`):
the ids of event actions, the one that is running, and the arcs that are logged between
them. An arc that is out of order ends the process in strict mode; in the other mode it is
dropped, or not, by the three places that check it.

`none` is a `CRASH()`.
-/

namespace R4

/-- `EventActionsHB`. Ids are allocated upwards from 1: 0 is reserved as invalid. The arcs
    that were requested are kept in a `std::set`, of which only membership is used. -/
structure EventActionsHB where
  currentEventActionId : EventActionId
  nextEventActionId : EventActionId
  lastUIEventAction : EventActionId
  lastEventAction : EventActionId
  hbarcsUnique : List (EventActionId × EventActionId)
  nextPositive : 0 < nextEventActionId
deriving DecidableEq

/-- `EventActionsHB()`. -/
def EventActionsHB.init : EventActionsHB where
  currentEventActionId := 0
  nextEventActionId := 1
  lastUIEventAction := 0
  lastEventAction := 0
  hbarcsUnique := []
  nextPositive := by decide

/-- What the happens-before functions work on: `happensBefore()`, the action log of the
    thread, and `strict_mode`. -/
structure HBState where
  hb : EventActionsHB
  actionLog : ActionLog
  strictMode : Bool

namespace HBState

/-- The state at the start. -/
def init : HBState := ⟨.init, .init, true⟩

/-! ## The action log (`ActionLogReport.cpp`) -/

/-- `ActionLogStrictMode`. -/
def actionLogStrictMode (strict : Bool) (s : HBState) : HBState := { s with strictMode := strict }

/-- A log function returned false, which is an error in strict mode. -/
def checkLogged (logged : Bool) (s : HBState) : Option HBState :=
  if logged = false ∧ s.strictMode then none else some s

/-- `ActionLogEnterOperation`. -/
def actionLogEnterOperation (id : EventActionId) (type : ActionLogType) (s : HBState) :
    Option HBState :=
  -- starting an event action has no result, so the type decides
  let (logged, log) := (s.actionLog.startEventAction id).setEventActionType type
  { s with actionLog := log }.checkLogged logged

/-- `ActionLogExitOperation`. -/
def actionLogExitOperation (s : HBState) : Option HBState :=
  let (logged, log) := s.actionLog.endEventAction
  { s with actionLog := log }.checkLogged logged

/-- `ActionLogFormat`, `ActionLogScopeStart` and `ActionLogScopeEnd`, on the index of the
    string that is logged. -/
def actionLogCommand (command : CommandType) (stringId : Int) (s : HBState) : Option HBState :=
  let (logged, log) := s.actionLog.logCommand command stringId
  { s with actionLog := log }.checkLogged logged

/-- `ActionLogTriggerEvent`. -/
def actionLogTriggerEvent (eventId : Int) (s : HBState) : HBState :=
  { s with actionLog := s.actionLog.triggerEvent eventId }

/-- `ActionLogEventTriggered`. -/
def actionLogEventTriggered (eventId : Int) (s : HBState) : HBState :=
  { s with actionLog := s.actionLog.eventTriggered eventId }

/-- `ActionLogAddArc`: an arc that does not go forward is an error, or is dropped. -/
def actionLogAddArc (earlierId laterId duration : Int) (s : HBState) : Option HBState :=
  if laterId ≤ earlierId then
    -- outside strict mode the arc is dropped here, and nowhere else
    if s.strictMode then none else some s
  else some { s with actionLog := s.actionLog.addArc earlierId laterId duration }

/-! ## `EventActionsHB` -/

/-- `allocateEventActionId`. -/
def allocateEventActionId (s : HBState) : EventActionId × HBState :=
  (s.hb.nextEventActionId,
    { s with hb := { s.hb with
        nextEventActionId := s.hb.nextEventActionId + 1
        nextPositive := Int.lt_add_one_of_le (Int.le_of_lt s.hb.nextPositive) } })

/-- The part that `addExplicitArc` and `addTimedArc` share: an arc is logged once. -/
def addUniqueArc (earlier later : EventActionId) (duration : Int) (s : HBState) : Option HBState :=
  if (earlier, later) ∈ s.hb.hbarcsUnique then some s
  else
    -- the set is updated before the direction is checked
    { s with hb := { s.hb with
        hbarcsUnique := s.hb.hbarcsUnique ++ [(earlier, later)] } }.actionLogAddArc
      earlier later duration

/-- `addExplicitArc`. Outside strict mode an invalid arc is not rejected here. -/
def addExplicitArc (earlier later : EventActionId) (s : HBState) : Option HBState :=
  if (earlier ≤ 0 ∨ later ≤ 0 ∨ earlier = later) ∧ s.strictMode then none
  else s.addUniqueArc earlier later (-1)

/-- `addTimedArc`. The duration is in milliseconds, as the log stores it. -/
def addTimedArc (earlier later : EventActionId) (duration : Int) (s : HBState) : Option HBState :=
  if (earlier ≤ 0 ∨ later ≤ 0) ∧ s.strictMode then none
  else s.addUniqueArc earlier later duration

/-- The new event action of the user interface is chained with the last one. -/
def chainUIEventAction (newEventActionId : EventActionId) (s : HBState) : Option HBState :=
  (if s.hb.lastUIEventAction ≠ 0 then s.addExplicitArc s.hb.lastUIEventAction newEventActionId
    else some s).map fun s => { s with hb := { s.hb with lastUIEventAction := newEventActionId } }

/-- `setCurrentEventAction`. -/
def setCurrentEventAction (newEventActionId : EventActionId) (type : ActionLogType)
    (s : HBState) : Option HBState :=
  let s := { s with hb := { s.hb with currentEventActionId := newEventActionId } }
  (s.actionLogEnterOperation newEventActionId type).bind fun s =>
    if type = .userInterface then s.chainUIEventAction newEventActionId else some s

/-- `setCurrentEventActionInvalid`. -/
def setCurrentEventActionInvalid (commit : Bool) (s : HBState) : Option HBState :=
  s.actionLogExitOperation.map fun s =>
    { s with hb := { s.hb with
        -- an event action that is not committed is not the last one
        lastEventAction := if commit then s.hb.currentEventActionId else s.hb.lastEventAction
        currentEventActionId := 0 } }

/-- `checkInValidEventAction`. -/
def checkInValidEventAction (s : HBState) : Option Unit :=
  if s.hb.currentEventActionId = 0 ∧ s.strictMode then none else some ()

/-- `currentEventAction`. -/
def currentEventAction (s : HBState) : Option EventActionId :=
  if s.hb.currentEventActionId = 0 then none else some s.hb.currentEventActionId

/-! ## The functions that the program calls (`EventActionHappensBeforeReport.cpp`) -/

/-- `HBCurrentEventAction`. -/
def hbCurrentEventAction (s : HBState) : Option EventActionId := do
  s.checkInValidEventAction
  s.currentEventAction

/-- `HBEnterEventAction`. -/
def hbEnterEventAction (id : EventActionId) (type : ActionLogType) (s : HBState) : Option HBState :=
  s.setCurrentEventAction id type

/-- `HBExitEventAction`. -/
def hbExitEventAction (commit : Bool) (s : HBState) : Option HBState :=
  s.setCurrentEventActionInvalid commit

/-- `HBAddExplicitArc`: self loops are filtered out. -/
def hbAddExplicitArc (earlier later : EventActionId) (s : HBState) : Option HBState :=
  if earlier ≠ later then s.addExplicitArc earlier later else some s

/-- `HBAddTimedArc`. -/
def hbAddTimedArc (earlier later : EventActionId) (duration : Int) (s : HBState) : Option HBState :=
  if earlier ≠ later then s.addTimedArc earlier later duration else some s

end HBState

/-- `MultiJoinHappensBefore`. The list of the threads that ended is in the order in which
    it is walked, the last one first. -/
structure MultiJoinHappensBefore where
  joined : Bool
  endThreads : List EventActionId
deriving DecidableEq

namespace MultiJoinHappensBefore

/-- `MultiJoinHappensBefore()`. -/
def init : MultiJoinHappensBefore := ⟨false, []⟩

/-- `clear`. -/
def clear (m : MultiJoinHappensBefore) : MultiJoinHappensBefore := { m with endThreads := [] }

/-- `threadEndAction`. -/
def threadEndAction (m : MultiJoinHappensBefore) (s : HBState) : Option MultiJoinHappensBefore := do
  s.checkInValidEventAction
  let id ← s.hbCurrentEventAction
  return { m with endThreads := id :: m.endThreads }

/-- The loop of `joinAction`. -/
def joinThreads (joinSlice : EventActionId) : List EventActionId → HBState → Option HBState
  | [], s => some s
  | id :: rest, s =>
    -- a thread that ended in the joining event action needs no arc
    (if id ≠ joinSlice then s.addExplicitArc id joinSlice else some s).bind fun s =>
      joinThreads joinSlice rest s

/-- `joinAction`. -/
def joinAction (m : MultiJoinHappensBefore) (s : HBState) :
    Option (MultiJoinHappensBefore × HBState) :=
  let m := { m with joined := true }
  match m.endThreads with
  | [] => some (m, s)
  | _ :: _ => do
    s.checkInValidEventAction
    let joinSlice ← s.currentEventAction
    let s ← joinThreads joinSlice m.endThreads s
    return (m, s)

end MultiJoinHappensBefore

end R4
