import Mathlib.Data.List.AList

/-!
# The action log

`ActionLog` (`wtf/ActionLog.h`, `ActionLog.cpp`): the event actions of a run with the
commands that they executed, and the happens-before arcs between them. The race detector
reads it from a file after the run.

A `std::map` is a `Std.ExtTreeMap`, so that two logs with the same entries are equal. The
members `currentStarted` and `pendingStarted` say that the ids by which the source looks up
an `EventAction*` have one.
-/

namespace R4

/-- `ActionLog::EventActionType`. -/
inductive ActionLogType where
  | unknown
  | timer
  | userInterface
  | network
  | continuation
deriving DecidableEq, Repr

/-- `ActionLog::CommandType`. -/
inductive CommandType where
  | enterScope
  | exitScope
  | readMemory
  | writeMemory
  | triggerArc
  | memoryValue
deriving DecidableEq, Repr

/-- Reads and writes, of which an event action logs each once. -/
def CommandType.isAccess (command : CommandType) : Bool :=
  command = .readMemory ∨ command = .writeMemory

/-- `ActionLog::Command`. -/
structure Command where
  cmdType : CommandType
  location : Int
deriving DecidableEq

/-- `ActionLog::Arc`. The duration is -1 if it is unknown. -/
structure Arc where
  tail : Int
  head : Int
  duration : Int
deriving DecidableEq

/-- `ActionLog::EventAction`. -/
structure EventAction where
  type : ActionLogType
  commands : List Command
deriving DecidableEq

/-- `EventAction()`. -/
def EventAction.empty : EventAction := ⟨.unknown, []⟩

/-- `ActionLog::PendingTriggerArc`. -/
structure PendingTriggerArc where
  operationId : Int
  commandId : Nat
deriving DecidableEq

/-- The action log. An `eventId` is the address of an object. -/
@[ext] structure ActionLog where
  eventActions : Std.ExtTreeMap Int EventAction
  scopeDepth : Int
  maxEventActionId : Int
  arcs : List Arc
  pendingTriggerArcs : Std.ExtTreeMap Int PendingTriggerArc
  currentEventActionId : Int
  cmdsInCurrentEvent : List Command
  currentStarted : currentEventActionId ≠ -1 → currentEventActionId ∈ eventActions
  pendingStarted : ∀ (k : Int) (p : PendingTriggerArc), pendingTriggerArcs[k]? = some p →
    p.operationId ∈ eventActions
  maxBound : -1 ≤ maxEventActionId ∧ ∀ id ∈ eventActions, id ≤ maxEventActionId
  maxAttained : maxEventActionId = -1 ∨ maxEventActionId ∈ eventActions

namespace ActionLog

/-- `ActionLog()`. -/
def init : ActionLog where
  eventActions := ∅
  scopeDepth := 0
  maxEventActionId := -1
  arcs := []
  pendingTriggerArcs := ∅
  currentEventActionId := -1
  cmdsInCurrentEvent := []
  currentStarted h := absurd rfl h
  pendingStarted k p h := by simp at h
  maxBound := ⟨Int.le_refl _, fun id h => by simp at h⟩
  maxAttained := Or.inl rfl

/-- `event_action(i)`: an id that has not been started has an empty event action. -/
def eventAction (log : ActionLog) (i : Int) : EventAction :=
  log.eventActions[i]?.getD .empty

/-- The stored event action is changed; there is none to change for an id that has not been
    started. -/
def modifyEventAction (log : ActionLog) (i : Int) (f : EventAction → EventAction) : ActionLog :=
  { log with
    eventActions := log.eventActions.modify i f
    currentStarted := by simpa [Std.ExtTreeMap.mem_modify] using log.currentStarted
    pendingStarted := by simpa [Std.ExtTreeMap.mem_modify] using log.pendingStarted
    maxBound := by simpa [Std.ExtTreeMap.mem_modify] using log.maxBound
    maxAttained := by simpa [Std.ExtTreeMap.mem_modify] using log.maxAttained }

/-! ## Arcs and event actions -/

/-- `addArc`. -/
def addArc (log : ActionLog) (earlierOperation laterOperation arcDuration : Int) : ActionLog :=
  { log with arcs := log.arcs ++ [⟨earlierOperation, laterOperation, arcDuration⟩] }

/-- `startEventAction`. An event action that is started again keeps its commands. -/
def startEventAction (log : ActionLog) (operation : Int) : ActionLog :=
  { log with
    currentEventActionId := operation
    eventActions := log.eventActions.insertIfNew operation .empty
    maxEventActionId := if operation > log.maxEventActionId then operation else log.maxEventActionId
    cmdsInCurrentEvent := []
    scopeDepth := 0
    currentStarted := fun _ => by simp
    pendingStarted := fun k p h => by simp [log.pendingStarted k p h]
    maxBound := by
      have hbound := log.maxBound
      constructor
      · split <;> omega
      · intro id hid
        simp only [Std.ExtTreeMap.mem_insertIfNew, Std.LawfulEqCmp.compare_eq_iff_eq] at hid
        rcases hid with rfl | hid
        · split <;> omega
        · have := hbound.2 id hid
          split <;> omega
    maxAttained := by
      split
      · exact Or.inr (by simp)
      · exact log.maxAttained.imp_right fun h => by simp [h] }

/-- `endEventAction`: whether an event action was started. -/
def endEventAction (log : ActionLog) : Bool × ActionLog :=
  (log.currentEventActionId ≠ -1,
    { log with
      currentEventActionId := -1
      cmdsInCurrentEvent := []
      scopeDepth := 0
      currentStarted := fun h => absurd rfl h })

/-- `setEventActionType`. -/
def setEventActionType (log : ActionLog) (type : ActionLogType) : Bool × ActionLog :=
  if log.currentEventActionId = -1 then (false, log)
  else (true, log.modifyEventAction log.currentEventActionId fun a => { a with type := type })

/-! ## Commands -/

/-- `current_cmds`. -/
def currentCmds (log : ActionLog) : List Command :=
  (log.eventAction log.currentEventActionId).commands

/-- The commands of the current event action are replaced. -/
def setCurrentCmds (log : ActionLog) (cmds : List Command) : ActionLog :=
  log.modifyEventAction log.currentEventActionId fun a => { a with commands := cmds }

/-- `willLogCommand`: a value is logged behind a read or a write only. -/
def willLogCommand (log : ActionLog) (command : CommandType) : Bool :=
  if log.currentEventActionId = -1 then false
  else if command = .memoryValue then
    match log.currentCmds.getLast? with
    | none => false
    | some lastc => lastc.cmdType = .readMemory ∨ lastc.cmdType = .writeMemory
  else true

/-- What `logCommand` remembers of a command: an access, or the depth of the scopes. -/
def noteCommand (log : ActionLog) (c : Command) : ActionLog :=
  { log with
    cmdsInCurrentEvent :=
      if c.cmdType.isAccess then log.cmdsInCurrentEvent ++ [c] else log.cmdsInCurrentEvent
    scopeDepth :=
      match c.cmdType with
      | .enterScope => log.scopeDepth + 1
      | .exitScope => log.scopeDepth - 1
      | _ => log.scopeDepth }

/-- The command is appended, but the exit of a scope in which nothing happened removes its
    entry. -/
def storeCommand (log : ActionLog) (c : Command) : ActionLog :=
  if c.cmdType = .exitScope ∧ log.currentCmds.getLast?.map Command.cmdType = some .enterScope then
    log.setCurrentCmds log.currentCmds.dropLast
  else log.setCurrentCmds (log.currentCmds ++ [c])

/-- `logCommand`. A read or write that the event action has logged already is dropped. -/
def logCommand (log : ActionLog) (command : CommandType) (memoryLocation : Int) :
    Bool × ActionLog :=
  if log.currentEventActionId = -1 then (false, log)
  -- not an error: such a command is not of interest
  else if log.willLogCommand command = false then (true, log)
  else
    let c : Command := ⟨command, memoryLocation⟩
    if command.isAccess ∧ c ∈ log.cmdsInCurrentEvent then (true, log)
    else (true, (log.noteCommand c).storeCommand c)

/-- `enterScope`. -/
def enterScope (log : ActionLog) (scopeId : Int) : Bool × ActionLog :=
  log.logCommand .enterScope scopeId

/-- `exitScope`. -/
def exitScope (log : ActionLog) : Bool × ActionLog := log.logCommand .exitScope (-1)

/-- `triggerEvent`: the current event action will have triggered the event. -/
def triggerEvent (log : ActionLog) (eventId : Int) : ActionLog :=
  if h : log.currentEventActionId = -1 then log
  else
    -- the location is filled in when the event is triggered
    { log.setCurrentCmds (log.currentCmds ++ [⟨.triggerArc, -1⟩]) with
      pendingTriggerArcs := log.pendingTriggerArcs.insert eventId
        ⟨log.currentEventActionId, log.currentCmds.length⟩
      pendingStarted := fun k p hp => by
        simp only [Std.ExtTreeMap.getElem?_insert] at hp
        simp only [setCurrentCmds, modifyEventAction, Std.ExtTreeMap.mem_modify]
        split at hp
        · obtain rfl := Option.some.inj hp
          exact log.currentStarted h
        · exact log.pendingStarted k p hp }

/-- `eventTriggered`: the current event action was triggered by the one that is pending for
    the event. -/
def eventTriggered (log : ActionLog) (eventId : Int) : ActionLog :=
  if log.currentEventActionId = -1 then log
  else
    match log.pendingTriggerArcs[eventId]? with
    -- nothing has said that it triggers this event
    | none => log
    | some arc =>
      { log.modifyEventAction arc.operationId fun a => { a with
          commands := a.commands.modify arc.commandId fun c =>
            { c with location := log.currentEventActionId } } with
        -- each trigger is used once
        pendingTriggerArcs := log.pendingTriggerArcs.erase eventId
        pendingStarted := fun k p hp => by
          simp only [Std.ExtTreeMap.getElem?_erase] at hp
          simp only [modifyEventAction, Std.ExtTreeMap.mem_modify]
          split at hp
          · simp at hp
          · exact log.pendingStarted k p hp }

/-! ## Only `addArc` adds an arc -/

@[simp] theorem modifyEventAction_arcs (log : ActionLog) (i : Int) (f : EventAction → EventAction) :
    (log.modifyEventAction i f).arcs = log.arcs := rfl

/-- An arc is added behind the others. -/
@[simp] theorem addArc_arcs (log : ActionLog) (earlier later duration : Int) :
    (log.addArc earlier later duration).arcs = log.arcs ++ [⟨earlier, later, duration⟩] := rfl

@[simp] theorem startEventAction_arcs (log : ActionLog) (operation : Int) :
    (log.startEventAction operation).arcs = log.arcs := rfl

@[simp] theorem endEventAction_arcs (log : ActionLog) :
    log.endEventAction.2.arcs = log.arcs := rfl

/-- Setting a type adds no arc. -/
@[simp] theorem setEventActionType_arcs (log : ActionLog) (type : ActionLogType) :
    (log.setEventActionType type).2.arcs = log.arcs := by
  unfold setEventActionType
  split <;> rfl

/-- A command adds no arc. -/
@[simp] theorem logCommand_arcs (log : ActionLog) (command : CommandType) (location : Int) :
    (log.logCommand command location).2.arcs = log.arcs := by
  unfold logCommand
  split
  · rfl
  · split
    · rfl
    · dsimp only
      split
      · rfl
      · unfold storeCommand
        split <;> rfl

/-- A trigger adds no arc. -/
@[simp] theorem triggerEvent_arcs (log : ActionLog) (eventId : Int) :
    (log.triggerEvent eventId).arcs = log.arcs := by
  unfold triggerEvent
  split <;> rfl

/-- Nor does the event that was triggered. -/
@[simp] theorem eventTriggered_arcs (log : ActionLog) (eventId : Int) :
    (log.eventTriggered eventId).arcs = log.arcs := by
  unfold eventTriggered
  split
  · rfl
  · split <;> rfl

end ActionLog

end R4
