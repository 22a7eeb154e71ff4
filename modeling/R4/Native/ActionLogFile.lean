import R4.Native.ActionLog
import R4.Native.StringSet

/-!
# The file of the action log

`ActionLog::saveToFile` and `loadFromFile` (`wtf/ActionLog.cpp`), and `ActionLogSave`
(`wtf/ActionLogReport.cpp`), which writes the action log between the sets of the strings that
its commands refer to. Structures are written as they lie in memory: their members are four
bytes each, without gaps.

A member of an enumeration that is read from a file has the value that stands there, also where no
enumerator has it. Such values are left out: the models of the enumerations hold the enumerators.
-/

namespace R4

open BinaryFile

/-- The value of the enumerator. -/
def ActionLogType.toInt : ActionLogType → Int
  | .unknown => 0
  | .timer => 1
  | .userInterface => 2
  | .network => 3
  | .continuation => 4

/-- A value that is read as an enumerator; others are not valid for the type. -/
def ActionLogType.ofInt? (n : Int) : Option ActionLogType :=
  if n = 0 then some .unknown
  else if n = 1 then some .timer
  else if n = 2 then some .userInterface
  else if n = 3 then some .network
  else if n = 4 then some .continuation
  else none

/-- The value of the enumerator. -/
def CommandType.toInt : CommandType → Int
  | .enterScope => 0
  | .exitScope => 1
  | .readMemory => 2
  | .writeMemory => 3
  | .triggerArc => 4
  | .memoryValue => 5

/-- A value that is read as an enumerator; others are not valid for the type. -/
def CommandType.ofInt? (n : Int) : Option CommandType :=
  if n = 0 then some .enterScope
  else if n = 1 then some .exitScope
  else if n = 2 then some .readMemory
  else if n = 3 then some .writeMemory
  else if n = 4 then some .triggerArc
  else if n = 5 then some .memoryValue
  else none

namespace ActionLog

/-! ## Writing -/

/-- `fwrite` of an `Arc`. -/
def writeArc (arc : Arc) : List UInt8 :=
  writeInt arc.tail ++ writeInt arc.head ++ writeInt arc.duration

/-- `fwrite` of a `Command`. -/
def writeCommand (c : Command) : List UInt8 := writeInt c.cmdType.toInt ++ writeInt c.location

/-- One event action: its `OperationHeader` and its commands. -/
def writeOperation (op : Int × EventAction) : List UInt8 :=
  writeInt op.1 ++ writeInt op.2.type.toInt ++ writeInt op.2.commands.length
    ++ op.2.commands.flatMap writeCommand

/-- `saveToFile`: the `ActionLogHeader`, the arcs, and the event actions in the order of the
    map. -/
def saveToFile (log : ActionLog) : List UInt8 :=
  writeInt log.eventActions.toList.length ++ writeInt log.arcs.length
    ++ log.arcs.flatMap writeArc ++ log.eventActions.toList.flatMap writeOperation

/-! ## Reading -/

/-- `fread` of an `Arc`. -/
def readArc : FileReader Arc := fun f => do
  let (tail, f) ← readInt f
  let (head, f) ← readInt f
  let (duration, f) ← readInt f
  return (⟨tail, head, duration⟩, f)

/-- `fread` of a `Command`. -/
def readCommand : FileReader Command := fun f => do
  let (cmdType, f) ← readInt f
  let (location, f) ← readInt f
  let cmdType ← CommandType.ofInt? cmdType
  return (⟨cmdType, location⟩, f)

/-- What the loop of `loadFromFile` reads of one event action. -/
def readOperation : FileReader (Int × EventAction) := fun f => do
  let (id, f) ← readInt f
  let (type, f) ← readInt f
  let (numCommands, f) ← readCount f
  let type ← ActionLogType.ofInt? type
  let (commands, f) ← readArray readCommand numCommands f
  return ((id, ⟨type, commands⟩), f)

/-- Storing an event action keeps the others. -/
theorem mem_insert_of_mem {log : ActionLog} {id : Int} (op : Int × EventAction)
    (h : id ∈ log.eventActions) : id ∈ log.eventActions.insert op.1 op.2 := by simp [h]

/-- The larger one of the new id and the maximum bounds the ids. -/
theorem maxBound_insert (log : ActionLog) (op : Int × EventAction) {n : Int}
    (hn : n = if op.1 > log.maxEventActionId then op.1 else log.maxEventActionId) :
    -1 ≤ n ∧ ∀ id ∈ log.eventActions.insert op.1 op.2, id ≤ n := by
  have hbound := log.maxBound
  constructor
  · split at hn <;> omega
  · intro id hid
    simp only [Std.ExtTreeMap.mem_insert, Std.LawfulEqCmp.compare_eq_iff_eq] at hid
    rcases hid with rfl | hid
    · split at hn <;> omega
    · have := hbound.2 id hid
      split at hn <;> omega

/-- It is the value that a log starts with, or one of the ids. -/
theorem maxAttained_insert (log : ActionLog) (op : Int × EventAction) {n : Int}
    (hn : n = if op.1 > log.maxEventActionId then op.1 else log.maxEventActionId) :
    n = -1 ∨ n ∈ log.eventActions.insert op.1 op.2 := by
  split at hn
  · subst hn
    exact Or.inr (by simp)
  · subst hn
    exact log.maxAttained.imp_right (mem_insert_of_mem op)

/-- The event action is stored, and the maximal id follows. -/
def storeOperation (log : ActionLog) (op : Int × EventAction) : ActionLog :=
  { log with
    eventActions := log.eventActions.insert op.1 op.2
    maxEventActionId := if op.1 > log.maxEventActionId then op.1 else log.maxEventActionId
    currentStarted := fun h => mem_insert_of_mem op (log.currentStarted h)
    pendingStarted := fun k p h => mem_insert_of_mem op (log.pendingStarted k p h)
    maxBound := maxBound_insert log op rfl
    maxAttained := maxAttained_insert log op rfl }

/-- The loop of `loadFromFile` over the event actions. -/
def loadOperations : Nat → ActionLog → FileReader ActionLog
  | 0, log, f => some (log, f)
  | n + 1, log, f => do
    let (op, f) ← readOperation f
    loadOperations n (log.storeOperation op) f

/-- `loadFromFile`. What the log holds already stays, except its arcs. -/
def loadFromFile (log : ActionLog) : FileReader ActionLog := fun f => do
  let (numOps, f) ← readInt f
  let (numArcs, f) ← readCount f
  let (arcs, f) ← readArray readArc numArcs f
  -- a negative count reads no event action
  loadOperations numOps.toNat { log with arcs := arcs } f

/-! ## Loads that are cut short -/

/-- `fread` of an `ActionLogHeader`: the numbers of the event actions and of the arcs. -/
def readHeader : FileReader (Int × Int) := fun f => do
  let (numOps, f) ← readInt f
  let (numArcs, f) ← readInt f
  return ((numOps, numArcs), f)

/-- `fread` of an `OperationHeader`. -/
def readOperationHeader : FileReader (Int × Int × Int) := fun f => do
  let (id, f) ← readInt f
  let (type, f) ← readInt f
  let (numCommands, f) ← readInt f
  return ((id, type, numCommands), f)

/-- `m_arcs.resize(n)`. -/
def resizeArcs (arcs : List Arc) (n : Nat) : List Arc :=
  (arcs ++ List.replicate n (⟨0, 0, 0⟩ : Arc)).take n

/-- The arcs after an `fread` that was cut short: the bytes that were left in the file lie over
    those that were there. -/
def overwriteArcs (arcs : List Arc) (f : List UInt8) : Option (List Arc) :=
  (readArray readArc arcs.length (f ++ (arcs.flatMap writeArc).drop f.length)).map Prod.fst

/-- The loop of `loadFromFile` over the event actions: the result, the log that is left and the
    rest of the file. An event action that is cut short is not stored. -/
def loadOperationsInto : Nat → ActionLog → List UInt8 → Option (Bool × ActionLog × List UInt8)
  | 0, log, f => some (true, log, f)
  | n + 1, log, f =>
    match readOperationHeader f with
    | none => some (false, log, [])
    | some ((id, type, numCommands), f) =>
      if numCommands < 0 then none
      else if f.length < 8 * numCommands.toNat then some (false, log, [])
      else do
        let type ← ActionLogType.ofInt? type
        let (commands, f) ← readArray readCommand numCommands.toNat f
        loadOperationsInto n (log.storeOperation (id, ⟨type, commands⟩)) f

/-- `loadFromFile`, whatever it returns. It ends with an exception when the number of arcs or of
    commands is negative. -/
def loadFromFileInto (log : ActionLog) (f : List UInt8) : Option (Bool × ActionLog × List UInt8) :=
  match readHeader f with
  | none => some (false, log, [])
  | some ((numOps, numArcs), f) =>
    if numArcs < 0 then none
    else if f.length < 12 * numArcs.toNat then
      (overwriteArcs (resizeArcs log.arcs numArcs.toNat) f).map fun arcs =>
        (false, { log with arcs := arcs }, [])
    else do
      let (arcs, f) ← readArray readArc numArcs.toNat f
      loadOperationsInto numOps.toNat { log with arcs := arcs } f

end ActionLog

/-! ## The whole file -/

/-- What a thread holds for its action log. -/
structure ActionLogData where
  variableSet : StringSet
  scopeSet : StringSet
  actionLog : ActionLog
  jsSet : StringSet
  dataSet : StringSet

/-- `ActionLogSave`. -/
def ActionLogData.save (d : ActionLogData) : List UInt8 :=
  d.variableSet.saveToFile ++ d.scopeSet.saveToFile ++ d.actionLog.saveToFile
    ++ d.jsSet.saveToFile ++ d.dataSet.saveToFile

/-- The five parts are loaded in the order in which `ActionLogSave` writes them, the action
    log into `log`. -/
def ActionLogData.load (stringHash : List UInt8 → Int) (log : ActionLog) :
    FileReader ActionLogData :=
  fun f => do
    let (variableSet, f) ← StringSet.loadFromFile stringHash f
    let (scopeSet, f) ← StringSet.loadFromFile stringHash f
    let (actionLog, f) ← log.loadFromFile f
    let (jsSet, f) ← StringSet.loadFromFile stringHash f
    let (dataSet, f) ← StringSet.loadFromFile stringHash f
    return (⟨variableSet, scopeSet, actionLog, jsSet, dataSet⟩, f)

end R4
