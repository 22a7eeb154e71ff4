import R4.ForStd.List
import R4.Native.ActionLogFile
import R4.Spec.StringSetTable

/-!
# The file of the action log is read back

The file has no marks between its parts. Every array stands behind its count, so a reader that
takes exactly what was written of one part is at the start of the next.

## Key results

- `loadFromFileInto_eq_true_iff`: when `loadFromFile` returns true
- `intFields_of_built`: all members of a log are values of `int`
- `ActionLog.reads_saveToFile`: a log is read back from its file
- `action_log_file_round_trip`: so are the five parts, one behind the other
- `cut_short_set_not_read_back`: not so a set into which a file was loaded that is cut short
-/

namespace R4

open BinaryFile

namespace ActionLog

/-! ## Logs that have been built -/

/-- Every member that is written to a file is an `int`. -/
structure IntFields (log : ActionLog) : Prop where
  current : IsInt log.currentEventActionId
  arcs : ∀ arc ∈ log.arcs, IsInt arc.tail ∧ IsInt arc.head ∧ IsInt arc.duration
  ids : ∀ id ∈ log.eventActions, IsInt id
  locations : ∀ (id : Int) (a : EventAction), log.eventActions[id]? = some a →
    ∀ c ∈ a.commands, IsInt c.location

/-- Logs that are built by the operations, on arguments of type `int`. A log is also built on after
    a load that returned false. -/
inductive Built : ActionLog → Prop where
  | init : Built ActionLog.init
  | addArc {log : ActionLog} {earlier later duration : Int} (built : Built log)
      (hearlier : IsInt earlier) (hlater : IsInt later) (hduration : IsInt duration) :
      Built (log.addArc earlier later duration)
  | startEventAction {log : ActionLog} {operation : Int} (built : Built log)
      (h : IsInt operation) : Built (log.startEventAction operation)
  | endEventAction {log : ActionLog} (built : Built log) : Built log.endEventAction.2
  | setEventActionType {log : ActionLog} (built : Built log) (type : ActionLogType) :
      Built (log.setEventActionType type).2
  | logCommand {log : ActionLog} {location : Int} (built : Built log) (command : CommandType)
      (h : IsInt location) : Built (log.logCommand command location).2
  | triggerEvent {log : ActionLog} (built : Built log) (eventId : Int) :
      Built (log.triggerEvent eventId)
  | eventTriggered {log : ActionLog} (built : Built log) (eventId : Int) :
      Built (log.eventTriggered eventId)
  | loadFromFile {log log' : ActionLog} {f rest : List UInt8} {result : Bool} (built : Built log)
      (h : log.loadFromFileInto f = some (result, log', rest)) : Built log'

/-- Changing an event action keeps the fields in range if its locations stay there. -/
theorem IntFields.modify {log : ActionLog} (h : IntFields log) (i : Int)
    {f : EventAction → EventAction}
    (hf : ∀ a, (∀ c ∈ a.commands, IsInt c.location) → ∀ c ∈ (f a).commands, IsInt c.location) :
    IntFields (log.modifyEventAction i f) where
  current := h.current
  arcs := h.arcs
  ids id hid := h.ids id (by simpa [modifyEventAction, Std.ExtTreeMap.mem_modify] using hid)
  locations id a ha := by
    simp only [modifyEventAction, Std.ExtTreeMap.getElem?_modify,
      Std.LawfulEqCmp.compare_eq_iff_eq] at ha
    split at ha
    · obtain ⟨a₀, ha₀, rfl⟩ := Option.map_eq_some_iff.mp ha
      rename_i hid
      exact hf a₀ (h.locations i a₀ (by simpa [hid] using ha₀))
    · exact h.locations id a ha

/-- The commands of the current event action, as `current_cmds` gives them. -/
theorem IntFields.currentCmds {log : ActionLog} (h : IntFields log) :
    ∀ c ∈ log.currentCmds, IsInt c.location := by
  intro c hc
  unfold ActionLog.currentCmds eventAction at hc
  cases ha : log.eventActions[log.currentEventActionId]? with
  | none =>
    rw [ha] at hc
    exact absurd hc List.not_mem_nil
  | some a =>
    rw [ha] at hc
    exact h.locations _ a ha c hc

/-- So does replacing the commands of the current one. -/
theorem IntFields.setCurrentCmds {log : ActionLog} (h : IntFields log) {cmds : List Command}
    (hcmds : ∀ c ∈ cmds, IsInt c.location) : IntFields (log.setCurrentCmds cmds) :=
  h.modify _ fun _ _ => hcmds

/-- So does a command with a location in range. -/
theorem IntFields.logCommand {log : ActionLog} (h : IntFields log) (command : CommandType)
    {location : Int} (hlocation : IsInt location) :
    IntFields (log.logCommand command location).2 := by
  have hnote : IntFields (log.noteCommand ⟨command, location⟩) :=
    ⟨h.current, h.arcs, h.ids, h.locations⟩
  unfold ActionLog.logCommand
  split
  · exact h
  · split
    · exact h
    · dsimp only
      split
      · exact h
      · -- an empty scope is removed again, any other command is appended
        unfold storeCommand
        split
        · exact hnote.setCurrentCmds fun c hc =>
            hnote.currentCmds c (List.dropLast_subset _ hc)
        · apply hnote.setCurrentCmds
          intro c hc
          rcases List.mem_append.mp hc with hc | hc
          · exact hnote.currentCmds c hc
          · obtain rfl := List.mem_singleton.mp hc
            exact hlocation

/-- So does an event that is triggered. -/
theorem IntFields.triggerEvent {log : ActionLog} (h : IntFields log) (eventId : Int) :
    IntFields (log.triggerEvent eventId) := by
  unfold ActionLog.triggerEvent
  split
  · exact h
  · have hcmds : IntFields (log.setCurrentCmds (log.currentCmds ++ [⟨.triggerArc, -1⟩])) := by
      apply h.setCurrentCmds
      intro c hc
      rcases List.mem_append.mp hc with hc | hc
      · exact h.currentCmds c hc
      · obtain rfl := List.mem_singleton.mp hc
        show IsInt (-1)
        decide
    exact ⟨hcmds.current, hcmds.arcs, hcmds.ids, hcmds.locations⟩

/-- So does one that was triggered. -/
theorem IntFields.eventTriggered {log : ActionLog} (h : IntFields log) (eventId : Int) :
    IntFields (log.eventTriggered eventId) := by
  unfold ActionLog.eventTriggered
  split
  · exact h
  · split
    · exact h
    · -- the command that triggered is given the current event action
      rename_i arc _
      have hmodify := h.modify arc.operationId
        (f := fun a => { a with commands := a.commands.modify arc.commandId fun c =>
          { c with location := log.currentEventActionId } })
        fun a ha => List.forall_mem_modify ha (fun _ _ => h.current) _
      exact ⟨hmodify.current, hmodify.arcs, hmodify.ids, hmodify.locations⟩

/-- So does the start of an event action with an id in range. -/
theorem IntFields.startEventAction {log : ActionLog} (h : IntFields log) {operation : Int}
    (hoperation : IsInt operation) : IntFields (log.startEventAction operation) where
  current := hoperation
  arcs := h.arcs
  ids id hid := by
    simp only [ActionLog.startEventAction, Std.ExtTreeMap.mem_insertIfNew,
      Std.LawfulEqCmp.compare_eq_iff_eq] at hid
    -- the new event action, or one that was there
    rcases hid with rfl | hid
    · exact hoperation
    · exact h.ids id hid
  locations id a ha := by
    simp only [ActionLog.startEventAction, Std.ExtTreeMap.getElem?_insertIfNew,
      Std.LawfulEqCmp.compare_eq_iff_eq] at ha
    -- the new one has no commands yet
    split at ha
    · obtain rfl := Option.some.inj ha
      exact fun c hc => absurd hc List.not_mem_nil
    · exact h.locations id a ha

/-- So does an event action that is stored from a file. -/
theorem IntFields.storeOperation {log : ActionLog} (h : IntFields log) {op : Int × EventAction}
    (hid : IsInt op.1) (hlocations : ∀ c ∈ op.2.commands, IsInt c.location) :
    IntFields (log.storeOperation op) where
  current := h.current
  arcs := h.arcs
  ids id hmem := by
    simp only [ActionLog.storeOperation, Std.ExtTreeMap.mem_insert,
      Std.LawfulEqCmp.compare_eq_iff_eq] at hmem
    -- the one that is stored, or another one
    rcases hmem with rfl | hmem
    · exact hid
    · exact h.ids id hmem
  locations id a ha := by
    simp only [ActionLog.storeOperation, Std.ExtTreeMap.getElem?_insert,
      Std.LawfulEqCmp.compare_eq_iff_eq] at ha
    -- its locations are in range
    split at ha
    · obtain rfl := Option.some.inj ha
      exact hlocations
    · exact h.locations id a ha

/-- What is read as an arc is in range. -/
theorem isInt_of_readArc {f rest : List UInt8} {arc : Arc} (h : readArc f = some (arc, rest)) :
    IsInt arc.tail ∧ IsInt arc.head ∧ IsInt arc.duration := by
  simp only [readArc, Option.bind_eq_bind, Option.bind_eq_some_iff, Option.pure_def,
    Option.some.injEq, Prod.mk.injEq] at h
  obtain ⟨⟨tail, f₁⟩, htail, ⟨head, f₂⟩, hhead, ⟨duration, f₃⟩, hduration, rfl, -⟩ := h
  exact ⟨isInt_of_readInt htail, isInt_of_readInt hhead, isInt_of_readInt hduration⟩

/-- What is read as a location is in range. -/
theorem isInt_of_readCommand {f rest : List UInt8} {c : Command}
    (h : readCommand f = some (c, rest)) : IsInt c.location := by
  simp only [readCommand, Option.bind_eq_bind, Option.bind_eq_some_iff, Option.pure_def,
    Option.some.injEq, Prod.mk.injEq] at h
  obtain ⟨⟨cmdType, f₁⟩, -, ⟨location, f₂⟩, hlocation, _, -, rfl, -⟩ := h
  exact isInt_of_readInt hlocation

/-- What is left when the loop has ended, at the end of the file or before. -/
theorem IntFields.loadOperationsInto {n : Nat} {log log' : ActionLog} {f rest : List UInt8}
    {result : Bool} (h : IntFields log)
    (hload : loadOperationsInto n log f = some (result, log', rest)) : IntFields log' := by
  induction n generalizing log f with
  | zero =>
    simp only [ActionLog.loadOperationsInto, Option.some.injEq, Prod.mk.injEq] at hload
    obtain ⟨-, rfl, -⟩ := hload
    exact h
  | succ n ih =>
    unfold ActionLog.loadOperationsInto at hload
    split at hload
    · -- no header was left
      simp only [Option.some.injEq, Prod.mk.injEq] at hload
      obtain ⟨-, rfl, -⟩ := hload
      exact h
    · rename_i id type numCommands f₁ hheader
      split at hload
      · exact nomatch hload
      · split at hload
        · -- the commands are cut short
          simp only [Option.some.injEq, Prod.mk.injEq] at hload
          obtain ⟨-, rfl, -⟩ := hload
          exact h
        · simp only [Option.bind_eq_bind, Option.bind_eq_some_iff] at hload
          obtain ⟨type, -, ⟨commands, f₂⟩, hcommands, hload⟩ := hload
          refine ih (h.storeOperation ?_ (forall_of_readArray isInt_of_readCommand hcommands)) hload
          simp only [readOperationHeader, Option.bind_eq_bind, Option.bind_eq_some_iff,
            Option.pure_def, Option.some.injEq, Prod.mk.injEq] at hheader
          obtain ⟨⟨_, _⟩, hid, _, -, _, -, ⟨rfl, -⟩, -⟩ := hheader
          exact isInt_of_readInt hid

/-- What is left of a log after a load. -/
theorem IntFields.loadFromFileInto {log log' : ActionLog} {f rest : List UInt8} {result : Bool}
    (h : IntFields log) (hload : log.loadFromFileInto f = some (result, log', rest)) :
    IntFields log' := by
  unfold ActionLog.loadFromFileInto at hload
  split at hload
  · -- no header was left
    simp only [Option.some.injEq, Prod.mk.injEq] at hload
    obtain ⟨-, rfl, -⟩ := hload
    exact h
  · split at hload
    · exact nomatch hload
    · split at hload
      · -- every arc is made of four-byte members, also where bytes of two files meet
        obtain ⟨arcs, harcs, heq⟩ := Option.map_eq_some_iff.mp hload
        simp only [Prod.mk.injEq] at heq
        obtain ⟨-, rfl, -⟩ := heq
        obtain ⟨⟨arcs, f₁⟩, hread, rfl⟩ := Option.map_eq_some_iff.mp harcs
        exact ⟨h.current, forall_of_readArray isInt_of_readArc hread, h.ids, h.locations⟩
      · simp only [Option.bind_eq_bind, Option.bind_eq_some_iff] at hload
        obtain ⟨⟨arcs, f₁⟩, harcs, hload⟩ := hload
        refine IntFields.loadOperationsInto ?_ hload
        exact ⟨h.current, forall_of_readArray isInt_of_readArc harcs, h.ids, h.locations⟩

/-- All members of a log are values of `int`. -/
theorem intFields_of_built {log : ActionLog} (built : Built log) : IntFields log := by
  induction built with
  | init =>
    -- the empty log
    exact ⟨by decide, fun arc harc => absurd harc List.not_mem_nil,
      fun id hid => by simp [ActionLog.init] at hid,
      fun id a ha => by simp [ActionLog.init] at ha⟩
  | addArc _ hearlier hlater hduration ih =>
    -- an arc is in range if what it is made of is
    refine ⟨ih.current, fun arc harc => ?_, ih.ids, ih.locations⟩
    rcases List.mem_append.mp harc with harc | harc
    · exact ih.arcs arc harc
    · obtain rfl := List.mem_singleton.mp harc
      exact ⟨hearlier, hlater, hduration⟩
  | startEventAction _ h ih => exact ih.startEventAction h
  | endEventAction _ ih =>
    -- outside of event actions the id is minus one
    have hidle : IsInt (-1) := by decide
    exact ⟨hidle, ih.arcs, ih.ids, ih.locations⟩
  | setEventActionType _ type ih =>
    unfold ActionLog.setEventActionType
    split
    · exact ih
    · exact ih.modify _ fun _ ha => ha
  | logCommand _ command h ih => exact ih.logCommand command h
  | triggerEvent _ eventId ih => exact ih.triggerEvent eventId
  | eventTriggered _ eventId ih => exact ih.eventTriggered eventId
  | loadFromFile _ h ih => exact ih.loadFromFileInto h

/-! ## Loads that return true -/

/-- An arc takes twelve bytes. -/
theorem length_of_readArc {f rest : List UInt8} {arc : Arc} (h : readArc f = some (arc, rest)) :
    f.length = 12 + rest.length := by
  simp only [readArc, Option.bind_eq_bind, Option.bind_eq_some_iff, Option.pure_def,
    Option.some.injEq, Prod.mk.injEq] at h
  obtain ⟨⟨tail, f₁⟩, htail, ⟨head, f₂⟩, hhead, ⟨duration, f₃⟩, hduration, -, rfl⟩ := h
  rw [length_of_readInt htail, length_of_readInt hhead, length_of_readInt hduration,
    ← Nat.add_assoc, ← Nat.add_assoc]

/-- A command takes eight bytes. -/
theorem length_of_readCommand {f rest : List UInt8} {c : Command}
    (h : readCommand f = some (c, rest)) : f.length = 8 + rest.length := by
  simp only [readCommand, Option.bind_eq_bind, Option.bind_eq_some_iff, Option.pure_def,
    Option.some.injEq, Prod.mk.injEq] at h
  obtain ⟨⟨cmdType, f₁⟩, htype, ⟨location, f₂⟩, hlocation, _, -, -, rfl⟩ := h
  rw [length_of_readInt htype, length_of_readInt hlocation, ← Nat.add_assoc]

/-- The loop returns true exactly if every event action can be read. -/
theorem loadOperationsInto_eq_true_iff {n : Nat} {log log' : ActionLog} {f rest : List UInt8} :
    loadOperationsInto n log f = some (true, log', rest) ↔
      loadOperations n log f = some (log', rest) := by
  induction n generalizing log f with
  | zero => simp [loadOperationsInto, loadOperations]
  | succ n ih =>
    unfold loadOperationsInto loadOperations readOperation readOperationHeader readCount
    cases hid : readInt f with
    | none => simp
    | some idRead =>
      obtain ⟨id, f₁⟩ := idRead
      cases htype : readInt f₁ with
      | none => simp [htype]
      | some typeRead =>
        obtain ⟨type, f₂⟩ := typeRead
        cases hnum : readInt f₂ with
        | none => simp [htype, hnum]
        | some numRead =>
          obtain ⟨numCommands, f₃⟩ := numRead
          simp only [htype, hnum, Option.bind_eq_bind, Option.bind_some, Option.pure_def]
          split
          · simp
          · split
            · -- the commands are cut short, so they cannot be read as an array
              rename_i hshort
              have hnone : readArray readCommand numCommands.toNat f₃ = none := by
                refine Option.eq_none_iff_forall_ne_some.mpr fun read hread => ?_
                have := length_of_readArray length_of_readCommand hread
                omega
              simp [hnone]
            · rw [Option.bind_some]
              cases ActionLogType.ofInt? type with
              | none => simp
              | some type =>
                simp only [Option.bind_some]
                cases readArray readCommand numCommands.toNat f₃ with
                | none => simp
                | some read => exact ih

/-- `loadFromFile` returns true exactly if the arcs and every event action can be read. -/
theorem loadFromFileInto_eq_true_iff {log log' : ActionLog} {f rest : List UInt8} :
    log.loadFromFileInto f = some (true, log', rest) ↔
      log.loadFromFile f = some (log', rest) := by
  unfold loadFromFileInto loadFromFile readHeader readCount
  cases hops : readInt f with
  | none => simp
  | some opsRead =>
    obtain ⟨numOps, f₁⟩ := opsRead
    cases hnum : readInt f₁ with
    | none => simp [hnum]
    | some numRead =>
      obtain ⟨numArcs, f₂⟩ := numRead
      simp only [hnum, Option.bind_eq_bind, Option.bind_some, Option.pure_def]
      split
      · simp
      · split
        · -- the arcs are cut short
          rename_i hshort
          have hnone : readArray readArc numArcs.toNat f₂ = none := by
            refine Option.eq_none_iff_forall_ne_some.mpr fun read hread => ?_
            have := length_of_readArray length_of_readArc hread
            omega
          simp [hnone]
        · rw [Option.bind_some]
          cases readArray readArc numArcs.toNat f₂ with
          | none => simp
          | some read => exact loadOperationsInto_eq_true_iff

/-! ## Reading a log -/

/-- The counts of a log are values of `int`. -/
structure IntCounts (log : ActionLog) : Prop where
  eventActions : log.eventActions.toList.length < 2 ^ 31
  arcs : log.arcs.length < 2 ^ 31
  commands : ∀ (id : Int) (a : EventAction), log.eventActions[id]? = some a →
    a.commands.length < 2 ^ 31

/-- An arc in range is read back. -/
theorem reads_writeArc {arc : Arc} (h : IsInt arc.tail ∧ IsInt arc.head ∧ IsInt arc.duration) :
    Reads readArc (writeArc arc) arc := by
  intro rest
  simp only [readArc, writeArc, List.append_assoc, reads_writeInt h.1 _, reads_writeInt h.2.1 _,
    reads_writeInt h.2.2 _, Option.bind_eq_bind, Option.bind_some, Option.pure_def]

/-- A command with a location in range is read back. -/
theorem reads_writeCommand {c : Command} (h : IsInt c.location) :
    Reads readCommand (writeCommand c) c := by
  intro rest
  have hint : IsInt c.cmdType.toInt := by cases c.cmdType <;> decide
  have htype : CommandType.ofInt? c.cmdType.toInt = some c.cmdType := by cases c.cmdType <;> rfl
  simp only [readCommand, writeCommand, List.append_assoc, reads_writeInt hint _,
    reads_writeInt h _, htype, Option.bind_eq_bind, Option.bind_some, Option.pure_def]

/-- An event action whose fields are in range is read back. -/
theorem reads_writeOperation {op : Int × EventAction} (hid : IsInt op.1)
    (hcount : op.2.commands.length < 2 ^ 31) (hlocations : ∀ c ∈ op.2.commands, IsInt c.location) :
    Reads readOperation (writeOperation op) op := by
  intro rest
  have hint : IsInt op.2.type.toInt := by cases op.2.type <;> decide
  have htype : ActionLogType.ofInt? op.2.type.toInt = some op.2.type := by
    cases op.2.type <;> rfl
  have hcommands : Reads (readArray readCommand op.2.commands.length)
      (op.2.commands.flatMap writeCommand) op.2.commands :=
    Reads.array fun c hc => reads_writeCommand (hlocations c hc)
  simp only [readOperation, writeOperation, List.append_assoc, reads_writeInt hid _,
    reads_writeInt hint _, reads_count hcount _, htype, hcommands _, Option.bind_eq_bind,
    Option.bind_some, Option.pure_def]

/-- The event actions are stored one after the other. -/
theorem reads_loadOperations {ops : List (Int × EventAction)}
    (h : ∀ op ∈ ops, Reads readOperation (writeOperation op) op) (log : ActionLog) :
    Reads (loadOperations ops.length log) (ops.flatMap writeOperation)
      (ops.foldl storeOperation log) := by
  induction ops generalizing log with
  | nil => exact fun rest => rfl
  | cons op ops ih =>
    intro rest
    rw [List.flatMap_cons, List.append_assoc, List.length_cons, loadOperations,
      h op List.mem_cons_self, Option.bind_eq_bind, Option.bind_some]
    exact ih (fun op hop => h op (List.mem_cons_of_mem _ hop)) _ rest

/-! ## What is stored -/

/-- Storing event actions keeps the arcs. -/
theorem foldl_storeOperation_arcs (ops : List (Int × EventAction)) (log : ActionLog) :
    (ops.foldl storeOperation log).arcs = log.arcs := by
  induction ops generalizing log with
  | nil => rfl
  | cons op ops ih => exact ih _

/-- The event actions are stored in the order of the file. -/
theorem foldl_storeOperation_eventActions (ops : List (Int × EventAction)) (log : ActionLog) :
    (ops.foldl storeOperation log).eventActions = log.eventActions.insertMany ops := by
  induction ops generalizing log with
  | nil => exact Std.ExtTreeMap.insertMany_nil.symm
  | cons op ops ih =>
    rw [List.foldl_cons, ih, Std.ExtTreeMap.insertMany_cons]
    rfl

/-- The maximum is found again: it is one of the ids, or the value that a log starts with. -/
theorem foldl_storeOperation_max {ops : List (Int × EventAction)} {log : ActionLog} {n : Int}
    (hbound : log.maxEventActionId ≤ n ∧ ∀ op ∈ ops, op.1 ≤ n)
    (hattained : log.maxEventActionId = n ∨ ∃ op ∈ ops, op.1 = n) :
    (ops.foldl storeOperation log).maxEventActionId = n := by
  induction ops generalizing log with
  | nil => simpa using hattained
  | cons op ops ih =>
    have hop := hbound.2 op List.mem_cons_self
    have hmax : (log.storeOperation op).maxEventActionId =
        if op.1 > log.maxEventActionId then op.1 else log.maxEventActionId := rfl
    rw [List.foldl_cons]
    apply ih
    · refine ⟨?_, fun op' hop' => hbound.2 op' (List.mem_cons_of_mem _ hop')⟩
      rw [hmax]
      split
      · exact hop
      · exact hbound.1
    · -- the maximum is the start, this id, or one that is still to come
      rw [hmax]
      rcases hattained with hlog | ⟨op', hop', hn⟩
      · left
        split <;> omega
      · rcases List.mem_cons.mp hop' with rfl | hop'
        · left
          split <;> omega
        · exact Or.inr ⟨op', hop', hn⟩

/-- A map is made again from its entries. -/
theorem insertMany_toList {β : Type} (m : Std.ExtTreeMap Int β) :
    (∅ : Std.ExtTreeMap Int β).insertMany m.toList = m := by
  refine Std.ExtTreeMap.ext_getElem? fun k => ?_
  cases hk : m[k]? with
  | some v =>
    exact Std.ExtTreeMap.getElem?_insertMany_list_of_mem Std.ReflCmp.compare_self
      Std.ExtTreeMap.distinct_keys_toList (Std.ExtTreeMap.mem_toList_iff_getElem?_eq_some.mpr hk)
  | none =>
    rw [Std.ExtTreeMap.getElem?_insertMany_list_of_contains_eq_false]
    · simp
    · rw [Std.ExtTreeMap.map_fst_toList_eq_keys]
      simpa using hk

/-- What of a log is kept in its file. -/
structure SameContents (log log' : ActionLog) : Prop where
  arcs : log'.arcs = log.arcs
  eventActions : log'.eventActions = log.eventActions
  maxEventActionId : log'.maxEventActionId = log.maxEventActionId

/-- A log is read back from its file. -/
theorem reads_saveToFile {log : ActionLog} (built : Built log) (counts : IntCounts log) :
    ∃ log', Reads ActionLog.init.loadFromFile log.saveToFile log' ∧ SameContents log log' := by
  have fields := intFields_of_built built
  have hentry : ∀ op ∈ log.eventActions.toList, log.eventActions[op.1]? = some op.2 := fun op hop =>
    Std.ExtTreeMap.mem_toList_iff_getElem?_eq_some.mp hop
  have hmem : ∀ op ∈ log.eventActions.toList, op.1 ∈ log.eventActions := by
    intro op hop
    rw [Std.ExtTreeMap.mem_iff_isSome_getElem?, hentry op hop]
    rfl
  have hoperations : ∀ op ∈ log.eventActions.toList, Reads readOperation (writeOperation op) op :=
    fun op hop => reads_writeOperation (fields.ids _ (hmem op hop))
      (counts.commands _ _ (hentry op hop)) (fields.locations _ _ (hentry op hop))
  have harcs : Reads (readArray readArc log.arcs.length) (log.arcs.flatMap writeArc) log.arcs :=
    Reads.array fun arc harc => reads_writeArc (fields.arcs arc harc)
  -- what is written are the entries of the map, in the order of their ids
  have hnum : IsInt log.eventActions.toList.length :=
    ⟨by omega, by have := counts.eventActions; omega⟩
  refine ⟨log.eventActions.toList.foldl storeOperation { ActionLog.init with arcs := log.arcs },
    fun rest => ?_, ?_, ?_, ?_⟩
  · simp only [loadFromFile, saveToFile, List.append_assoc, reads_writeInt hnum _,
      reads_count counts.arcs _, harcs _, Option.bind_eq_bind, Option.bind_some, Int.toNat_natCast]
    exact reads_loadOperations hoperations _ rest
  · exact foldl_storeOperation_arcs _ _
  · rw [foldl_storeOperation_eventActions]
    exact insertMany_toList log.eventActions
  · apply foldl_storeOperation_max
    · exact ⟨log.maxBound.1, fun op hop => log.maxBound.2 _ (hmem op hop)⟩
    · refine log.maxAttained.imp Eq.symm fun hmax => ?_
      obtain ⟨a, ha⟩ := Option.isSome_iff_exists.mp
        (Std.ExtTreeMap.mem_iff_isSome_getElem?.mp hmax)
      exact ⟨(_, a), Std.ExtTreeMap.mem_toList_iff_getElem?_eq_some.mpr ha, rfl⟩

end ActionLog

/-! ## The whole file -/

namespace ActionLogData

/-- The parts are built by their operations. -/
structure Built (stringHash : List UInt8 → Int) (Returned : Bool → Prop) (d : ActionLogData) :
    Prop where
  variableSet : StringSet.Built stringHash Returned d.variableSet
  scopeSet : StringSet.Built stringHash Returned d.scopeSet
  actionLog : ActionLog.Built d.actionLog
  jsSet : StringSet.Built stringHash Returned d.jsSet
  dataSet : StringSet.Built stringHash Returned d.dataSet

/-- The sizes of the parts are values of `int`. -/
structure IntSizes (d : ActionLogData) : Prop where
  actionLog : ActionLog.IntCounts d.actionLog
  sets : ∀ set ∈ [d.variableSet, d.scopeSet, d.jsSet, d.dataSet],
    set.data.length < 2 ^ 31 ∧ set.hashes.length < 2 ^ 31

end ActionLogData

/-- The file of an action log is read back, if no load of a set of strings returned false. Whatever
    follows in the file is left; the arcs, the event actions with their types and commands, and
    the maximal id are those that were saved; and the sets of strings are equal to those that
    were saved, so every index denotes the same string and every later operation does the
    same. -/
theorem action_log_file_round_trip (stringHash : List UInt8 → Int) (d : ActionLogData)
    (built : d.Built stringHash (· = true)) (sizes : d.IntSizes) (rest : List UInt8) :
    ∃ d', ActionLogData.load stringHash .init (d.save ++ rest) = some (d', rest) ∧
      d'.actionLog.arcs = d.actionLog.arcs ∧
      d'.actionLog.eventActions = d.actionLog.eventActions ∧
      d'.actionLog.maxEventActionId = d.actionLog.maxEventActionId ∧
      d'.variableSet = d.variableSet ∧ d'.scopeSet = d.scopeSet ∧ d'.jsSet = d.jsSet ∧
      d'.dataSet = d.dataSet := by
  have hset : ∀ set ∈ [d.variableSet, d.scopeSet, d.jsSet, d.dataSet],
      StringSet.Built stringHash (· = true) set →
        Reads (StringSet.loadFromFile stringHash) set.saveToFile set := fun set hmem hbuilt =>
    StringSet.reads_saveToFile hbuilt (sizes.sets set hmem).1 (sizes.sets set hmem).2
  obtain ⟨log', hlog, same⟩ := ActionLog.reads_saveToFile built.actionLog sizes.actionLog
  -- every part is read up to the start of the next one
  refine ⟨⟨d.variableSet, d.scopeSet, log', d.jsSet, d.dataSet⟩, ?_, same.arcs, same.eventActions,
    same.maxEventActionId, rfl, rfl, rfl, rfl⟩
  simp only [ActionLogData.load, ActionLogData.save, List.append_assoc,
    hset d.variableSet (by simp) built.variableSet _, hset d.scopeSet (by simp) built.scopeSet _,
    hlog _, hset d.jsSet (by simp) built.jsSet _, hset d.dataSet (by simp) built.dataSet _,
    Option.bind_eq_bind, Option.bind_some, Option.pure_def]

/-- One read of a variable, and an arc. -/
theorem action_log_file_round_trip_of_read :
    let stringHash : List UInt8 → Int := fun _ => 7
    ∃ d d' : ActionLogData, ActionLogData.load stringHash .init (d.save ++ [42]) = some (d', [42]) ∧
      d'.actionLog.arcs = [⟨1, 2, -1⟩] ∧
      (d'.actionLog.eventAction 1).commands = [⟨.readMemory, 0⟩] ∧
      d'.variableSet.getString 0 = some [97] := by
  intro stringHash
  -- the set has one string, and the log one event action and one arc
  let set : StringSet := ⟨[97, 0], [-1, 0, -1], 1⟩
  have hadd : StringSet.init.addString stringHash ⟨[97], by simp⟩ = some (0, set) := by
    simp [StringSet.addString, StringSet.addStringL, StringSet.findStringL, StringSet.init,
      StringSet.endOfData, StringSet.addHash, StringSet.grow, StringSet.doubleLoad,
      StringSet.rehashAll, StringSet.rehashFrom, StringSet.addHashNoRehash, StringSet.freeSlot,
      StringSet.slot, stringHash, set]
  let log : ActionLog :=
    (((ActionLog.init.startEventAction 1).logCommand .readMemory 0).2.addArc 1 2 (-1))
  let d : ActionLogData := ⟨set, .init, log, .init, .init⟩
  have built : d.Built stringHash (· = true) := by
    refine ⟨.addString .init hadd, .init, ?_, .init, .init⟩
    have hint : IsInt 0 ∧ IsInt 1 ∧ IsInt 2 ∧ IsInt (-1) := by decide
    exact ((ActionLog.Built.init.startEventAction hint.2.1).logCommand _ hint.1).addArc hint.2.1
      hint.2.2.1 hint.2.2.2
  -- there is one event action, with one command
  have hentries : log.eventActions.toList = [(1, ⟨.unknown, [⟨.readMemory, 0⟩]⟩)] := by
    decide +kernel
  have sizes : d.IntSizes := by
    -- all of it is small
    refine ⟨⟨?_, by decide, fun id a ha => ?_⟩, ?_⟩
    · show log.eventActions.toList.length < 2 ^ 31
      rw [hentries]
      decide
    · have hmem := Std.ExtTreeMap.mem_toList_iff_getElem?_eq_some.mpr ha
      rw [hentries, List.mem_singleton, Prod.mk.injEq] at hmem
      rw [hmem.2]
      decide
    · -- no set has more than one string
      intro s hs
      simp only [List.mem_cons, List.not_mem_nil, or_false] at hs
      rcases hs with rfl | rfl | rfl | rfl <;> decide
  obtain ⟨d', hload, harcs, heventActions, -, hvariables, -⟩ :=
    action_log_file_round_trip stringHash d built sizes [42]
  refine ⟨d, d', hload, harcs, ?_, ?_⟩
  · rw [ActionLog.eventAction, heventActions]
    decide +kernel
  · rw [hvariables]
    decide

/-- A load that ends behind the characters leaves the characters without their table. When one of
    them does not belong to a string, the set that is saved cannot be loaded again. -/
theorem cut_short_set_not_read_back :
    ∃ (stringHash : List UInt8 → Int) (d : ActionLogData),
      StringSet.loadFromFileInto stringHash .init [1, 0, 0, 0, 97] =
        some (false, d.variableSet, []) ∧
      d.Built stringHash (fun _ => True) ∧ d.IntSizes ∧
      ∀ rest, ActionLogData.load stringHash .init (d.save ++ rest) = none := by
  let stringHash : List UInt8 → Int := fun _ => 7
  let d : ActionLogData := ⟨⟨[97], [], 0⟩, .init, .init, .init, .init⟩
  have hload : StringSet.loadFromFileInto stringHash .init [1, 0, 0, 0, 97] =
      some (false, d.variableSet, []) := rfl
  have hempty : ActionLog.init.eventActions.toList = [] := rfl
  refine ⟨stringHash, d, hload, ⟨.loadFromFile .init hload trivial, .init, .init, .init, .init⟩,
    ⟨⟨by rw [hempty]; decide, by decide, fun id a ha => ?_⟩, ?_⟩, fun rest => ?_⟩
  · simp [ActionLog.init, d] at ha
  · intro s hs
    simp only [List.mem_cons, List.not_mem_nil, or_false] at hs
    rcases hs with rfl | rfl | rfl | rfl <;> decide
  · -- the letter is not terminated, so there is no string to compute the hash of
    have hrehash : StringSet.rehashAll stringHash ⟨[97], [], 0⟩ = none := by
      simp [StringSet.rehashAll, StringSet.rehashFrom, StringSet.cstringAt]
    have hnone : ∀ tail,
        StringSet.loadFromFile stringHash (d.variableSet.saveToFile ++ tail) = none := by
      intro tail
      rw [StringSet.loadFromFile_saveToFile (by decide) (by decide)]
      exact congrArg (Option.map _) hrehash
    simp only [ActionLogData.load, ActionLogData.save, List.append_assoc, hnone,
      Option.bind_eq_bind, Option.bind_none]

end R4
