import R4.Spec.ScopeCompression
import R4.Spec.TriggerArcs

/-!
# Logged accesses

An event action logs each of its reads and writes once. An access that it logs again is dropped, and
nothing is added to its commands; but then the access is among them already, and it stays there
whatever is logged later.

## Key results

- `notedOk_perform`: the accesses that are noted are commands of the current event action
- `logged_access_stays`: an access is a command of the event action that has logged it
-/

namespace R4.ActionLog

/-- The commands of an event action. -/
def commandsOf (log : ActionLog) (id : Int) : List Command := (log.eventAction id).commands

/-- A command of an event action is at some place in it. -/
theorem mem_commandsOf_iff {log : ActionLog} {id : Int} {c : Command} :
    c ∈ log.commandsOf id ↔ ∃ i, log.HasAt (fun c' => c' = c) ⟨id, i⟩ := by
  simp only [HasAt, commandAt, exists_eq_right]
  exact List.mem_iff_getElem?

/-- The accesses that are noted are commands of the current event action. -/
def NotedOk (log : ActionLog) : Prop :=
  ∀ c ∈ log.cmdsInCurrentEvent, c.cmdType.isAccess = true ∧
    c ∈ log.commandsOf log.currentEventActionId

/-- No call takes an access away. -/
theorem mem_commandsOf_perform {log : ActionLog} (ok : TriggersOk log) {id : Int} {c : Command}
    (haccess : c.cmdType.isAccess = true) (call : LogCall) (h : c ∈ log.commandsOf id) :
    c ∈ (call.perform log).commandsOf id := by
  obtain ⟨i, hi⟩ := mem_commandsOf_iff.mp h
  exact mem_commandsOf_iff.mpr ⟨i, hasAt_perform ok (lasting_access haccess) call hi⟩

/-- What a call does to the accesses that are noted: an event action begins or ends, and none are
    noted; or nothing is noted; or the call is an access that is logged. -/
theorem noted_perform (log : ActionLog) (call : LogCall) :
    (call.perform log).cmdsInCurrentEvent = [] ∨
      ((call.perform log).currentEventActionId = log.currentEventActionId ∧
        (call.perform log).cmdsInCurrentEvent = log.cmdsInCurrentEvent) ∨
      ∃ c, c.cmdType.isAccess = true ∧ Logged log (call.perform log) c := by
  cases call with
  -- arcs, types and triggers leave alone what is noted
  | addArc earlier later duration => exact .inr (.inl ⟨rfl, rfl⟩)
  -- at the start and at the end of an event action nothing is noted
  | startEventAction operation => exact .inl rfl
  | endEventAction => exact .inl rfl
  | setEventActionType type =>
    refine .inr (.inl ?_)
    simp only [LogCall.perform, setEventActionType]
    split <;> exact ⟨rfl, rfl⟩
  | logCommand command location =>
    simp only [LogCall.perform, logCommand]
    split
    · -- outside of event actions nothing is logged
      exact .inr (.inl ⟨rfl, rfl⟩)
    · rename_i h
      split
      · -- the command is not one that will be logged
        exact .inr (.inl ⟨rfl, rfl⟩)
      · split
        · -- the access has been noted before
          exact .inr (.inl ⟨rfl, rfl⟩)
        · -- the command is stored, and noted if it is an access
          have hlogged := logged_storeCommand h ⟨command, location⟩
          by_cases haccess : command.isAccess = true
          · exact .inr (.inr ⟨_, haccess, hlogged⟩)
          · refine .inr (.inl ⟨hlogged.current, hlogged.cmdsInCurrentEvent.trans ?_⟩)
            rw [if_neg haccess]
  | triggerEvent eventId =>
    refine .inr (.inl ?_)
    simp only [LogCall.perform, triggerEvent]
    split <;> exact ⟨rfl, rfl⟩
  | eventTriggered eventId =>
    refine .inr (.inl ?_)
    simp only [LogCall.perform, eventTriggered]
    split
    · exact ⟨rfl, rfl⟩
    · split <;> exact ⟨rfl, rfl⟩

/-- The accesses that are noted are commands of the current event action. -/
theorem notedOk_perform {log : ActionLog} (ok : TriggersOk log) (noted : NotedOk log)
    (call : LogCall) : NotedOk (call.perform log) := by
  intro c hc
  rcases noted_perform log call with hnil | ⟨hid, hsame⟩ | ⟨c', haccess, hlogged⟩
  · -- nothing is noted any more
    rw [hnil] at hc
    exact absurd hc List.not_mem_nil
  · -- what is noted is what was noted, in the same event action
    obtain ⟨haccess, hmem⟩ := noted c (hsame ▸ hc)
    rw [hid]
    exact ⟨haccess, mem_commandsOf_perform ok haccess call hmem⟩
  · -- one access more is noted, and it is the last command
    rw [hlogged.cmdsInCurrentEvent, if_pos haccess, List.mem_append, List.mem_singleton] at hc
    rcases hc with hc | rfl
    · obtain ⟨haccess, hmem⟩ := noted c hc
      rw [hlogged.current]
      exact ⟨haccess, mem_commandsOf_perform ok haccess call hmem⟩
    · refine ⟨haccess, ?_⟩
      show c ∈ (call.perform log).currentCmds
      rw [hlogged.currentCmds, scopes.push_of_not_close (plain_of_isAccess haccess).2]
      exact List.mem_append_right _ (List.mem_singleton_self c)

/-- What is noted are commands of the current event action, after every sequence of calls. -/
theorem notedOk_run (calls : List LogCall) : NotedOk (LogCall.run calls) := by
  have hkeeps : ∀ log call, TriggersOk log → NotedOk log → NotedOk (LogCall.perform log call) :=
    fun log call ok noted => notedOk_perform ok noted call
  have hstart : NotedOk (LogCall.run (calls.take 0)) := fun c hc => absurd hc List.not_mem_nil
  have hrun := run_take_of_le hkeeps (Nat.zero_le calls.length) hstart
  rwa [List.take_length] at hrun

/-- The `i`th call logs the access `c` inside an event action. -/
def LogsAt (calls : List LogCall) (i : Nat) (c : Command) : Prop :=
  calls[i]? = some (.logCommand c.cmdType c.location) ∧
    (LogCall.run (calls.take i)).currentEventActionId ≠ -1

/-- A command does not end the event action that logs it. -/
theorem current_logCommand (log : ActionLog) (command : CommandType) (location : Int) :
    (log.logCommand command location).2.currentEventActionId = log.currentEventActionId := by
  unfold logCommand
  split
  · rfl
  · split
    · rfl
    · dsimp only
      split
      · rfl
      · unfold storeCommand
        split <;> rfl

/-- The calls of an event action that logs commands one behind the other. -/
def callsOf (id : Int) (commands : List Command) : List LogCall :=
  .startEventAction id :: commands.map fun c => .logCommand c.cmdType c.location

/-- It logs each of them. -/
theorem exists_logsAt_callsOf {id : Int} (hid : id ≠ -1) {commands : List Command} {c : Command}
    (h : c ∈ commands) : ∃ i, LogsAt (callsOf id commands) i c := by
  -- the commands are logged inside of the event action
  have hcurrent : ∀ (cs : List Command) (log : ActionLog),
      ((cs.map fun c => LogCall.logCommand c.cmdType c.location).foldl LogCall.perform
        log).currentEventActionId = log.currentEventActionId := by
    intro cs
    induction cs with
    | nil => exact fun log => rfl
    | cons c cs ih =>
      intro log
      rw [List.map_cons, List.foldl_cons, ih]
      exact current_logCommand log c.cmdType c.location
  obtain ⟨i, hi⟩ := List.mem_iff_getElem?.mp h
  -- the call for the command comes behind the start
  refine ⟨i + 1, ?_, ?_⟩
  · rw [callsOf, List.getElem?_cons_succ, List.getElem?_map, hi, Option.map_some]
  · rw [callsOf, List.take_succ_cons, ← List.map_take, LogCall.run, List.foldl_cons, hcurrent]
    exact hid

/-- An access that is logged inside an event action is a command of it from then on, whether it was
    dropped as a repeated one or not, and whatever is logged behind it. -/
theorem logged_access_stays {calls : List LogCall} {i : Nat} {c : Command}
    (haccess : c.cmdType.isAccess = true) (h : LogsAt calls i c) :
    c ∈ (LogCall.run calls).commandsOf (LogCall.run (calls.take i)).currentEventActionId := by
  obtain ⟨hcall, hcurrent⟩ := h
  -- after the call the access is in its event action
  have hnext : c ∈ (LogCall.run (calls.take (i + 1))).commandsOf
      (LogCall.run (calls.take i)).currentEventActionId := by
    rw [run_take_succ hcall]
    have hlog := logCommand_access hcurrent haccess
    split at hlog
    · -- it was noted before, and so it was a command already
      rename_i hnoted
      rw [LogCall.perform, hlog]
      exact (notedOk_run _ c hnoted).2
    · -- it is appended
      rw [← hlog.1]
      show c ∈ ((LogCall.run (calls.take i)).logCommand c.cmdType c.location).2.currentCmds
      rw [hlog.2]
      exact List.mem_append_right _ (List.mem_singleton_self c)
  have hlength : i + 1 ≤ calls.length := (List.getElem?_eq_some_iff.mp hcall).1
  -- and later calls leave it there
  have hrun := run_take_of_le
    (P := fun log => c ∈ log.commandsOf (LogCall.run (calls.take i)).currentEventActionId)
    (fun log call ok hmem => mem_commandsOf_perform ok haccess call hmem) hlength hnext
  rwa [List.take_length] at hrun

end R4.ActionLog
