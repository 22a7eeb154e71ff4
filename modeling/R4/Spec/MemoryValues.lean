import R4.Spec.ScopeCompression

/-!
# The values of memory accesses

A value is logged behind the access it belongs to, which is how the reports find its location.
But an access that repeats an earlier one is dropped, and its value is appended all the same
when the last command happens to be another access.

## Key results

- `value_follows_access_iff`: when the value of one access is appended behind it
- `values_logged_next_to_access_iff`: when this is so in a sequence of calls
- `value_of_repeated_read_misplaced`: a value behind the wrong location
-/

namespace R4.ActionLog

/-- A call of the action log. -/
inductive LogCall where
  | addArc (earlierOperation laterOperation arcDuration : Int)
  | startEventAction (operation : Int)
  | endEventAction
  | setEventActionType (type : ActionLogType)
  | logCommand (command : CommandType) (memoryLocation : Int)
  | triggerEvent (eventId : Int)
  | eventTriggered (eventId : Int)
deriving DecidableEq

namespace LogCall

/-- One call. -/
def perform (log : ActionLog) : LogCall → ActionLog
  | addArc earlier later duration => log.addArc earlier later duration
  | startEventAction operation => log.startEventAction operation
  | endEventAction => log.endEventAction.2
  | setEventActionType type => (log.setEventActionType type).2
  | logCommand command location => (log.logCommand command location).2
  | triggerEvent eventId => log.triggerEvent eventId
  | eventTriggered eventId => log.eventTriggered eventId

/-- The log after a sequence of calls. -/
def run (calls : List LogCall) : ActionLog := calls.foldl perform .init

/-- A read or a write. -/
def isAccess : LogCall → Bool
  | logCommand command _ => command.isAccess
  | _ => false

/-- A value. -/
def isValue : LogCall → Bool
  | logCommand command _ => command = .memoryValue
  | _ => false

/-- Every value comes directly behind a read or a write, the one that it describes. -/
def ValuesFollowAccesses (calls : List LogCall) : Prop :=
  (∀ call ∈ calls.head?, call.isValue = false) ∧
    calls.IsChain fun call next => next.isValue = true → call.isAccess = true

instance (calls : List LogCall) : Decidable (ValuesFollowAccesses calls) :=
  inferInstanceAs (Decidable (_ ∧ List.IsChain _ _))

end LogCall

/-- The call appended a value to the commands of the event action. -/
def AppendsValue (log log' : ActionLog) (value : Int) : Prop :=
  log'.currentCmds = log.currentCmds ++ [⟨.memoryValue, value⟩]

instance (log log' : ActionLog) (value : Int) : Decidable (AppendsValue log log' value) :=
  inferInstanceAs (Decidable (_ = _))

/-- The access `c` is logged, or the last command is no other access. -/
def AccessIsLast (log : ActionLog) (c : Command) : Prop :=
  ¬(log.currentEventActionId ≠ -1 ∧ c ∈ log.cmdsInCurrentEvent ∧
    ∃ last ∈ log.currentCmds.getLast?, last.cmdType.isAccess = true ∧ last ≠ c)

/-- Whatever is appended for the value of an access, the access is directly before it. -/
def ValueNextToAccess (log : ActionLog) (c : Command) (value : Int) : Prop :=
  let log₁ := (log.logCommand c.cmdType c.location).2
  AppendsValue log₁ (log₁.logCommand .memoryValue value).2 value →
    log₁.currentCmds.getLast? = some c

/-! ## One value -/

/-- Outside of event actions nothing is logged. -/
theorem logCommand_of_outside {log : ActionLog} (h : log.currentEventActionId = -1)
    (command : CommandType) (location : Int) : (log.logCommand command location).2 = log := by
  simp [logCommand, h]

/-- A value is appended when the last command is an access. -/
theorem appendsValue_iff {log : ActionLog} (h : log.currentEventActionId ≠ -1) (value : Int) :
    AppendsValue log (log.logCommand .memoryValue value).2 value ↔
      ∃ last ∈ log.currentCmds.getLast?, last.cmdType.isAccess = true := by
  have hwill : log.willLogCommand .memoryValue = true ↔
      ∃ last ∈ log.currentCmds.getLast?, last.cmdType.isAccess = true := by
    cases hlast : log.currentCmds.getLast? <;> simp [willLogCommand, h, hlast, CommandType.isAccess]
  rw [← hwill]
  unfold logCommand
  rw [if_neg h]
  by_cases hlogs : log.willLogCommand .memoryValue = true
  · have hstored := (logged_storeCommand h ⟨.memoryValue, value⟩).currentCmds
    rw [scopes.push_of_not_close rfl] at hstored
    simpa [hlogs, CommandType.isAccess, AppendsValue] using hstored
  · simp [hlogs, AppendsValue]

/-- An access that is not repeated becomes the last command, and another one changes nothing. -/
theorem logCommand_access {log : ActionLog} (h : log.currentEventActionId ≠ -1) {c : Command}
    (haccess : c.cmdType.isAccess = true) :
    if c ∈ log.cmdsInCurrentEvent then (log.logCommand c.cmdType c.location).2 = log
    else (log.logCommand c.cmdType c.location).2.currentEventActionId =
        log.currentEventActionId ∧
      (log.logCommand c.cmdType c.location).2.currentCmds = log.currentCmds ++ [c] := by
  obtain ⟨type, location⟩ := c
  -- a value is not an access
  have hvalue : type ≠ .memoryValue := by
    rintro rfl
    simp [CommandType.isAccess] at haccess
  unfold logCommand
  rw [if_neg h]
  have hwill : log.willLogCommand type = true := by simp [willLogCommand, h, hvalue]
  -- the access has been noted before
  by_cases hmem : (⟨type, location⟩ : Command) ∈ log.cmdsInCurrentEvent
  · simp [hwill, haccess, hmem]
  · -- it is stored as the last command
    have hstored := logged_storeCommand h ⟨type, location⟩
    have hcmds := hstored.currentCmds
    rw [scopes.push_of_not_close (plain_of_isAccess haccess).2] at hcmds
    simp only [hwill, Bool.true_eq_false, if_false, haccess, hmem, and_false]
    exact ⟨hstored.current, hcmds⟩

/-- The value of an access is appended behind it, or not at all, exactly if the access is
    logged or the last command is no other access. -/
theorem value_follows_access_iff (log : ActionLog) {c : Command}
    (haccess : c.cmdType.isAccess = true) (value : Int) :
    ValueNextToAccess log c value ↔ AccessIsLast log c := by
  unfold ValueNextToAccess AccessIsLast
  dsimp only
  by_cases h : log.currentEventActionId = -1
  · -- nothing is logged
    rw [logCommand_of_outside h, logCommand_of_outside h]
    simp [h, AppendsValue]
  · have hlogged := logCommand_access h haccess
    by_cases hmem : c ∈ log.cmdsInCurrentEvent
    · -- the access is dropped, so the last command is what it was
      rw [if_pos hmem] at hlogged
      rw [hlogged]
      simp only [appendsValue_iff h, hmem, ne_eq, h, not_false_eq_true, true_and]
      cases hlast : log.currentCmds.getLast? with
      | none => simp
      | some last => simp
    · rw [if_neg hmem] at hlogged
      simp [hmem, hlogged.2]

/-! ## A sequence of calls -/

/-- The log after one more call. -/
theorem run_take_succ {calls : List LogCall} {i : Nat} {call : LogCall}
    (h : calls[i]? = some call) :
    LogCall.run (calls.take (i + 1)) = call.perform (LogCall.run (calls.take i)) := by
  simp [LogCall.run, List.take_add_one, h]

/-- Every value that is logged is directly behind the access that it describes. -/
def ValuesNextToAccesses (calls : List LogCall) : Prop :=
  ∀ (i : Nat) (c : Command) (value : Int), c.cmdType.isAccess = true →
    calls[i]? = some (.logCommand c.cmdType c.location) →
    calls[i + 1]? = some (.logCommand .memoryValue value) →
    AppendsValue (LogCall.run (calls.take (i + 1))) (LogCall.run (calls.take (i + 2))) value →
      (LogCall.run (calls.take (i + 1))).currentCmds.getLast? = some c

/-- Values are logged next to their accesses exactly in those sequences of calls in which every
    access with a value is logged, or repeats one while the last command is no other access. -/
theorem values_logged_next_to_access_iff (calls : List LogCall) :
    ValuesNextToAccesses calls ↔ ∀ (i : Nat) (c : Command) (value : Int),
      c.cmdType.isAccess = true → calls[i]? = some (.logCommand c.cmdType c.location) →
      calls[i + 1]? = some (.logCommand .memoryValue value) →
      AccessIsLast (LogCall.run (calls.take i)) c := by
  -- the value comes right behind the access if the access is the last command by then
  have hstep : ∀ (i : Nat) (c : Command) (value : Int), c.cmdType.isAccess = true →
      calls[i]? = some (.logCommand c.cmdType c.location) →
      calls[i + 1]? = some (.logCommand .memoryValue value) →
      ((AppendsValue (LogCall.run (calls.take (i + 1))) (LogCall.run (calls.take (i + 2))) value →
        (LogCall.run (calls.take (i + 1))).currentCmds.getLast? = some c) ↔
        AccessIsLast (LogCall.run (calls.take i)) c) := by
    intro i c value haccess hcall hvalue
    rw [run_take_succ hvalue, run_take_succ hcall]
    exact value_follows_access_iff _ haccess value
  constructor
  · intro h i c value haccess hcall hvalue
    exact (hstep i c value haccess hcall hvalue).mp (h i c value haccess hcall hvalue)
  · intro h i c value haccess hcall hvalue
    exact (hstep i c value haccess hcall hvalue).mpr (h i c value haccess hcall hvalue)

/-- The value of a repeated read is appended behind the read of another location. -/
theorem value_of_repeated_read_misplaced :
    ¬∀ calls, LogCall.ValuesFollowAccesses calls → ValuesNextToAccesses calls := by
  intro h
  -- `x`, then `y`, then `x` again with its value
  have hvalue := h [.startEventAction 1, .logCommand .readMemory 10, .logCommand .readMemory 20,
    .logCommand .readMemory 10, .logCommand .memoryValue 5] (by decide) 3 ⟨.readMemory, 10⟩ 5
    (by decide) rfl rfl
  exact absurd (hvalue (by decide)) (by decide)

end R4.ActionLog
