import R4.ForStd.Nesting
import R4.Native.ActionLog

/-!
# The scopes of an event action

The action log looks back at one command: the exit of a scope in which nothing was logged
takes the entry of the scope away. This leaves exactly the scopes in which something is left
when the repeated accesses are dropped, however deep they are nested.

## Key results

- `perform_cases`: what one call does to the commands
- `run_view`: the commands after a sequence of calls
- `scopes_keep_informative_commands`: the commands are those of the compressed scopes
-/

namespace R4.ActionLog

/-- The calls that an event action makes between its start and its end. -/
inductive ScopeCall where
  | enterScope (scopeId : Int)
  | exitScope
  | readMemory (location : Int)
  | writeMemory (location : Int)
  | triggerEvent (eventId : Int)
deriving DecidableEq

namespace ScopeCall

/-- One call. -/
def perform (log : ActionLog) : ScopeCall → ActionLog
  | enterScope scopeId => (log.enterScope scopeId).2
  | exitScope => log.exitScope.2
  | readMemory location => (log.logCommand .readMemory location).2
  | writeMemory location => (log.logCommand .writeMemory location).2
  | triggerEvent eventId => log.triggerEvent eventId

/-- The command of a call. -/
def command : ScopeCall → Command
  | enterScope scopeId => ⟨.enterScope, scopeId⟩
  | exitScope => ⟨.exitScope, -1⟩
  | readMemory location => ⟨.readMemory, location⟩
  | writeMemory location => ⟨.writeMemory, location⟩
  | triggerEvent _ => ⟨.triggerArc, -1⟩

/-- One call after the other. -/
def run (calls : List ScopeCall) (log : ActionLog) : ActionLog := calls.foldl perform log

end ScopeCall

/-- The commands that open and close scopes. -/
def scopes : Brackets Command where
  isOpen c := c.cmdType = .enterScope
  isClose c := c.cmdType = .exitScope
  disjoint c h := by
    simp only [decide_eq_true_eq, decide_eq_false_iff_not] at h ⊢
    simp [h]

/-- The commands without the reads and writes that repeat one of the earlier commands. -/
def dropRepeats (earlier : List Command) : List Command → List Command
  | [] => []
  | c :: cs =>
    if c.cmdType.isAccess ∧ c ∈ earlier then dropRepeats (earlier ++ [c]) cs
    else c :: dropRepeats (earlier ++ [c]) cs

/-- An access neither opens nor closes a scope. -/
theorem plain_of_isAccess {c : Command} (h : c.cmdType.isAccess = true) :
    scopes.isOpen c = false ∧ scopes.isClose c = false := by
  simp only [CommandType.isAccess, decide_eq_true_eq] at h
  rcases h with h | h <;> simp [scopes, h]

/-- Dropping repeated accesses thins the commands. -/
theorem thins_dropRepeats (earlier cs : List Command) :
    scopes.Thins cs (dropRepeats earlier cs) := by
  induction cs generalizing earlier with
  | nil => exact .nil
  | cons c cs ih =>
    rw [dropRepeats]
    split
    · rename_i h
      exact .drop (plain_of_isAccess h.1).1 (plain_of_isAccess h.1).2 (ih _)
    · exact .keep c (ih _)

/-! ## One call -/

/-- The commands of an event action are what was stored. -/
theorem currentCmds_setCurrentCmds {log : ActionLog} (h : log.currentEventActionId ≠ -1)
    (cmds : List Command) : (log.setCurrentCmds cmds).currentCmds = cmds := by
  have hmem := log.currentStarted h
  have hget := Std.ExtTreeMap.getElem?_eq_some_getElem hmem
  simp [currentCmds, setCurrentCmds, modifyEventAction, eventAction, hget]

/-- What a call does to what is known of the current event action. -/
structure Logged (log log' : ActionLog) (c : Command) : Prop where
  current : log'.currentEventActionId = log.currentEventActionId
  currentCmds : log'.currentCmds = scopes.push log.currentCmds c
  cmdsInCurrentEvent : log'.cmdsInCurrentEvent =
    if c.cmdType.isAccess then log.cmdsInCurrentEvent ++ [c] else log.cmdsInCurrentEvent
  scopeDepth : log'.scopeDepth = log.scopeDepth + scopes.depth [c]

/-- A command that is stored is pushed on the commands of the event action. -/
theorem logged_storeCommand {log : ActionLog} (h : log.currentEventActionId ≠ -1) (c : Command) :
    Logged log ((log.noteCommand c).storeCommand c) c := by
  have hnoted : (log.noteCommand c).currentCmds = log.currentCmds := rfl
  have hcurrent : (log.noteCommand c).currentEventActionId ≠ -1 := h
  -- what the code asks of the last command is whether it opens a scope
  have hopen : (log.currentCmds.getLast?.map Command.cmdType = some .enterScope) ↔
      log.currentCmds.getLast?.any scopes.isOpen = true := by
    cases log.currentCmds.getLast? <;> simp [scopes]
  have hclose : (c.cmdType = .exitScope) ↔ scopes.isClose c = true := by simp [scopes]
  -- the command is appended, unless it closes an empty scope
  have hcmds : ((log.noteCommand c).storeCommand c).currentCmds =
      scopes.push log.currentCmds c := by
    unfold storeCommand Brackets.push
    simp only [hnoted, hopen, hclose]
    split
    · exact currentCmds_setCurrentCmds hcurrent _
    · exact currentCmds_setCurrentCmds hcurrent _
  -- nothing else is touched
  have hframe : ((log.noteCommand c).storeCommand c).currentEventActionId =
        log.currentEventActionId ∧
      ((log.noteCommand c).storeCommand c).cmdsInCurrentEvent =
        (log.noteCommand c).cmdsInCurrentEvent ∧
      ((log.noteCommand c).storeCommand c).scopeDepth = (log.noteCommand c).scopeDepth := by
    unfold storeCommand
    split <;> exact ⟨rfl, rfl, rfl⟩
  refine ⟨hframe.1, hcmds, hframe.2.1, hframe.2.2.trans ?_⟩
  obtain ⟨type, location⟩ := c
  cases type <;> (simp [noteCommand, scopes, Brackets.depth]; try rfl)

/-- A call is dropped, or its command is pushed. -/
theorem perform_cases {log : ActionLog} (h : log.currentEventActionId ≠ -1) (call : ScopeCall) :
    if call.command.cmdType.isAccess ∧ call.command ∈ log.cmdsInCurrentEvent then
      call.perform log = log
    else Logged log (call.perform log) call.command := by
  have hwill : ∀ command, command ≠ .memoryValue → log.willLogCommand command = true := by
    intro command hcommand
    simp [willLogCommand, h, hcommand]
  have hlog : ∀ command location, command ≠ .memoryValue →
      if command.isAccess ∧ (⟨command, location⟩ : Command) ∈ log.cmdsInCurrentEvent then
        (log.logCommand command location).2 = log
      else Logged log (log.logCommand command location).2 ⟨command, location⟩ := by
    intro command location hcommand
    unfold logCommand
    simp only [h, if_false, hwill command hcommand, Bool.true_eq_false]
    split
    · rfl
    · exact logged_storeCommand h _
  cases call with
  | enterScope scopeId => exact hlog .enterScope scopeId (by decide)
  | exitScope => exact hlog .exitScope (-1) (by decide)
  | readMemory location => exact hlog .readMemory location (by decide)
  | writeMemory location => exact hlog .writeMemory location (by decide)
  | triggerEvent eventId =>
    -- the trigger is appended to the commands, and the accesses and scopes stay
    have hplain : scopes.isClose (ScopeCall.command (.triggerEvent eventId)) = false := by
      simp [scopes, ScopeCall.command]
    rw [if_neg (by simp [ScopeCall.command, CommandType.isAccess])]
    show Logged log (log.triggerEvent eventId) _
    unfold triggerEvent
    rw [dif_neg h]
    refine ⟨rfl, ?_, rfl, by simp [ScopeCall.command, scopes, Brackets.depth]; rfl⟩
    rw [scopes.push_of_not_close hplain]
    exact currentCmds_setCurrentCmds h _

/-! ## A sequence of calls -/

/-- The commands after a sequence of calls. `earlier` are those of the calls before. -/
theorem run_view {log : ActionLog} (h : log.currentEventActionId ≠ -1) {earlier : List Command}
    (hseen : ∀ c : Command, c.cmdType.isAccess = true → (c ∈ log.cmdsInCurrentEvent ↔ c ∈ earlier))
    (calls : List ScopeCall) :
    (ScopeCall.run calls log).currentEventActionId = log.currentEventActionId ∧
      (ScopeCall.run calls log).currentCmds =
        (dropRepeats earlier (calls.map ScopeCall.command)).foldl scopes.push log.currentCmds ∧
      (ScopeCall.run calls log).scopeDepth =
        log.scopeDepth + scopes.depth (calls.map ScopeCall.command) := by
  induction calls generalizing log earlier with
  | nil => simp [ScopeCall.run, dropRepeats]
  | cons call calls ih =>
    have hcall := perform_cases h call
    have hrun : ScopeCall.run (call :: calls) log = ScopeCall.run calls (call.perform log) := rfl
    rw [hrun, List.map_cons, dropRepeats, scopes.depth_cons]
    by_cases hdropped : call.command.cmdType.isAccess ∧ call.command ∈ log.cmdsInCurrentEvent
    · -- the access was logged before
      have hearlier := (hseen _ hdropped.1).mp hdropped.2
      have hplain := plain_of_isAccess hdropped.1
      rw [if_pos hdropped] at hcall
      rw [hcall, if_pos ⟨hdropped.1, hearlier⟩, scopes.depth_plain hplain.1 hplain.2, Int.zero_add]
      refine ih h fun c hc => (hseen c hc).trans ?_
      simp only [List.mem_append, List.mem_singleton, iff_self_or]
      rintro rfl
      exact hearlier
    · rw [if_neg hdropped] at hcall
      have hkept : ¬(call.command.cmdType.isAccess ∧ call.command ∈ earlier) := by
        rintro ⟨haccess, hmem⟩
        exact hdropped ⟨haccess, (hseen _ haccess).mpr hmem⟩
      have hcurrent : (call.perform log).currentEventActionId ≠ -1 := by
        rw [hcall.current]
        exact h
      have hseen' : ∀ c : Command, c.cmdType.isAccess = true →
          (c ∈ (call.perform log).cmdsInCurrentEvent ↔ c ∈ earlier ++ [call.command]) := by
        intro c hc
        rw [hcall.cmdsInCurrentEvent, List.mem_append, List.mem_singleton, ← hseen c hc]
        by_cases haccess : call.command.cmdType.isAccess = true
        · simp [haccess]
        · have hne : c ≠ call.command := fun heq => haccess (heq ▸ hc)
          simp [haccess, hne]
      have hnext := ih hcurrent hseen'
      rw [if_neg hkept, List.foldl_cons, ← hcall.currentCmds, ← hcall.current]
      refine ⟨hnext.1, hnext.2.1, ?_⟩
      rw [hnext.2.2, hcall.scopeDepth]
      omega

/-- A fresh event action starts without commands. -/
theorem startEventAction_fresh {log : ActionLog} {id : Int} (hfresh : id ∉ log.eventActions) :
    (log.startEventAction id).currentEventActionId = id ∧
      (log.startEventAction id).currentCmds = [] ∧
      (log.startEventAction id).cmdsInCurrentEvent = [] ∧
      (log.startEventAction id).scopeDepth = 0 := by
  refine ⟨rfl, ?_, rfl, rfl⟩
  have hget : (log.startEventAction id).eventActions[id]? = some .empty := by
    show (log.eventActions.insertIfNew id .empty)[id]? = some .empty
    rw [Std.ExtTreeMap.getElem?_insertIfNew]
    simp [hfresh]
  have hcurrent : (log.startEventAction id).currentEventActionId = id := rfl
  rw [currentCmds, eventAction, hcurrent, hget]
  rfl

/-- Scope compression keeps exactly the informative commands. The commands that a fresh event
    action logs in a well-nested sequence of calls are well nested, no scope is left empty,
    and they are what the calls say when every access that repeats an earlier one is deleted
    and then, from the innermost outwards, every scope with nothing left inside. At every
    point `scopeDepth` is the number of scopes that the calls have open. -/
theorem scopes_keep_informative_commands (log : ActionLog) {id : Int} (hid : id ≠ -1)
    (hfresh : id ∉ log.eventActions) (calls : List ScopeCall)
    (nested : scopes.WellNested (calls.map ScopeCall.command)) :
    let run (calls : List ScopeCall) := ScopeCall.run calls (log.startEventAction id)
    let commands := ((run calls).eventAction id).commands
    scopes.WellNested commands ∧ scopes.NoEmptyScope commands ∧
      (∃ f : Brackets.Forest Command, f.Proper scopes ∧
        f.text = dropRepeats [] (calls.map ScopeCall.command)) ∧
      (∀ f : Brackets.Forest Command, f.Proper scopes →
        f.text = dropRepeats [] (calls.map ScopeCall.command) → commands = f.compress.text) ∧
      ∀ k, (run (calls.take k)).scopeDepth =
        scopes.depth ((calls.take k).map ScopeCall.command) := by
  intro run commands
  obtain ⟨hcurrent, hcmds, hseen, hdepth⟩ := startEventAction_fresh hfresh
  have hstarted : (log.startEventAction id).currentEventActionId ≠ -1 := hid
  have hnone : ∀ c : Command, c.cmdType.isAccess = true →
      (c ∈ (log.startEventAction id).cmdsInCurrentEvent ↔ c ∈ ([] : List Command)) := by
    simp [hseen]
  have hview := run_view hstarted hnone
  have hcommands : commands =
      (dropRepeats [] (calls.map ScopeCall.command)).foldl scopes.push [] := by
    obtain ⟨hid', hcommands, -⟩ := hview calls
    rw [hcmds] at hcommands
    rw [← hcommands]
    simp only [currentCmds, hid', hcurrent]
    rfl
  -- without the repeated accesses the calls are still well nested
  obtain ⟨f, hproper, htext⟩ := scopes.wellNested_iff_exists_forest.mp
    ((thins_dropRepeats [] _).wellNested nested)
  have hcompress : ∀ f : Brackets.Forest Command, f.Proper scopes →
      f.text = dropRepeats [] (calls.map ScopeCall.command) → commands = f.compress.text := by
    intro f hproper htext
    rw [hcommands, ← htext, scopes.foldl_push_text hproper, List.nil_append]
  have hf := hcompress f hproper htext
  refine ⟨?_, ?_, ⟨f, hproper, htext⟩, hcompress, ?_⟩
  · rw [hf]
    exact scopes.wellNested_iff_exists_forest.mpr ⟨_, hproper.compress, rfl⟩
  · rw [hf]
    exact scopes.isChain_compress hproper
  · intro k
    rw [(hview (calls.take k)).2.2, hdepth, Int.zero_add]

/-- A scope that is left empty because its only access is repeated, inside another one. -/
theorem scopes_keep_informative_commands_of_repeat :
    let calls : List ScopeCall :=
      [.readMemory 7, .enterScope 1, .enterScope 2, .readMemory 7, .exitScope, .writeMemory 7,
        .exitScope]
    let log := ScopeCall.run calls (ActionLog.init.startEventAction 1)
    let commands := (log.eventAction 1).commands
    scopes.WellNested commands ∧ commands =
      [⟨.readMemory, 7⟩, ⟨.enterScope, 1⟩, ⟨.writeMemory, 7⟩, ⟨.exitScope, -1⟩] := by
  intro calls log commands
  obtain ⟨hnested, -, -, hcompress, -⟩ := scopes_keep_informative_commands ActionLog.init
    (show (1 : Int) ≠ -1 by decide) (by simp [ActionLog.init]) calls (by decide)
  refine ⟨hnested, hcompress (.plain ⟨.readMemory, 7⟩ (.scope ⟨.enterScope, 1⟩ ⟨.exitScope, -1⟩
    (.scope ⟨.enterScope, 2⟩ ⟨.exitScope, -1⟩ .nil (.plain ⟨.writeMemory, 7⟩ .nil)) .nil)) ?_ ?_⟩
  · simp [Brackets.Forest.Proper, scopes]
  · decide

end R4.ActionLog
