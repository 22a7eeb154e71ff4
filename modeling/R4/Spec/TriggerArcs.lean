import R4.Spec.MemoryValues

/-!
# Pending trigger arcs

A pending trigger arc remembers where the command of a trigger is, by the event action and the
index of the command in it. The commands of an event action are popped again when a scope was
empty, and an event action can be entered again, but only the entry of a scope is ever popped,
so the index keeps pointing at the command.

## Key results

- `hasAt_perform`: no call takes a command away or moves it, but the entry of a scope
- `triggersOk_perform`: pending arcs point at trigger commands, and at different ones
- `pending_arcs_point_at_triggers`: what holds after every sequence of calls
-/

namespace R4.ActionLog

/-- The command that an arc points at. -/
def commandAt (log : ActionLog) (arc : PendingTriggerArc) : Option Command :=
  (log.eventAction arc.operationId).commands[arc.commandId]?

/-- The arc points at a `TRIGGER_ARC` command. -/
def IsTrigger (log : ActionLog) (arc : PendingTriggerArc) : Prop :=
  ∃ c, log.commandAt arc = some c ∧ c.cmdType = .triggerArc

/-- At the place of the arc is a command like that. -/
def HasAt (log : ActionLog) (p : Command → Prop) (arc : PendingTriggerArc) : Prop :=
  ∃ c, log.commandAt arc = some c ∧ p c

/-- What no call changes about a command that is no entry of a scope. Only the location of a trigger
    is filled in later. -/
structure Lasting (p : Command → Prop) : Prop where
  stays : ∀ c, p c → c.cmdType ≠ .enterScope
  located : ∀ c location, p c → c.cmdType = .triggerArc → p { c with location := location }

/-- A trigger stays one. -/
theorem lasting_trigger : Lasting fun c => c.cmdType = .triggerArc where
  stays c h := by
    rw [h]
    decide
  located _ _ h _ := h

/-- A read or a write stays what it is. -/
theorem lasting_access {c : Command} (h : c.cmdType.isAccess = true) :
    Lasting fun c' => c' = c where
  stays c' heq henter := by
    rw [← heq, henter] at h
    exact Bool.false_ne_true h
  located c' location heq htrigger := by
    rw [← heq, htrigger] at h
    exact absurd h Bool.false_ne_true

/-- The arc of a trigger in the current event action. -/
def nextArc (log : ActionLog) : PendingTriggerArc :=
  ⟨log.currentEventActionId, log.currentCmds.length⟩

/-- What every call keeps: pending arcs point at trigger commands, and at different ones. -/
structure TriggersOk (log : ActionLog) : Prop where
  points : ∀ (k : Int) (arc : PendingTriggerArc), log.pendingTriggerArcs[k]? = some arc →
    log.IsTrigger arc
  distinct : ∀ (k k' : Int) (arc : PendingTriggerArc), log.pendingTriggerArcs[k]? = some arc →
    log.pendingTriggerArcs[k']? = some arc → k = k'

/-- No arc to the trigger command is pending any more. -/
def Settled (log : ActionLog) (arc : PendingTriggerArc) : Prop :=
  log.IsTrigger arc ∧ ∀ k : Int, log.pendingTriggerArcs[k]? ≠ some arc

/-- The call is a trigger, and its command is at `arc`. -/
def Triggers (log : ActionLog) (call : LogCall) (arc : PendingTriggerArc) : Prop :=
  (∃ eventId, call = .triggerEvent eventId) ∧ log.currentEventActionId ≠ -1 ∧ arc = log.nextArc

/-- The call resolves the trigger whose command is at `arc`. -/
def Resolves (log : ActionLog) (call : LogCall) (arc : PendingTriggerArc) : Prop :=
  ∃ eventId, call = .eventTriggered eventId ∧ log.currentEventActionId ≠ -1 ∧
    log.pendingTriggerArcs[eventId]? = some arc

/-- Nothing differs but the location of the command at `arc`, and that the arc is not pending. -/
structure OnlyLocation (log log' : ActionLog) (eventId : Int) (arc : PendingTriggerArc) :
    Prop where
  located : log'.commandAt arc = some ⟨.triggerArc, log.currentEventActionId⟩
  commands : ∀ other, other ≠ arc → log'.commandAt other = log.commandAt other
  ids : ∀ id, id ∈ log'.eventActions ↔ id ∈ log.eventActions
  types : ∀ id, (log'.eventAction id).type = (log.eventAction id).type
  pending : log'.pendingTriggerArcs = log.pendingTriggerArcs.erase eventId
  scopeDepth : log'.scopeDepth = log.scopeDepth
  maxEventActionId : log'.maxEventActionId = log.maxEventActionId
  arcs : log'.arcs = log.arcs
  current : log'.currentEventActionId = log.currentEventActionId
  cmdsInCurrentEvent : log'.cmdsInCurrentEvent = log.cmdsInCurrentEvent

/-! ## The commands -/

/-- A change of an event action is one of that alone. -/
theorem eventAction_modifyEventAction (log : ActionLog) {i : Int} (hi : i ∈ log.eventActions)
    (f : EventAction → EventAction) (id : Int) :
    (log.modifyEventAction i f).eventAction id =
      if id = i then f (log.eventAction i) else log.eventAction id := by
  have hget := Std.ExtTreeMap.getElem?_eq_some_getElem hi
  unfold eventAction modifyEventAction
  rw [Std.ExtTreeMap.getElem?_modify]
  by_cases hid : id = i
  · simp [hid, hget]
  · simp [hid, Ne.symm hid]

/-- An event action that is started again keeps what it has. -/
theorem eventAction_startEventAction (log : ActionLog) (operation id : Int) :
    (log.startEventAction operation).eventAction id = log.eventAction id := by
  show (log.eventActions.insertIfNew operation .empty)[id]?.getD .empty = _
  rw [Std.ExtTreeMap.getElem?_insertIfNew]
  split
  · rename_i hnew
    obtain rfl := Std.LawfulEqCmp.compare_eq_iff_eq.mp hnew.1
    rw [eventAction, Std.ExtTreeMap.getElem?_eq_none hnew.2]
    rfl
  · rfl

/-- Replacing the commands changes those of the current event action. -/
theorem commandAt_setCurrentCmds {log : ActionLog} (h : log.currentEventActionId ≠ -1)
    (cmds : List Command) (arc : PendingTriggerArc) :
    (log.setCurrentCmds cmds).commandAt arc =
      if arc.operationId = log.currentEventActionId then cmds[arc.commandId]?
      else log.commandAt arc := by
  unfold commandAt setCurrentCmds
  rw [eventAction_modifyEventAction log (log.currentStarted h)]
  split <;> rfl

/-- A command of the current event action. -/
theorem commandAt_of_current {log : ActionLog} {arc : PendingTriggerArc}
    (h : arc.operationId = log.currentEventActionId) :
    log.commandAt arc = log.currentCmds[arc.commandId]? := by
  rw [commandAt, h]
  rfl

/-- There is no command at the place of the next one. -/
theorem not_isTrigger_nextArc (log : ActionLog) : ¬log.IsTrigger log.nextArc := by
  rintro ⟨c, hc, -⟩
  rw [commandAt_of_current rfl, nextArc, List.getElem?_eq_none (Nat.le_refl _)] at hc
  exact nomatch hc

section Lasting

variable {log : ActionLog} {p : Command → Prop} (lasting : Lasting p) {arc : PendingTriggerArc}
include lasting

/-- The commands of the current event action are replaced by some in which those that last are
    where they were. -/
theorem hasAt_setCurrentCmds (h : log.currentEventActionId ≠ -1)
    {cmds : List Command} (hkeeps : ∀ (i : Nat) (c : Command), log.currentCmds[i]? = some c →
      c.cmdType ≠ .enterScope → cmds[i]? = some c)
    (hat : log.HasAt p arc) : (log.setCurrentCmds cmds).HasAt p arc := by
  obtain ⟨c, hc, hp⟩ := hat
  refine ⟨c, ?_, hp⟩
  rw [commandAt_setCurrentCmds h]
  split
  · rename_i hcurrent
    rw [commandAt_of_current hcurrent] at hc
    exact hkeeps _ c hc (lasting.stays c hp)
  · exact hc

/-- A command is appended, or the entry of a scope is popped. -/
theorem hasAt_storeCommand (h : log.currentEventActionId ≠ -1) (c : Command)
    (hat : log.HasAt p arc) : (log.storeCommand c).HasAt p arc := by
  unfold storeCommand
  split
  · rename_i hscope
    refine hasAt_setCurrentCmds lasting h (fun i c' hc' htype => ?_) hat
    -- the command that is popped is the entry of a scope
    obtain ⟨hlt, rfl⟩ := List.getElem?_eq_some_iff.mp hc'
    have hlast : i < log.currentCmds.length - 1 := by
      by_contra hge
      have hi : i = log.currentCmds.length - 1 := by omega
      have henter := hscope.2
      rw [List.getLast?_eq_getElem?, ← hi, List.getElem?_eq_getElem hlt, Option.map_some]
        at henter
      exact htype (Option.some.inj henter)
    rw [List.getElem?_dropLast, if_pos hlast, List.getElem?_eq_getElem hlt]
  · refine hasAt_setCurrentCmds lasting h (fun i c' hc' _ => ?_) hat
    rw [List.getElem?_append_left (List.getElem?_eq_some_iff.mp hc').1, hc']

/-- A command is logged or dropped. -/
theorem hasAt_logCommand (command : CommandType) (location : Int) (hat : log.HasAt p arc) :
    (log.logCommand command location).2.HasAt p arc := by
  unfold logCommand
  split
  · exact hat
  · rename_i h
    split
    · exact hat
    · dsimp only
      split
      · exact hat
      · have hid : (log.noteCommand ⟨command, location⟩).currentEventActionId ≠ -1 := h
        exact hasAt_storeCommand lasting hid _ hat

end Lasting

/-- What `eventTriggered` does to the commands, when it resolves a trigger. -/
theorem onlyLocation_eventTriggered {log : ActionLog} {eventId : Int} {arc : PendingTriggerArc}
    (h : log.currentEventActionId ≠ -1) (hpending : log.pendingTriggerArcs[eventId]? = some arc)
    (htrigger : log.IsTrigger arc) :
    OnlyLocation log (log.eventTriggered eventId) eventId arc := by
  obtain ⟨c, hc, htype⟩ := htrigger
  have hstarted := log.pendingStarted _ _ hpending
  unfold eventTriggered
  rw [if_neg h, hpending]
  dsimp only
  -- the event action of the arc is changed in one command
  have haction := eventAction_modifyEventAction log hstarted fun a => { a with
    commands := a.commands.modify arc.commandId fun c =>
      { c with location := log.currentEventActionId } }
  -- only that command has a new location
  have hcommand : ∀ other, commandAt (log.modifyEventAction arc.operationId fun a => { a with
      commands := a.commands.modify arc.commandId fun c =>
        { c with location := log.currentEventActionId } }) other =
      if other.operationId = arc.operationId ∧ arc.commandId = other.commandId then
        (log.commandAt other).map fun c => { c with location := log.currentEventActionId }
      else log.commandAt other := by
    intro other
    unfold commandAt
    rw [haction]
    by_cases hid : other.operationId = arc.operationId
    · rw [if_pos hid, List.getElem?_modify, hid]
      by_cases hindex : arc.commandId = other.commandId <;> simp [hindex]
    · simp [hid]
  refine
    { located := ?_
      commands := ?_
      ids := ?_
      types := ?_
      pending := rfl
      scopeDepth := rfl
      maxEventActionId := rfl
      arcs := rfl
      current := rfl
      cmdsInCurrentEvent := rfl }
  · -- it has the id of the current event action
    refine (hcommand arc).trans ?_
    rw [if_pos ⟨rfl, rfl⟩, hc, Option.map_some, htype]
  · -- any other command is as it was
    intro other hother
    refine (hcommand other).trans (if_neg ?_)
    rintro ⟨hid, hindex⟩
    obtain ⟨operationId, commandId⟩ := other
    exact hother (by rw [PendingTriggerArc.mk.injEq]; exact ⟨hid, hindex.symm⟩)
  · intro id
    exact Std.ExtTreeMap.mem_modify
  · -- the types stay
    intro id
    refine (congrArg EventAction.type (haction id)).trans ?_
    split
    · rename_i hid
      rw [hid]
    · rfl

/-- No call takes a command away or moves it, but the entry of a scope. -/
theorem hasAt_perform {log : ActionLog} (ok : TriggersOk log) {p : Command → Prop}
    (lasting : Lasting p) (call : LogCall) {arc : PendingTriggerArc} (hat : log.HasAt p arc) :
    (call.perform log).HasAt p arc := by
  cases call with
  | addArc earlier later duration => exact hat
  | startEventAction operation =>
    obtain ⟨c, hc, hp⟩ := hat
    refine ⟨c, ?_, hp⟩
    rw [← hc]
    show ((log.startEventAction operation).eventAction _).commands[_]? = _
    rw [eventAction_startEventAction]
    rfl
  | endEventAction => exact hat
  | setEventActionType type =>
    show (log.setEventActionType type).2.HasAt p arc
    unfold setEventActionType
    split
    · exact hat
    · rename_i h
      obtain ⟨c, hc, hp⟩ := hat
      refine ⟨c, ?_, hp⟩
      rw [← hc]
      unfold commandAt
      rw [eventAction_modifyEventAction log (log.currentStarted h)]
      split
      · rename_i hid
        rw [hid]
      · rfl
  | logCommand command location => exact hasAt_logCommand lasting command location hat
  | triggerEvent eventId =>
    show (log.triggerEvent eventId).HasAt p arc
    unfold triggerEvent
    split
    · exact hat
    · rename_i h
      refine hasAt_setCurrentCmds lasting h (fun i c' hc' _ => ?_) hat
      rw [List.getElem?_append_left (List.getElem?_eq_some_iff.mp hc').1, hc']
  | eventTriggered eventId =>
    show (log.eventTriggered eventId).HasAt p arc
    by_cases h : log.currentEventActionId = -1
    · simpa [eventTriggered, h] using hat
    · cases hpending : log.pendingTriggerArcs[eventId]? with
      | none => simpa [eventTriggered, h, hpending] using hat
      | some resolved =>
        have htrigger := ok.points _ _ hpending
        have honly := onlyLocation_eventTriggered h hpending htrigger
        obtain ⟨c, hc, hp⟩ := hat
        by_cases harc : arc = resolved
        · -- the command whose location is filled in is a trigger
          obtain ⟨c', hc', htype⟩ := htrigger
          rw [harc, hc', Option.some.injEq] at hc
          subst hc
          exact ⟨_, harc ▸ honly.located, htype ▸ lasting.located c' _ hp htype⟩
        · exact ⟨c, (honly.commands arc harc).trans hc, hp⟩

/-- No call takes a trigger command away or moves it. -/
theorem isTrigger_perform {log : ActionLog} (ok : TriggersOk log) (call : LogCall)
    {arc : PendingTriggerArc} (htrigger : log.IsTrigger arc) :
    (call.perform log).IsTrigger arc :=
  hasAt_perform ok lasting_trigger call htrigger

/-! ## The pending arcs -/

/-- A command leaves the pending arcs alone. -/
@[simp] theorem pending_logCommand (log : ActionLog) (command : CommandType) (location : Int) :
    (log.logCommand command location).2.pendingTriggerArcs = log.pendingTriggerArcs := by
  unfold logCommand
  split
  · rfl
  · split
    · rfl
    · dsimp only
      split
      · rfl
      · unfold storeCommand
        split <;> rfl

/-- What is pending after a call was pending before, unless the call is its trigger. -/
theorem pending_perform {log : ActionLog} {call : LogCall} {k : Int} {arc : PendingTriggerArc}
    (h : (call.perform log).pendingTriggerArcs[k]? = some arc) :
    log.pendingTriggerArcs[k]? = some arc ∨ call = .triggerEvent k ∧ log.Triggers call arc := by
  cases call with
  -- only triggers touch what is pending
  | addArc earlier later duration => exact Or.inl h
  | startEventAction operation => exact Or.inl h
  | endEventAction => exact Or.inl h
  | setEventActionType type =>
    refine Or.inl ?_
    rw [← h]
    show _ = (log.setEventActionType type).2.pendingTriggerArcs[k]?
    unfold setEventActionType
    split <;> rfl
  | logCommand command location =>
    exact Or.inl (pending_logCommand log command location ▸ h)
  | triggerEvent eventId =>
    replace h : (log.triggerEvent eventId).pendingTriggerArcs[k]? = some arc := h
    unfold triggerEvent at h
    split at h
    · -- outside of event actions nothing is triggered
      exact Or.inl h
    · rename_i hcurrent
      dsimp only at h
      rw [Std.ExtTreeMap.getElem?_insert] at h
      split at h
      · -- the arc is the one that has just been made
        rename_i heq
        obtain rfl := Std.LawfulEqCmp.compare_eq_iff_eq.mp heq
        exact Or.inr ⟨rfl, ⟨_, rfl⟩, hcurrent, (Option.some.inj h).symm⟩
      · exact Or.inl h
  | eventTriggered eventId =>
    refine Or.inl ?_
    replace h : (log.eventTriggered eventId).pendingTriggerArcs[k]? = some arc := h
    unfold eventTriggered at h
    split at h
    · exact h
    · split at h
      · exact h
      · dsimp only at h
        rw [Std.ExtTreeMap.getElem?_erase] at h
        split at h
        · exact nomatch h
        · exact h

/-- The command of a trigger is there after it. -/
theorem isTrigger_of_triggers {log : ActionLog} {call : LogCall} {arc : PendingTriggerArc}
    (h : log.Triggers call arc) : (call.perform log).IsTrigger arc := by
  obtain ⟨⟨eventId, rfl⟩, hcurrent, rfl⟩ := h
  refine ⟨⟨.triggerArc, -1⟩, ?_, rfl⟩
  show commandAt (log.triggerEvent eventId) _ = _
  unfold triggerEvent
  rw [dif_neg hcurrent]
  refine (commandAt_setCurrentCmds hcurrent _ _).trans ((if_pos rfl).trans ?_)
  exact List.getElem?_concat_length

/-- Pending arcs point at trigger commands, and at different ones. -/
theorem triggersOk_perform {log : ActionLog} (ok : TriggersOk log) (call : LogCall) :
    TriggersOk (call.perform log) where
  points k arc h := by
    rcases pending_perform h with hold | ⟨-, hnew⟩
    · exact isTrigger_perform ok call (ok.points k arc hold)
    · exact isTrigger_of_triggers hnew
  distinct k k' arc h h' := by
    -- a new arc points where no command was
    have hfresh : ∀ j : Int, log.pendingTriggerArcs[j]? = some arc → ¬log.Triggers call arc := by
      rintro j hj ⟨-, -, rfl⟩
      exact not_isTrigger_nextArc log (ok.points j _ hj)
    rcases pending_perform h with hold | ⟨hcall, hnew⟩
    · rcases pending_perform h' with hold' | ⟨-, hnew'⟩
      · exact ok.distinct k k' arc hold hold'
      · exact absurd hnew' (hfresh k hold)
    · rcases pending_perform h' with hold' | ⟨hcall', -⟩
      · exact absurd hnew (hfresh k' hold')
      · rw [hcall] at hcall'
        exact LogCall.triggerEvent.inj hcall'

/-! ## Settled triggers -/

/-- A trigger that is not pending does not become so again. -/
theorem settled_perform {log : ActionLog} (ok : TriggersOk log) (call : LogCall)
    {arc : PendingTriggerArc} (h : log.Settled arc) : (call.perform log).Settled arc := by
  refine ⟨isTrigger_perform ok call h.1, fun k hk => ?_⟩
  rcases pending_perform hk with hold | ⟨-, -, -, rfl⟩
  · exact h.2 k hold
  · exact not_isTrigger_nextArc log h.1

/-- An arc whose trigger has been resolved is settled. -/
theorem settled_of_resolves {log : ActionLog} (ok : TriggersOk log) {call : LogCall}
    {arc : PendingTriggerArc} (h : log.Resolves call arc) : (call.perform log).Settled arc := by
  obtain ⟨eventId, rfl, hcurrent, hpending⟩ := h
  have htrigger := ok.points _ _ hpending
  have honly := onlyLocation_eventTriggered hcurrent hpending htrigger
  refine ⟨isTrigger_perform ok _ htrigger, fun k hk => ?_⟩
  replace hk : (log.eventTriggered eventId).pendingTriggerArcs[k]? = some arc := hk
  rw [honly.pending, Std.ExtTreeMap.getElem?_erase] at hk
  split at hk
  · exact nomatch hk
  · rename_i hne
    exact hne (Std.LawfulEqCmp.compare_eq_iff_eq.mpr (ok.distinct _ _ _ hpending hk))

/-! ## A sequence of calls -/

/-- At the start nothing is pending. -/
theorem triggersOk_init : TriggersOk ActionLog.init where
  points k arc h := by simp [ActionLog.init] at h
  distinct k k' arc h := by simp [ActionLog.init] at h

/-- What holds at the beginning and is kept by every call holds after every part of the calls. -/
theorem triggersOk_run (calls : List LogCall) : TriggersOk (LogCall.run calls) := by
  suffices hfold : ∀ (log : ActionLog), TriggersOk log →
      TriggersOk (calls.foldl LogCall.perform log) from hfold _ triggersOk_init
  intro log ok
  induction calls generalizing log with
  | nil => exact ok
  | cons call calls ih => exact ih _ (triggersOk_perform ok call)

/-- What every call keeps from one point of a run on holds at every later one. -/
theorem run_take_of_le {calls : List LogCall} {P : ActionLog → Prop}
    (hkeeps : ∀ log call, TriggersOk log → P log → P (LogCall.perform log call)) {i j : Nat}
    (hle : i ≤ j) (h : P (LogCall.run (calls.take i))) : P (LogCall.run (calls.take j)) := by
  induction j, hle using Nat.le_induction with
  | base => exact h
  | succ j _ ih =>
    cases hcall : calls[j]? with
    | none =>
      have hlength := List.getElem?_eq_none_iff.mp hcall
      rw [List.take_of_length_le (by omega)]
      rwa [List.take_of_length_le hlength] at ih
    | some call =>
      rw [run_take_succ hcall]
      exact hkeeps _ call (triggersOk_run _) ih

/-- Pending trigger arcs always point at a trigger command. After every sequence of calls, an arc
    that is pending names an event action that exists and a command of it that is a trigger;
    `eventTriggered` does nothing, or fills in the location of that command and nothing else;
    different triggers have different commands, and each is resolved at most once, by a later
    call. -/
theorem pending_arcs_point_at_triggers (calls : List LogCall) :
    let log := LogCall.run calls
    (∀ (k : Int) (arc : PendingTriggerArc), log.pendingTriggerArcs[k]? = some arc →
      arc.operationId ∈ log.eventActions ∧
        arc.commandId < (log.eventAction arc.operationId).commands.length ∧ log.IsTrigger arc) ∧
    (∀ eventId, log.eventTriggered eventId = log ∨
      ∃ arc, log.pendingTriggerArcs[eventId]? = some arc ∧
        OnlyLocation log (log.eventTriggered eventId) eventId arc) ∧
    ∀ i call arc, calls[i]? = some call → (LogCall.run (calls.take i)).Triggers call arc →
      (∀ j call', calls[j]? = some call' → (LogCall.run (calls.take j)).Triggers call' arc →
        i = j) ∧
      (∀ j call', calls[j]? = some call' → (LogCall.run (calls.take j)).Resolves call' arc →
        i < j) ∧
      ∀ j k call' call'', calls[j]? = some call' → calls[k]? = some call'' →
        (LogCall.run (calls.take j)).Resolves call' arc →
        (LogCall.run (calls.take k)).Resolves call'' arc → j = k := by
  intro log
  have ok := triggersOk_run calls
  refine ⟨fun k arc h => ?_, fun eventId => ?_, fun i call arc hcall htriggers => ?_⟩
  · obtain ⟨c, hc, htype⟩ := ok.points k arc h
    exact ⟨log.pendingStarted k arc h, (List.getElem?_eq_some_iff.mp hc).1, c, hc, htype⟩
  · by_cases h : log.currentEventActionId = -1
    · exact Or.inl (by simp [eventTriggered, h])
    · cases hpending : log.pendingTriggerArcs[eventId]? with
      | none => exact Or.inl (by simp [eventTriggered, h, hpending])
      | some arc =>
        exact Or.inr ⟨arc, rfl, onlyLocation_eventTriggered h hpending (ok.points _ _ hpending)⟩
  · have hafter : ∀ {i j call}, calls[i]? = some call →
        (LogCall.run (calls.take i)).Triggers call arc → i < j →
        (LogCall.run (calls.take j)).IsTrigger arc := by
      intro i j call hcall htriggers hlt
      refine run_take_of_le (i := i + 1) (fun log call ok => isTrigger_perform ok call) hlt ?_
      rw [run_take_succ hcall]
      exact isTrigger_of_triggers htriggers
    have hnew : ∀ {j call}, (LogCall.run (calls.take j)).Triggers call arc →
        ¬(LogCall.run (calls.take j)).IsTrigger arc := by
      rintro j call ⟨-, -, rfl⟩
      exact not_isTrigger_nextArc _
    refine ⟨fun j call' hcall' htriggers' => ?_, fun j call' hcall' hresolves => ?_,
      fun j k call' call'' hcall' hcall'' hresolves hresolves' => ?_⟩
    · rcases Nat.lt_trichotomy i j with hlt | heq | hgt
      · exact absurd (hafter hcall htriggers hlt) (hnew htriggers')
      · exact heq
      · exact absurd (hafter hcall' htriggers' hgt) (hnew htriggers)
    · by_contra hge
      obtain ⟨eventId, -, -, hpending⟩ := hresolves
      -- the command was there before its trigger
      have hthere := (triggersOk_run (calls.take j)).points _ _ hpending
      exact hnew htriggers (run_take_of_le (fun log call ok => isTrigger_perform ok call)
        (Nat.not_lt.mp hge) hthere)
    · have hsettled : ∀ {j k call call'}, calls[j]? = some call →
          (LogCall.run (calls.take j)).Resolves call arc →
          (LogCall.run (calls.take k)).Resolves call' arc → ¬j < k := by
        intro j k call call' hcall hresolves hresolves' hlt
        obtain ⟨eventId, -, -, hpending⟩ := hresolves'
        refine (run_take_of_le (i := j + 1) (P := fun log => log.Settled arc)
          (fun log call ok => settled_perform ok call) hlt ?_).2 eventId hpending
        rw [run_take_succ hcall]
        exact settled_of_resolves (triggersOk_run _) hresolves
      have hjk := @hsettled j k call' call'' hcall' hresolves hresolves'
      have hkj := @hsettled k j call'' call' hcall'' hresolves' hresolves
      omega

end R4.ActionLog
