import Mathlib.Algebra.Ring.Int.Defs
import R4.Spec.ReplayDriver
import R4.Spec.ReplaySchedulerStep
import R4.Spec.WarningFile

/-!
# The skipped event actions of a report

The scheduler reports a warning for every item that goes into the backlog and another one for every
item that leaves it, so the difference is the length of the backlog. The report counts the warnings
with these texts, but only those of the interpreter, which reports neither. So it counts none.

## Key results

- `backlog_length_eq_balance`: the warnings tell the length of the backlog
- `numSkippedEvents_eq_zero`: what the report counts
- `skipped_events_counted_iff`: when the report is right
-/

namespace R4

open ReportReader ReplayScheduler

variable {W : Type}

/-- The reporters of warnings other than the scheduler: the interpreter, the console and the
    providers of the replay. -/
inductive OtherReport : WarningCollector → WarningCollector → Prop where
  | exception (c : WarningCollector) (details : StdString) :
      OtherReport c (c.report "JavaScript_Interpreter".toList "An exception occured".toList details)
  | consoleMessage (c : WarningCollector) (source : MessageSource) (level : MessageLevel)
      (message : List UInt16) : OtherReport c (R4.consoleMessage source level message c)
  | consoleCall (c : WarningCollector) (level : MessageLevel) (message : List UInt16) :
      OtherReport c (R4.consoleCall level message c)
  | networkMatch (c : WarningCollector) (details : StdString) :
      OtherReport c (c.report "WEBERA_NETWORK_DATA".toList
        "Network message fuzzy matched in best effort mode.".toList details)
  | newRequest (c : WarningCollector) (details : StdString) :
      OtherReport c (c.report "WEBERA_NETWORK_DATA".toList
        "New network request in best effort mode.".toList details)
  | newTimeAccess (c : WarningCollector) :
      OtherReport c (c.report "WEBERA_TIME_DATA".toList
        "New access to the time API in best effort mode.".toList [])
  | newRandomAccess (c : WarningCollector) :
      OtherReport c (c.report "WEBERA_RANDOM_DATA".toList
        "New access to the random API in best effort mode.".toList [])

/-- Any number of warnings of other reporters. -/
abbrev OthersReport : WarningCollector → WarningCollector → Prop :=
  Relation.ReflTransGen OtherReport

namespace SkippedEvents

/-- The program around the scheduler collects the warnings of the scheduler, and the rest of it
    reports what it reports anywhere. -/
structure Collects (env : ReplayEnv W) (collector : W → WarningCollector) : Prop where
  warningCollectorReport : ∀ module description details w,
    collector (env.warningCollectorReport module description details w) =
      (collector w).report module description details
  warningCollectorSetCurrentEventAction : ∀ id w,
    collector (env.warningCollectorSetCurrentEventAction id w) =
      (collector w).setCurrentEventAction id
  hbAllocateEventActionId : ∀ w, collector (env.hbAllocateEventActionId w).2 = collector w
  actionLogStrictMode : ∀ mode w, collector (env.actionLogStrictMode mode w) = collector w
  runEventAction : ∀ providers newId originalId d w found w',
    env.runEventAction providers newId originalId d w = some (found, w') →
      OthersReport (collector w) (collector w')

/-! ## Warnings -/

/-- What the text of a warning says about the length of the backlog. -/
def textChange (description : StdString) : Int :=
  if description = "Event action skipped after timeout.".toList then 1
  else if description = "Event action executed from pending schedule.".toList then -1
  else 0

/-- A warning about a skipped event action says that one more item waits. -/
theorem textChange_skipped : textChange "Event action skipped after timeout.".toList = 1 := by
  simp [textChange]

/-- A warning about an executed event action takes one back. -/
theorem textChange_executed :
    textChange "Event action executed from pending schedule.".toList = -1 := by
  simp [textChange]

/-- Only the scheduler has a backlog. -/
def change (w : Warning) : Int :=
  if w.module = "WEBERA_SCHEDULER".toList then textChange w.shortDescription else 0

def balance (ws : List Warning) : Int := (ws.map change).sum

/-- A warning that can be read and that the report does not count. -/
structure Uncounted (w : Warning) : Prop where
  plain : PlainHeader w
  module : contains "JavaScript_Interpreter" w.module = true →
    contains "Event action skipped after timeout." w.shortDescription = false ∧
    contains "Event action executed from pending schedule." w.shortDescription = false

/-- Only warnings that the report does not count have been added, which say that the backlog has
    changed by `n`. -/
def Logs (c c' : WarningCollector) (n : Int) : Prop :=
  ∃ new, c'.warnings = c.warnings ++ new ∧ (∀ w ∈ new, Uncounted w) ∧ balance new = n

theorem Logs.refl (c : WarningCollector) : Logs c c 0 := ⟨[], by simp, by simp, rfl⟩

theorem Logs.trans {c c' c'' : WarningCollector} {m n : Int} (h : Logs c c' m)
    (h' : Logs c' c'' n) : Logs c c'' (m + n) := by
  obtain ⟨new, hnew, huncounted, rfl⟩ := h
  obtain ⟨new', hnew', huncounted', rfl⟩ := h'
  refine ⟨new ++ new', by rw [hnew', hnew, List.append_assoc], ?_, by simp [balance]⟩
  intro w hw
  exact (List.mem_append.mp hw).elim (huncounted w) (huncounted' w)

/-- A warning that is plain and not counted is logged. -/
theorem logs_report (c : WarningCollector) {module description : StdString}
    (hmodule : Plain module) (hdescription : Plain description)
    (huncounted : contains "JavaScript_Interpreter" module = true →
      contains "Event action skipped after timeout." description = false ∧
      contains "Event action executed from pending schedule." description = false)
    (details : StdString) :
    Logs c (c.report module description details)
      (change ⟨c.currentEventAction, module, description, details⟩) := by
  refine ⟨[_], rfl, ?_, by simp [balance]⟩
  intro w hw
  obtain rfl := List.mem_singleton.mp hw
  exact ⟨⟨hmodule, hdescription⟩, huncounted⟩

/-- Another reporter than the interpreter, and not the scheduler. -/
theorem logs_other (c : WarningCollector) {module description : StdString}
    (hmodule : Plain module) (hlength : module.length < 22)
    (hother : module ≠ "WEBERA_SCHEDULER".toList) (hdescription : Plain description)
    (details : StdString) : Logs c (c.report module description details) 0 := by
  have hinterpreter : contains "JavaScript_Interpreter" module = false := contains_eq_false hlength
  have hlogs := logs_report c hmodule hdescription
    (fun h => absurd (hinterpreter.symm.trans h) Bool.false_ne_true) details
  rwa [change, if_neg hother] at hlogs

/-- The warnings of the console do not come from the interpreter, and those of the interpreter have
    another text. -/
theorem logs_of_otherReport {c c' : WarningCollector} (h : OtherReport c c') : Logs c c' 0 := by
  -- none of these texts is about the backlog
  cases h with
  | exception details =>
    exact logs_report c (by simp [Plain]) (by simp [Plain])
      (fun _ => ⟨contains_eq_false (by simp), contains_eq_false (by simp)⟩) details
  | consoleMessage source level message =>
    exact logs_other c (by simp [Plain]) (by simp) (by simp) (plain_consoleMessage source level) _
  | consoleCall level message =>
    exact logs_other c (by simp [Plain]) (by simp) (by simp) (plain_consoleCall level) _
  | networkMatch details =>
    exact logs_other c (by simp [Plain]) (by simp) (by simp) (by simp [Plain]) details
  | newRequest details =>
    exact logs_other c (by simp [Plain]) (by simp) (by simp) (by simp [Plain]) details
  | newTimeAccess =>
    exact logs_other c (by simp [Plain]) (by simp) (by simp) (by simp [Plain]) []
  | newRandomAccess =>
    exact logs_other c (by simp [Plain]) (by simp) (by simp) (by simp [Plain]) []

/-- Warnings of others say nothing about the backlog. -/
theorem logs_of_othersReport {c c' : WarningCollector} (h : OthersReport c c') : Logs c c' 0 := by
  induction h with
  | refl => exact .refl c
  | tail _ hstep ih => exact ih.trans (logs_of_otherReport hstep)

/-! ## The scheduler -/

/-- What is logged says how the length of the backlog changes. -/
def Tells (collector : W → WarningCollector) (s s' : ReplayScheduler W) : Prop :=
  Logs (collector s.world) (collector s'.world)
    (s'.scheduleBacklog.length - s.scheduleBacklog.length : Int)

theorem Tells.trans {collector : W → WarningCollector} {s s' s'' : ReplayScheduler W}
    (h : Tells collector s s') (h' : Tells collector s' s'') : Tells collector s s'' := by
  have hsum := Logs.trans h h'
  rwa [show (s'.scheduleBacklog.length - s.scheduleBacklog.length : Int) +
    (s''.scheduleBacklog.length - s'.scheduleBacklog.length) =
    s''.scheduleBacklog.length - s.scheduleBacklog.length by omega] at hsum

/-- Without a warning and without a change of the backlog. -/
theorem tells_of_same {collector : W → WarningCollector} {s s' : ReplayScheduler W}
    (hworld : s'.world = s.world) (hbacklog : s'.scheduleBacklog = s.scheduleBacklog) :
    Tells collector s s' := by
  rw [Tells, hworld, hbacklog, Int.sub_self]
  exact .refl _

/-- Stopping says nothing. -/
theorem tells_stop {collector : W → WarningCollector} (s : ReplayScheduler W) :
    Tells collector s s.stop := by
  unfold stop
  split <;> exact tells_of_same rfl rfl

/-- Nor does a change of the mode. -/
theorem tells_stopState {collector : W → WarningCollector} (state : ReplaySchedulerState)
    (s : ReplayScheduler W) : Tells collector s (s.stopState state) := by
  unfold stopState
  split
  · exact tells_of_same rfl rfl
  · have hstate : Tells collector s { s with state := state } := tells_of_same rfl rfl
    exact hstate.trans (tells_stop _)

section
variable {env : ReplayEnv W} {collector : W → WarningCollector} (collects : Collects env collector)
include collects

/-- A report of the scheduler about anything but the backlog. -/
theorem logs_schedulerReport (description : String) (details : StdString) (s : ReplayScheduler W)
    (hplain : Plain description.toList) {n : Int} (hchange : textChange description.toList = n) :
    Logs (collector s.world) (collector (s.report env description details).world) n := by
  have hscheduler : contains "JavaScript_Interpreter" "WEBERA_SCHEDULER".toList = false :=
    contains_eq_false (by simp)
  have hlogs := logs_report (collector s.world)
    (show Plain "WEBERA_SCHEDULER".toList by simp [Plain]) hplain
    (fun h => absurd (hscheduler.symm.trans h) Bool.false_ne_true) details
  have hn : change ⟨(collector s.world).currentEventAction, "WEBERA_SCHEDULER".toList,
      description.toList, details⟩ = n := (if_pos rfl).trans hchange
  rw [hn] at hlogs
  rw [report, collects.warningCollectorReport]
  exact hlogs

/-- Running an event action says nothing about the backlog. -/
theorem logs_runUnder {originalId : EventActionId} {d : EventActionDescriptor}
    {s s' : ReplayScheduler W} {found : Bool}
    (h : s.runUnder env originalId d = some (found, s')) :
    Logs (collector s.world) (collector s'.world) 0 :=
  logs_of_othersReport (collects.runEventAction _ _ _ _ _ _ _ (runUnder_eq_some h).1)

/-- Nor does the fuzzy stage. -/
theorem logs_fuzzyStage {originalId : EventActionId} {d : EventActionDescriptor}
    {s s' : ReplayScheduler W} {found found' : Bool}
    (h : s.fuzzyStage env originalId d found = some (found', s')) :
    Logs (collector s.world) (collector s'.world) 0 := by
  unfold fuzzyStage at h
  split at h
  · simp only [tryFuzzy, Option.bind_eq_bind, Option.bind_eq_some_iff] at h
    obtain ⟨key, -, ⟨bestScore, best⟩, -, h⟩ := h
    split at h
    · -- the match is reported before it runs
      have hchange : textChange "Event action fuzzy matched in best effort mode.".toList = 0 := by
        simp [textChange]
      exact (logs_schedulerReport collects _ _ s (by simp [Plain]) hchange).trans
        (logs_runUnder collects h)
    · obtain ⟨-, rfl⟩ := Prod.mk.inj (Option.some.inj h)
      exact .refl _
  · obtain ⟨-, rfl⟩ := Prod.mk.inj (Option.some.inj h)
    exact .refl _

/-- Nor do both stages. -/
theorem logs_tryDescriptor {originalId : EventActionId} {d : EventActionDescriptor}
    {s s' : ReplayScheduler W} {found : Bool}
    (h : s.tryDescriptor env originalId d = some (found, s')) :
    Logs (collector s.world) (collector s'.world) 0 := by
  simp only [tryDescriptor, Option.bind_eq_bind, Option.bind_eq_some_iff] at h
  obtain ⟨⟨found₁, s₁⟩, hrun, ⟨found₂, s₂⟩, hstage, h⟩ := h
  have hlogs := (logs_runUnder collects hrun).trans (logs_fuzzyStage collects hstage)
  have hsame : collector s'.world = collector s₂.world := by
    dsimp only at h
    split at h <;> obtain ⟨-, rfl⟩ := Prod.mk.inj (Option.some.inj h)
    · exact collects.hbAllocateEventActionId s₂.world
    · rfl
  rw [hsame]
  exact hlogs

/-- Nor does an attempt, wherever the item is stored. -/
theorem logs_tryExecute {inPlace : ReplayItem → ReplayScheduler W → ReplayScheduler W}
    (hplace : ∀ x s, (inPlace x s).world = s.world) {x x' : ReplayItem} {s s' : ReplayScheduler W}
    {found : Bool} (h : s.tryExecuteEventActionDescriptor env inPlace x = some (found, x', s')) :
    Logs (collector s.world) (collector s'.world) 0 := by
  unfold tryExecuteEventActionDescriptor at h
  split at h
  · -- a marker reports nothing
    simp only [Option.some.injEq, Prod.mk.injEq] at h
    obtain ⟨-, -, rfl⟩ := h
    have hworld : s.marker.world = s.world := by
      unfold marker
      split <;> rfl
    rw [hworld]
    exact .refl _
  · -- the warnings get the event action, and the attempt reports nothing about the backlog
    simp only [Option.bind_eq_bind, Option.bind_eq_some_iff, Option.pure_def, Option.some.injEq,
      Prod.mk.injEq] at h
    obtain ⟨d, -, ⟨found', s₁⟩, htry, -, -, rfl⟩ := h
    have hlogs := logs_tryDescriptor collects htry
    rw [hplace, collects.warningCollectorSetCurrentEventAction] at hlogs
    exact hlogs

/-- The backlog is tried until one of its items runs, which is reported. -/
theorem logs_tryBacklog {done todo : List ReplayItem} {s s' : ReplayScheduler W} {success : Bool}
    (h : tryBacklog env done todo s = some (success, s')) :
    Logs (collector s.world) (collector s'.world) (if success then -1 else 0) := by
  induction todo generalizing done s with
  | nil =>
    simp only [tryBacklog, Option.some.injEq, Prod.mk.injEq] at h
    obtain ⟨rfl, rfl⟩ := h
    exact .refl _
  | cons x rest ih =>
    simp only [tryBacklog, Option.bind_eq_bind, Option.bind_eq_some_iff] at h
    obtain ⟨⟨found, x', s₁⟩, htry, h⟩ := h
    have hlogs := logs_tryExecute collects (by intros; rfl) htry
    -- strict mode is switched on again in both cases, and the log does not see it
    rw [collects.actionLogStrictMode] at hlogs
    cases found with
    | true =>
      simp only [if_true, Option.pure_def, Option.some.injEq, Prod.mk.injEq] at h
      obtain ⟨rfl, rfl⟩ := h
      -- the hit takes one item out of the backlog
      have hreport := logs_schedulerReport collects
        "Event action executed from pending schedule." []
        { s₁ with
          world := env.actionLogStrictMode true s₁.world
          scheduleBacklog := done ++ rest
          consumed := s₁.consumed ++ [x'] } (by simp [Plain]) textChange_executed
      rw [collects.actionLogStrictMode] at hreport
      exact hlogs.trans hreport
    | false =>
      simp only [Bool.false_eq_true, if_false] at h
      have hrest := ih h
      rw [collects.actionLogStrictMode] at hrest
      -- the loop goes on
      have hsum := hlogs.trans hrest
      rwa [Int.zero_add] at hsum

/-- A warning that is not about the backlog. -/
theorem tells_report {description : String} (details : StdString) (s : ReplayScheduler W)
    (hplain : Plain description.toList) (hchange : textChange description.toList = 0) :
    Tells collector s (s.report env description details) := by
  rw [Tells, show (s.report env description details).scheduleBacklog = s.scheduleBacklog from rfl,
    Int.sub_self]
  exact logs_schedulerReport collects description details s hplain hchange

/-- An item that the backlog gives up is reported as executed. -/
theorem tells_tryBacklog {s s' : ReplayScheduler W} {success : Bool}
    (h : tryBacklog env [] s.scheduleBacklog s = some (success, s')) : Tells collector s s' := by
  have hlength := (tryBacklog_lengths rfl h).2
  have hlogs := logs_tryBacklog collects h
  have hchange : (s'.scheduleBacklog.length - s.scheduleBacklog.length : Int) =
      if success then -1 else 0 := by
    cases success <;> simp at hlength ⊢ <;> omega
  rwa [Tells, hchange]

/-- An item that is skipped is reported. -/
theorem tells_tryHead {item : ReplayItem} {rest : List ReplayItem} {s s' : ReplayScheduler W}
    {more : Bool} (h : s.tryHead env item rest = some (more, s')) : Tells collector s s' := by
  simp only [tryHead, Option.bind_eq_bind, Option.bind_eq_some_iff] at h
  obtain ⟨⟨found, x', s₁⟩, htry, h⟩ := h
  have hlogs := logs_tryExecute collects (by intros; rfl) htry
  have hbacklog : s₁.scheduleBacklog = s.scheduleBacklog := by
    rcases tryExecute_cases htry with ⟨-, -, -, rfl⟩ | ⟨-, -, w, hframe⟩
    · exact (marker_items s).2
    · exact hframe.scheduleBacklog
  -- the attempt itself leaves the backlog alone
  have htells : Tells collector s s₁ := by
    rw [Tells, hbacklog, Int.sub_self]
    exact hlogs
  refine htells.trans ?_
  cases found with
  | true =>
    simp only [if_true, Option.pure_def, Option.some.injEq, Prod.mk.injEq] at h
    obtain ⟨-, rfl⟩ := h
    exact tells_of_same rfl rfl
  | false =>
    simp only [Bool.false_eq_true, if_false] at h
    split at h
    · obtain ⟨-, rfl⟩ := Prod.mk.inj (Option.some.inj h)
      have hreport := logs_schedulerReport collects "Event action skipped after timeout."
        ("This is the current queue of events\n".toList ++ s₁.debugPrintTimers env) s₁
        (by simp [Plain]) textChange_skipped
      have hone : ((s₁.scheduleBacklog ++ [x']).length - s₁.scheduleBacklog.length : Int) = 1 := by
        rw [List.length_append, List.length_singleton]
        omega
      rw [← hone] at hreport
      exact hreport
    · split at h
      · obtain ⟨-, rfl⟩ := Prod.mk.inj (Option.some.inj h)
        exact tells_of_same rfl rfl
      · simp only [Option.bind_eq_some_iff, Option.pure_def, Option.some.injEq,
          Prod.mk.injEq] at h
        obtain ⟨interval, -, -, rfl⟩ := h
        exact tells_of_same rfl rfl

/-- The names of what was not executed are reported, and the backlog stays. -/
theorem tells_foldl_report (names : List StdString) (s : ReplayScheduler W) :
    Tells collector s
      (names.foldl (fun s name => s.report env "Non-executed event action." name) s) := by
  induction names generalizing s with
  | nil => exact tells_of_same rfl rfl
  | cons name names ih =>
    exact (tells_report collects name s (by simp [Plain]) (by simp [textChange])).trans (ih _)

/-- The same when the register is stopped. -/
theorem tells_stopRegister (state : ReplaySchedulerState) (s : ReplayScheduler W) :
    Tells collector s (s.stopRegister env state) := by
  unfold stopRegister
  split
  · exact tells_of_same rfl rfl
  · have hstate : Tells collector s { s with state := state } := tells_of_same rfl rfl
    dsimp only
    split
    · exact (hstate.trans (tells_foldl_report collects _ _)).trans (tells_stop _)
    · exact hstate.trans (tells_stop _)

/-- A round of the scheduler reports every item that enters or leaves the backlog. -/
theorem tells_executeDelayedEventAction {s s' : ReplayScheduler W} {more : Bool}
    (h : s.executeDelayedEventAction env = some (more, s')) : Tells collector s s' := by
  unfold executeDelayedEventAction at h
  -- the schedule is empty
  split at h
  · obtain ⟨-, rfl⟩ := Prod.mk.inj (Option.some.inj h)
    exact tells_stopRegister collects .finished s
  · -- the mode is `STOP`
    split at h
    · obtain ⟨-, rfl⟩ := Prod.mk.inj (Option.some.inj h)
      exact tells_stopRegister collects .finished s
    · -- the backlog is tried first, then the head
      simp only [Option.bind_eq_bind, Option.bind_eq_some_iff] at h
      obtain ⟨⟨success, s₁⟩, hbacklog, h⟩ := h
      have htells := tells_tryBacklog collects hbacklog
      split at h
      · obtain ⟨-, rfl⟩ := Prod.mk.inj (Option.some.inj h)
        exact htells
      · exact htells.trans (tells_tryHead collects h)

/-- The timeout of an event action. -/
theorem tells_slEventActionTimeout {s s' : ReplayScheduler W}
    (h : s.slEventActionTimeout env = some s') : Tells collector s s' := by
  unfold slEventActionTimeout at h
  dsimp only at h
  -- the schedule is empty
  split at h
  · obtain rfl := Option.some.inj h
    exact tells_of_same rfl rfl
  · split at h
    · -- `STRICT` exits
      exact nomatch h
    · -- `BEST_EFFORT_NOND` reports its failure, which says nothing of the backlog
      obtain rfl := Option.some.inj h
      have hinactive : Tells collector s { s with timeoutTimerActive := false } :=
        tells_of_same rfl rfl
      refine (hinactive.trans (tells_report collects _ _ ?_ ?_)).trans (tells_stopState .error _)
      · simp [Plain]
      · simp [textChange]
    · -- the other modes report nothing
      obtain rfl := Option.some.inj h
      exact tells_of_same rfl rfl
    · obtain rfl := Option.some.inj h
      exact tells_of_same rfl rfl

/-- That of the replay. -/
theorem tells_timeout (s : ReplayScheduler W) : Tells collector s (s.timeout env) :=
  (tells_report collects [] s (by simp [Plain]) (by simp [textChange])).trans
    (tells_stopState .timeout _)

end

/-! ## A run -/

/-- One step of a replay in which the rest of the program may report warnings. -/
inductive LoggedStep (env : ReplayEnv W) (collector : W → WarningCollector)
    (s : ReplayScheduler W) : ReplayLabel → ReplayScheduler W → Prop where
  | environment (w : W) (h : OthersReport (collector s.world) (collector w)) :
      LoggedStep env collector s .environment { s with world := w }
  | scheduler {l : ReplayLabel} {s' : ReplayScheduler W} (hl : l ≠ .environment)
      (h : ReplayStep env s l s') : LoggedStep env collector s l s'

/-- The replay of a schedule file, which starts with a collector of its own. -/
def loggedReplay (env : ReplayEnv W) (collector : W → WarningCollector)
    (items : List EventActionScheduleItem) : Lts (ReplayScheduler W) ReplayLabel where
  init s := ∃ schedulerTimeout w, OthersReport .init (collector w) ∧
    s = ReplayScheduler.init env items schedulerTimeout w
  step := LoggedStep env collector

/-- Every step tells by how much the backlog has changed. -/
theorem LoggedStep.tells {env : ReplayEnv W} {collector : W → WarningCollector}
    (collects : Collects env collector) {s s' : ReplayScheduler W} {l : ReplayLabel}
    (h : LoggedStep env collector s l s') : Tells collector s s' := by
  cases h with
  | environment w h =>
    rw [Tells, Int.sub_self]
    exact logs_of_othersReport h
  | scheduler hl h =>
    cases h with
    | environment => exact absurd rfl hl
    | execute h => exact tells_executeDelayedEventAction collects h
    | eventTimeout h => exact tells_slEventActionTimeout collects h
    | globalTimeout => exact tells_timeout collects s

/-- The scheduler reports what is needed: the warnings tell the length of the backlog. -/
theorem backlog_length_eq_balance {env : ReplayEnv W} {collector : W → WarningCollector}
    (collects : Collects env collector) {items : List EventActionScheduleItem}
    {s : ReplayScheduler W} (r : (loggedReplay env collector items).Reachable s) :
    (∀ w ∈ (collector s.world).warnings, Uncounted w) ∧
      balance (collector s.world).warnings = s.scheduleBacklog.length := by
  have hlogs : Logs .init (collector s.world) s.scheduleBacklog.length := by
    refine r.invariant (P := fun s => Logs .init (collector s.world) s.scheduleBacklog.length) ?_ ?_
    · -- at the start nothing has been logged
      rintro _ ⟨schedulerTimeout, w, hw, rfl⟩
      have hlogs := logs_of_othersReport hw
      rw [← collects.hbAllocateEventActionId] at hlogs
      exact hlogs
    · -- what one step logs is added to what was logged before
      intro s l s' _ hlogs h
      have hsum := hlogs.trans (h.tells collects)
      rwa [show (s.scheduleBacklog.length + (s'.scheduleBacklog.length - s.scheduleBacklog.length) :
        Int) = s'.scheduleBacklog.length by omega] at hsum
  obtain ⟨new, hnew, huncounted, hbalance⟩ := hlogs
  rw [show WarningCollector.init.warnings = [] from rfl, List.nil_append] at hnew
  rw [hnew]
  exact ⟨huncounted, hbalance⟩

/-! ## The report -/

/-- A warning that is not counted adds nothing to the counter. -/
theorem add_numSkippedEvents {w : Warning} (huncounted : Uncounted w) (p : ParsedErrors) :
    (p.add (recordOf w)).numSkippedEvents = p.numSkippedEvents := by
  -- the warning is neither about a skipped event action nor about one that was executed
  have hskipped : (contains "JavaScript_Interpreter" w.module &&
      contains "Event action skipped after timeout." w.shortDescription) = false := by
    cases hmodule : contains "JavaScript_Interpreter" w.module
    · rfl
    · exact (huncounted.module hmodule).1
  have hexecuted : (contains "JavaScript_Interpreter" w.module &&
      contains "Event action executed from pending schedule." w.shortDescription) = false := by
    cases hmodule : contains "JavaScript_Interpreter" w.module
    · rfl
    · exact (huncounted.module hmodule).2
  unfold ParsedErrors.add
  simp only [recordOf, hskipped, hexecuted, Bool.false_eq_true, if_false]
  -- other warnings of the scheduler have counters of their own
  by_cases hnew : contains "Non-executed event action" w.shortDescription = true
  · simp only [hnew, if_true]
    split
    · rfl
    · split <;> rfl
  · rw [Bool.not_eq_true] at hnew
    simp only [hnew]
    split
    · rfl
    · split <;> rfl

/-- What the report counts of warnings of which it counts none. -/
theorem numSkippedEvents_eq_zero {ws : List Warning} (huncounted : ∀ w ∈ ws, Uncounted w)
    (p : ParsedErrors) :
    ((ws.map recordOf).foldl ParsedErrors.add p).numSkippedEvents = p.numSkippedEvents := by
  induction ws generalizing p with
  | nil => rfl
  | cons w ws ih =>
    rw [List.map_cons, List.foldl_cons, ih fun w hw => huncounted w (List.mem_cons_of_mem _ hw),
      add_numSkippedEvents (huncounted w List.mem_cons_self)]

/-- The file of warnings can be read, and the report finds no skipped event action in it. -/
theorem parseErrors_of_reachable {env : ReplayEnv W} {collector : W → WarningCollector}
    (collects : Collects env collector) {items : List EventActionScheduleItem}
    {s : ReplayScheduler W} (r : (loggedReplay env collector items).Reachable s) :
    ∃ out, parseErrors .init (collector s.world).writeLogFile = some (out, []) ∧
      out.numSkippedEvents = 0 := by
  obtain ⟨huncounted, -⟩ := backlog_length_eq_balance collects r
  exact ⟨_, parseErrors_warnings (fun w hw => (huncounted w hw).plain) .init,
    numSkippedEvents_eq_zero huncounted .init⟩

/-- The report counts the items of the backlog if and only if there are none, whatever else is
    reported in between. -/
theorem skipped_events_counted_iff {env : ReplayEnv W} {collector : W → WarningCollector}
    (collects : Collects env collector) {items : List EventActionScheduleItem}
    {s : ReplayScheduler W} (r : (loggedReplay env collector items).Reachable s) :
    ∃ out, parseErrors .init (collector s.world).writeLogFile = some (out, []) ∧
      (out.numSkippedEvents = s.scheduleBacklog.length ↔ s.scheduleBacklog = []) := by
  obtain ⟨out, hparse, hzero⟩ := parseErrors_of_reachable collects r
  refine ⟨out, hparse, ?_⟩
  rw [hzero, ← List.length_eq_zero_iff]
  omega

/-- A program in which no event action is ever scheduled: its world is the collector. -/
def idleRegister : ReplayEnv WarningCollector where
  runEventAction _ _ _ _ c := some (false, c)
  getWaitingNames _ := []
  translateOldIdToNew _ id := id
  debugPrintNames _ := []
  hbAllocateEventActionId c := (1, c)
  actionLogStrictMode _ c := c
  warningCollectorSetCurrentEventAction id c := c.setCurrentEventAction id
  warningCollectorReport module description details c := c.report module description details
  score _ _ := 0

/-- A register that does nothing logs nothing. -/
theorem collects_idleRegister : Collects idleRegister id where
  warningCollectorReport _ _ _ _ := rfl
  warningCollectorSetCurrentEventAction _ _ := rfl
  hbAllocateEventActionId _ := rfl
  actionLogStrictMode _ _ := rfl
  runEventAction _ _ _ _ _ _ _ h := by
    obtain ⟨-, rfl⟩ := Prod.mk.inj (Option.some.inj h)
    exact .refl

/-- Two markers and an event action that does not come. -/
def skippingItems : List EventActionScheduleItem :=
  [(0, .null), (0, .null), (1, .make .other "A".toList [])]

/-- The event action is waited for, and then it is skipped. -/
theorem exists_skipped :
    ∃ s, (loggedReplay idleRegister id skippingItems).Reachable s ∧
      s.scheduleBacklog.length = 1 := by
  -- the scheduler alone takes the steps of the run
  let run (s : ReplayScheduler WarningCollector) (l : ReplayLabel) :
      Option (ReplayScheduler WarningCollector) :=
    match l with
    | .execute => (s.executeDelayedEventAction idleRegister).map Prod.snd
    | .eventTimeout => s.slEventActionTimeout idleRegister
    | _ => none
  -- after two markers the event action does not come, and is skipped
  have hrun : (([.execute, .execute, .execute, .eventTimeout, .execute].foldlM run
      (ReplayScheduler.init idleRegister skippingItems 20000 .init)).map
        fun s => s.scheduleBacklog.length) = some 1 := by decide +kernel
  obtain ⟨s, hs, hlength⟩ := Option.map_eq_some_iff.mp hrun
  -- each of them is a step of the replay
  have hstep : ∀ s l s', run s l = some s' →
      (loggedReplay idleRegister id skippingItems).step s l s' := by
    intro s l s' h
    cases l with
    | environment => simp [run] at h
    | execute =>
      obtain ⟨⟨more, _⟩, hcall, rfl⟩ := Option.map_eq_some_iff.mp h
      exact .scheduler nofun (.execute hcall)
    | eventTimeout => exact .scheduler nofun (.eventTimeout h)
    | globalTimeout => simp [run] at h
  exact ⟨s, Lts.Reachable.foldlM hstep (.init ⟨20000, .init, .refl, rfl⟩) hs, hlength⟩

/-- The event action that has been skipped is not counted. -/
theorem skipped_event_not_counted :
    ∃ s, (loggedReplay idleRegister id skippingItems).Reachable s ∧
      ∃ out, parseErrors .init s.world.writeLogFile = some (out, []) ∧
        out.numSkippedEvents = 0 ∧ s.scheduleBacklog.length = 1 := by
  obtain ⟨s, r, hlength⟩ := exists_skipped
  obtain ⟨out, hparse, hzero⟩ := parseErrors_of_reachable collects_idleRegister r
  exact ⟨s, r, out, hparse, hzero, hlength⟩

/-- A run with a skipped event action, which the report does not count. -/
theorem skipped_events_counted_iff_of_skipped :
    ∃ s, (loggedReplay idleRegister id skippingItems).Reachable s ∧
      ∃ out, parseErrors .init s.world.writeLogFile = some (out, []) ∧
        (out.numSkippedEvents = s.scheduleBacklog.length ↔ s.scheduleBacklog = []) := by
  obtain ⟨s, r, -⟩ := exists_skipped
  exact ⟨s, r, skipped_events_counted_iff collects_idleRegister r⟩

end SkippedEvents

end R4
