import R4.Spec.ReplaySchedulerStep

/-!
# The modes of a replay

The mode of the scheduler, those of its providers, the skip flag and the stop state are set
in four places: a marker, an empty schedule, the timeout of an event action and the global
timeout. `ModeStep` is what these four can do. Every step of a replay is one of them, so what
holds of the modes is proved of `ModeStep` alone.

## Key results

- `modeStep_of_replayStep`: a step of the replay is a step of the mode machine
- `ModeState.Ok.step`: the modes stay in step, and the replay stops once
- `replay_mode_machine`: what holds of every replay
-/

namespace R4.ReplayScheduler

variable {W : Type}

/-- The modes and what stops them. -/
structure ModeState where
  mode : ReplayMode
  timeMode : ReplayMode
  randomMode : ReplayMode
  networkMode : ReplayMode
  skipAfterNextTry : Bool
  state : ReplaySchedulerState
  doneEmitted : Bool
  sigDoneCount : Nat
deriving DecidableEq

/-- The modes of a scheduler. -/
def modeState (s : ReplayScheduler W) : ModeState where
  mode := s.mode
  timeMode := s.providers.time.mode
  randomMode := s.providers.random.mode
  networkMode := s.providers.networkMode
  skipAfterNextTry := s.skipAfterNextTry
  state := s.state
  doneEmitted := s.doneEmitted
  sigDoneCount := s.sigDoneCount

namespace ModeState

/-- All four modes are set. -/
def setModes (m : ModeState) (mode : ReplayMode) : ModeState :=
  { m with mode := mode, timeMode := mode, randomMode := mode, networkMode := mode }

/-- The replay stops, and says why. -/
def stop (m : ModeState) (state : ReplaySchedulerState) : ModeState :=
  { m.setModes .stop with
    state := state
    doneEmitted := true
    sigDoneCount := m.sigDoneCount + 1 }

end ModeState

/-- The reason for which a step stops the replay. -/
def stopReason : ReplayLabel → ReplaySchedulerState
  | .environment => .running
  | .execute => .finished
  | .eventTimeout => .error
  | .globalTimeout => .timeout

/-- The steps of the mode machine. -/
inductive ModeStep (m : ModeState) : ReplayLabel → ModeState → Prop where
  | stay (l : ReplayLabel) : ModeStep m l m
  | hit : ModeStep m .execute { m with skipAfterNextTry := false }
  | firstMarker (h : m.mode = .strict) :
      ModeStep m .execute { m.setModes .bestEffortNond with skipAfterNextTry := false }
  | nextMarker (h : m.mode = .bestEffortNond ∨ m.mode = .bestEffort) :
      ModeStep m .execute { m.setModes .bestEffort with skipAfterNextTry := false }
  | startSkipping (h : m.mode = .bestEffort) :
      ModeStep m .eventTimeout { m with skipAfterNextTry := true }
  | stop (l : ReplayLabel) (hl : l ≠ .environment) (h : m.doneEmitted = false) :
      ModeStep m l (m.stop (stopReason l))

/-- The order of the modes: one marker after the other, and `STOP` at any time. -/
inductive Follows : ReplayMode → ReplayMode → Prop where
  | same (mode : ReplayMode) : Follows mode mode
  | nond : Follows .strict .bestEffortNond
  | bestEffort : Follows .bestEffortNond .bestEffort
  | stop (mode : ReplayMode) : Follows mode .stop

/-! ## The mode machine -/

namespace ModeState

/-- What holds between any two calls. -/
structure Ok (m : ModeState) : Prop where
  timeMode : m.timeMode = m.mode
  randomMode : m.randomMode = m.mode
  networkMode : m.networkMode = m.mode
  skip : m.skipAfterNextTry = true → m.mode = .bestEffort ∨ m.mode = .stop
  stopped : m.doneEmitted = true ↔ m.mode = .stop
  state : m.state = .running ↔ m.doneEmitted = false
  sigDoneCount : m.sigDoneCount = if m.doneEmitted then 1 else 0

/-- A step of the lifecycle keeps what holds of the mode. -/
theorem Ok.step {m m' : ModeState} {l : ReplayLabel} (ok : m.Ok) (h : ModeStep m l m') : m'.Ok := by
  cases h with
  | stay => exact ok
  | hit => exact { ok with skip := (fun h => nomatch h) }
  | firstMarker hmode =>
    have hdone := ok.stopped
    rw [hmode] at hdone
    exact ⟨rfl, rfl, rfl, (fun h => nomatch h), by simpa [setModes] using hdone, ok.state,
      ok.sigDoneCount⟩
  | nextMarker hmode =>
    have hdone : m.doneEmitted = true ↔ ReplayMode.bestEffort = .stop := by
      rw [ok.stopped]
      rcases hmode with hmode | hmode <;> simp [hmode]
    exact ⟨rfl, rfl, rfl, (fun h => nomatch h), hdone, ok.state, ok.sigDoneCount⟩
  | startSkipping hmode => exact { ok with skip := fun _ => Or.inl hmode }
  | stop l hl hdone =>
    -- the end has not been announced yet, so the count is 0
    have hcount := ok.sigDoneCount
    rw [hdone] at hcount
    refine ⟨rfl, rfl, rfl, fun _ => Or.inr rfl, by simp [ModeState.stop, setModes], ?_, ?_⟩
    · -- only the environment has no reason to stop, and it does not
      cases l <;> simp_all [ModeState.stop, stopReason]
    · simp [ModeState.stop, setModes, hcount]

/-- The mode moves in order. -/
theorem Ok.follows {m m' : ModeState} {l : ReplayLabel} (h : ModeStep m l m') :
    Follows m.mode m'.mode := by
  cases h with
  | stay => exact .same _
  | hit => exact .same _
  | firstMarker hmode => exact hmode ▸ .nond
  | nextMarker hmode =>
    rcases hmode with hmode | hmode
    · exact hmode ▸ .bestEffort
    · exact hmode ▸ .same _
  | startSkipping => exact .same _
  | stop => exact .stop _

/-- After the stop nothing but the skip flag changes. -/
theorem Ok.step_of_stop {m m' : ModeState} {l : ReplayLabel} (ok : m.Ok) (hstop : m.mode = .stop)
    (h : ModeStep m l m') :
    m'.mode = .stop ∧ m'.state = m.state ∧ m'.sigDoneCount = m.sigDoneCount := by
  have hdone := ok.stopped.mpr hstop
  cases h with
  | stay => exact ⟨hstop, rfl, rfl⟩
  | hit => exact ⟨hstop, rfl, rfl⟩
  | firstMarker hmode => simp [hstop] at hmode
  | nextMarker hmode => simp [hstop] at hmode
  | startSkipping => exact ⟨hstop, rfl, rfl⟩
  -- a replay that has stopped does not stop again
  | stop _ _ hnot => simp [hdone] at hnot

end ModeState

/-! ## The scheduler is a mode machine -/

/-- An event action that is tried leaves the modes alone. -/
theorem modeState_runs {env : ReplayEnv W} {s s' : ReplayScheduler W} {x : ReplayItem}
    {found : Bool} (h : Runs env s x (found, s')) : s'.modeState = s.modeState := by
  have hrun : ∀ {id : EventActionId} {d : EventActionDescriptor},
      s.runUnder env id d = some (found, s') → s'.modeState = s.modeState := by
    intro id d h
    simp only [runUnder, Option.bind_eq_bind, Option.bind_eq_some_iff, Option.pure_def,
      Option.some.injEq, Prod.mk.injEq] at h
    obtain ⟨_, -, -, rfl⟩ := h
    rfl
  cases h with
  | exact _ _ h => exact hrun h
  | fuzzy _ _ h => exact hrun h

/-- Attempts do not change the mode. -/
theorem modeState_attempts {env : ReplayEnv W} {s s' : ReplayScheduler W}
    (h : Relation.ReflTransGen (Attempt env) s s') : s'.modeState = s.modeState := by
  induction h with
  | refl => rfl
  | tail _ h ih =>
    refine Eq.trans ?_ ih
    cases h with
    | quiet => rfl
    | patchHead => rfl
    | patchBacklog => rfl
    | miss _ h => exact modeState_runs h

/-- The end of a call changes the modes as a hit or a marker does, or not at all. -/
theorem modeStep_of_ending {env : ReplayEnv W} {s s' : ReplayScheduler W} (h : Ending env s s') :
    ModeStep s.modeState .execute s'.modeState := by
  cases h with
  | @hitBacklog s₁ _ _ _ _ h =>
    -- an item of the backlog leaves the skip flag, the next item resets it
    have hsame : s₁.modeState = s.modeState := modeState_runs h
    exact hsame ▸ .stay _
  | @hitHead s₁ _ _ _ h =>
    have hsame : s₁.modeState = s.modeState := modeState_runs h
    exact hsame ▸ .hit
  | marker _ _ hstop =>
    -- the first marker ends strict mode, every later one enters best effort mode
    cases hmode : s.mode with
    | strict =>
      have hmarker : s.marker.modeState = s.modeState.setModes .bestEffortNond := by
        simp only [marker, if_pos hmode]
        rfl
      have := ModeStep.firstMarker (m := s.modeState) hmode
      rw [← hmarker] at this
      exact this
    | stop => exact absurd hmode hstop
    | bestEffortNond =>
      have hmarker : s.marker.modeState = s.modeState.setModes .bestEffort := by
        simp only [marker, if_neg (show ¬s.mode = .strict by simp [hmode])]
        rfl
      have := ModeStep.nextMarker (m := s.modeState) (Or.inl hmode)
      rw [← hmarker] at this
      exact this
    | bestEffort =>
      have hmarker : s.marker.modeState = s.modeState.setModes .bestEffort := by
        simp only [marker, if_neg (show ¬s.mode = .strict by simp [hmode])]
        rfl
      have := ModeStep.nextMarker (m := s.modeState) (Or.inr hmode)
      rw [← hmarker] at this
      exact this
  | skip => exact .stay _
  | wait => exact .stay _

/-- A stop is the stop of the mode machine, the first time. -/
theorem modeState_stopState (state : ReplaySchedulerState) (s : ReplayScheduler W) :
    (s.stopState state).modeState =
      if s.doneEmitted then s.modeState else s.modeState.stop state := by
  unfold stopState stop
  split
  · rfl
  · rfl

/-- Nor do reports. -/
theorem modeState_foldl_report (env : ReplayEnv W) (description : String)
    (names : List StdString) (s : ReplayScheduler W) :
    (names.foldl (fun s name => s.report env description name) s).modeState = s.modeState := by
  induction names generalizing s with
  | nil => rfl
  | cons name names ih => exact ih _

/-- The mode is that of the stop, unless the scheduler has stopped before. -/
theorem modeState_stopRegister (env : ReplayEnv W) (state : ReplaySchedulerState)
    (s : ReplayScheduler W) :
    (s.stopRegister env state).modeState =
      if s.doneEmitted then s.modeState else s.modeState.stop state := by
  -- warnings may be reported between setting the state and stopping
  have hstop : ∀ t : ReplayScheduler W, t.modeState = { s with state := state }.modeState →
      s.doneEmitted = false → t.stop.modeState = s.modeState.stop state := by
    intro t ht hdone
    have hdone' : t.doneEmitted = false := (congrArg ModeState.doneEmitted ht).trans hdone
    have hstate : t.state = state := congrArg ModeState.state ht
    have hskip : t.skipAfterNextTry = s.skipAfterNextTry := congrArg ModeState.skipAfterNextTry ht
    have hcount : t.sigDoneCount = s.sigDoneCount := congrArg ModeState.sigDoneCount ht
    simp [stop, hdone', modeState, ModeState.stop, ModeState.setModes, Providers.setMode, hstate,
      hskip, hcount]
  unfold stopRegister
  split
  · rfl
  · rename_i hdone
    dsimp only
    split
    · exact hstop _ (modeState_foldl_report env _ _ _) (by simpa using hdone)
    · exact hstop _ rfl (by simpa using hdone)

/-- A step that stops the scheduler is one of the lifecycle. -/
theorem modeStep_of_stop {s s' : ReplayScheduler W} {l : ReplayLabel} (hl : l ≠ .environment)
    (h : s'.modeState = if s.doneEmitted then s.modeState else s.modeState.stop (stopReason l)) :
    ModeStep s.modeState l s'.modeState := by
  rw [h]
  split
  · exact .stay l
  · rename_i hdone
    have hdone : s.doneEmitted = false := by simpa using hdone
    exact .stop l hl hdone

/-- The timeout of an event action is a step of the lifecycle. -/
theorem modeStep_of_slEventActionTimeout {env : ReplayEnv W} {s s' : ReplayScheduler W}
    (h : s.slEventActionTimeout env = some s') :
    ModeStep s.modeState .eventTimeout s'.modeState := by
  simp only [slEventActionTimeout] at h
  split at h
  · obtain rfl := Option.some.inj h
    exact .stay _
  · split at h
    · -- strict mode, the two relaxed modes, and after the stop
      simp at h
    · obtain rfl := Option.some.inj h
      exact modeStep_of_stop (by simp) (modeState_stopState _ _)
    · rename_i hmode
      obtain rfl := Option.some.inj h
      exact .startSkipping hmode
    · obtain rfl := Option.some.inj h
      exact .stay _

/-- A step of the replay is a step of the mode machine. -/
theorem modeStep_of_replayStep {env : ReplayEnv W} {items : List EventActionScheduleItem}
    {s s' : ReplayScheduler W} {l : ReplayLabel} (conserved : Conserved items s)
    (h : ReplayStep env s l s') : ModeStep s.modeState l s'.modeState := by
  cases h with
  | environment w => exact .stay _
  | execute h =>
    -- either the schedule has been worked off, or the end of the call decides
    rcases executeDelayedEventAction_split conserved.backlogEvents h with
      ⟨-, rfl⟩ | ⟨-, s₁, hattempts, hend⟩
    · exact modeStep_of_stop (by simp) (modeState_stopRegister env .finished s)
    · rw [← modeState_attempts hattempts]
      exact modeStep_of_ending hend
  | eventTimeout h => exact modeStep_of_slEventActionTimeout h
  | globalTimeout =>
    exact modeStep_of_stop (by simp) (modeState_stopState .timeout _)

/-- In every run the mode is one of the lifecycle. -/
theorem modeState_ok {env : ReplayEnv W} {items : List EventActionScheduleItem}
    {s : ReplayScheduler W} (r : (replay env items).Reachable s) : s.modeState.Ok := by
  refine Lts.Reachable.invariant (P := fun s => s.modeState.Ok) ?_ ?_ r
  · rintro _ ⟨schedulerTimeout, w, rfl⟩
    exact ⟨rfl, rfl, rfl, (fun h => nomatch h), by simp [modeState, init],
      by simp [modeState, init], rfl⟩
  · intro s l s' hs ok h
    exact ok.step (modeStep_of_replayStep (conserved_of_reachable hs) h)

/-- A step that stops the replay gives its own reason. -/
theorem state_of_modeStep {m m' : ModeState} {l : ReplayLabel} (h : ModeStep m l m')
    (hmode : m.mode ≠ .stop) (hstop : m'.mode = .stop) : m'.state = stopReason l := by
  cases h with
  | stay => exact absurd hstop hmode
  | hit => exact absurd hstop hmode
  | firstMarker => simp [ModeState.setModes] at hstop
  | nextMarker => simp [ModeState.setModes] at hstop
  | startSkipping => exact absurd hstop hmode
  | stop => rfl

/-- After the stop no step runs an event action. -/
theorem quiet_of_stop {env : ReplayEnv W} {s s' : ReplayScheduler W} {l : ReplayLabel}
    (ok : s.modeState.Ok) (hmode : s.mode = .stop) (hl : l ≠ .environment)
    (h : ReplayStep env s l s') : s'.world = s.world ∨ Quiet env s.world s'.world := by
  have hdone : s.doneEmitted = true := ok.stopped.mpr hmode
  cases h with
  | environment w => exact absurd rfl hl
  | execute h =>
    -- the call asks to stop once more, which does nothing
    have hsame : s.stopRegister env .finished = s := by simp [stopRegister, hdone]
    unfold executeDelayedEventAction at h
    split at h
    · obtain ⟨-, rfl⟩ := Prod.mk.inj (Option.some.inj h)
      exact Or.inl (by rw [hsame])
    · rw [if_pos hmode] at h
      obtain ⟨-, rfl⟩ := Prod.mk.inj (Option.some.inj h)
      exact Or.inl (by rw [hsame])
  | eventTimeout h =>
    simp only [slEventActionTimeout, hmode] at h
    split at h <;>
    · obtain rfl := Option.some.inj h
      exact Or.inl rfl
  | globalTimeout =>
    have hdone' : (s.report env "Scheduler timed out." []).doneEmitted = true := hdone
    rw [timeout, stopState, if_pos hdone']
    exact Or.inr (.report _ _ _ _)

/-- The replay mode machine. In every reachable state of a replay the four modes agree, the
    skip flag is set in best effort mode or after the stop only, and the end of the replay
    has been announced once if it has stopped and otherwise not. Every step moves the mode
    in order, the step that stops the replay sets the state to its reason, and after the
    stop no step changes the state, moves an item or runs an event action. -/
theorem replay_mode_machine (env : ReplayEnv W) (items : List EventActionScheduleItem)
    (s : ReplayScheduler W) (r : (replay env items).Reachable s) :
    (s.providers.time.mode = s.mode ∧ s.providers.random.mode = s.mode ∧
      s.providers.networkMode = s.mode) ∧
    (s.skipAfterNextTry = true → s.mode = .bestEffort ∨ s.mode = .stop) ∧
    s.sigDoneCount = (if s.mode = .stop then 1 else 0) ∧
    (s.state = .running ↔ s.mode ≠ .stop) ∧
    ∀ l s', ReplayStep env s l s' →
      Follows s.mode s'.mode ∧
      (s.mode ≠ .stop → s'.mode = .stop → s'.state = stopReason l) ∧
      (s.mode = .stop → s'.mode = .stop ∧ s'.state = s.state ∧
        s'.schedule = s.schedule ∧ s'.scheduleBacklog = s.scheduleBacklog ∧
        s'.consumed = s.consumed ∧
        (l ≠ .environment → s'.world = s.world ∨ Quiet env s.world s'.world)) := by
  have ok := modeState_ok r
  have conserved := conserved_of_reachable r
  have hdone : s.doneEmitted = true ↔ s.mode = .stop := ok.stopped
  refine ⟨⟨ok.timeMode, ok.randomMode, ok.networkMode⟩, ok.skip, ?_, ?_, ?_⟩
  · have hcount : s.sigDoneCount = if s.doneEmitted then 1 else 0 := ok.sigDoneCount
    simp only [hcount, hdone]
  · have hstate : s.state = .running ↔ s.doneEmitted = false := ok.state
    rw [hstate, ← Bool.not_eq_true, hdone]
  · intro l s' h
    have hstep := modeStep_of_replayStep conserved h
    refine ⟨ModeState.Ok.follows hstep, state_of_modeStep hstep, fun hmode => ?_⟩
    obtain ⟨hmode', hstate, -⟩ := ok.step_of_stop hmode hstep
    -- no step after the stop gets as far as an attempt
    have hidle : Idle s s' := by
      cases h with
      | environment w => exact (frame_world s w).idle
      | execute h =>
        rcases executeDelayedEventAction_split conserved.backlogEvents h with
          ⟨-, rfl⟩ | ⟨hnot, -⟩
        · exact idle_stopRegister env _ s
        · exact absurd hmode hnot
      | eventTimeout h => exact idle_slEventActionTimeout h
      | globalTimeout => exact idle_timeout env s
    exact ⟨hmode', hstate, hidle.schedule, hidle.scheduleBacklog, hidle.consumed,
      fun hl => quiet_of_stop ok hmode hl h⟩

/-- Two markers and a timeout: the replay skips an item and then stops. -/
theorem replay_mode_machine_of_skip :
    ∃ s, (replay (openRegister fun _ => false)
        [(0, .null), (0, .null), (1, .make .other "A".toList [])]).Reachable s ∧
      s.mode = .stop ∧ s.skipAfterNextTry = true ∧ s.scheduleBacklog.map (·.pos) = [2] ∧
      s.sigDoneCount = 1 := by
  -- two markers and an event action that does not come
  let items : List EventActionScheduleItem :=
    [(0, .null), (0, .null), (1, .make .other "A".toList [])]
  let env := openRegister fun _ => false
  let run (s : ReplayScheduler EventActionId) (l : ReplayLabel) :
      Option (ReplayScheduler EventActionId) :=
    match l with
    | .environment => none
    | .execute => (s.executeDelayedEventAction env).map Prod.snd
    | .eventTimeout => s.slEventActionTimeout env
    | .globalTimeout => some (s.timeout env)
  -- after its timeout the event action is skipped
  have hrun : (([.execute, .execute, .execute, .eventTimeout, .execute, .execute].foldlM run
      (init env items 20000 1)).map fun s =>
        (s.mode, s.skipAfterNextTry, s.scheduleBacklog.map (·.pos))) =
      some (.stop, true, [2]) := by decide +kernel
  obtain ⟨s, hs, hobserved⟩ := Option.map_eq_some_iff.mp hrun
  simp only [Prod.mk.injEq] at hobserved
  -- the run is one of the replay
  have hstep : ∀ s l s', run s l = some s' → (replay env items).step s l s' := by
    intro s l s' h
    cases l with
    | environment => simp [run] at h
    | execute =>
      obtain ⟨⟨more, _⟩, hcall, rfl⟩ := Option.map_eq_some_iff.mp h
      exact .execute hcall
    | eventTimeout => exact .eventTimeout h
    | globalTimeout =>
      obtain rfl := Option.some.inj h
      exact .globalTimeout s
  have r := Lts.Reachable.foldlM hstep (.init ⟨20000, 1, rfl⟩) hs
  refine ⟨s, r, hobserved.1, hobserved.2.1, hobserved.2.2, ?_⟩
  have := (replay_mode_machine env items s r).2.2.1
  rw [this, if_pos hobserved.1]

end R4.ReplayScheduler
