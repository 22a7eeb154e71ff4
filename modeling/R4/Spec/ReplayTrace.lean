import R4.Spec.DispatchOrder

/-!
# The trace of a replay

The replay scheduler reaches the rest of the program through `ReplayEnv` only. So a program
that is seen through a function is replayed like the program itself, and a replay can be
observed without being disturbed: `ReplayEnv.traced` writes down every call of
`runEventAction`, and what it has written is never read.

## Key results

- `executeDelayedEventAction_mapWorld`: a call is the same call, seen through the function
- `tracedReplays_iff`: the traced runs are the runs, with a trace
-/

namespace R4

variable {W W' O X : Type}

/-- `env'` is `env`, seen through `f`. -/
structure ReplayEnv.SeenThrough (f : W' → W) (env' : ReplayEnv W') (env : ReplayEnv W) :
    Prop where
  runEventAction : ∀ providers newId originalId d w,
    (env'.runEventAction providers newId originalId d w).map (Prod.map id f) =
      env.runEventAction providers newId originalId d (f w)
  getWaitingNames : ∀ w, env'.getWaitingNames w = env.getWaitingNames (f w)
  translateOldIdToNew : ∀ w oldId,
    env'.translateOldIdToNew w oldId = env.translateOldIdToNew (f w) oldId
  debugPrintNames : ∀ w, env'.debugPrintNames w = env.debugPrintNames (f w)
  hbAllocateEventActionId : ∀ w,
    Prod.map id f (env'.hbAllocateEventActionId w) = env.hbAllocateEventActionId (f w)
  actionLogStrictMode : ∀ mode w,
    f (env'.actionLogStrictMode mode w) = env.actionLogStrictMode mode (f w)
  warningCollectorSetCurrentEventAction : ∀ eventAction w,
    f (env'.warningCollectorSetCurrentEventAction eventAction w) =
      env.warningCollectorSetCurrentEventAction eventAction (f w)
  warningCollectorReport : ∀ module description details w,
    f (env'.warningCollectorReport module description details w) =
      env.warningCollectorReport module description details (f w)
  score : env'.score = env.score

/-- A step that goes on with what is seen of the first. -/
private theorem map_bind_eq {α β γ δ : Type} {x : Option α} {y : Option β} {g : α → β}
    {k : α → Option γ} {k' : β → Option δ} {g' : γ → δ} (hx : x.map g = y)
    (hk : ∀ a, (k a).map g' = k' (g a)) : (x.bind k).map g' = y.bind k' := by
  subst hx
  cases x with
  | none => rfl
  | some a => exact hk a

namespace ReplayScheduler

/-- The scheduler with its world seen through `f`. -/
def mapWorld (f : W' → W) (s : ReplayScheduler W') : ReplayScheduler W :=
  { s with world := f s.world }

/-- A marker is taken in both worlds alike. -/
theorem marker_mapWorld (f : W' → W) (s : ReplayScheduler W') :
    s.marker.mapWorld f = (s.mapWorld f).marker := by
  unfold marker
  split
  · rename_i hmode
    exact (if_pos hmode).symm
  · rename_i hmode
    exact (if_neg hmode).symm

/-- Stopping does not look at the world. -/
theorem stop_mapWorld (f : W' → W) (s : ReplayScheduler W') :
    s.stop.mapWorld f = (s.mapWorld f).stop := by
  unfold stop
  split
  · rename_i hdone
    exact (if_pos hdone).symm
  · rename_i hdone
    exact (if_neg hdone).symm

/-- Nor does a change of the mode. -/
theorem stopState_mapWorld (f : W' → W) (state : ReplaySchedulerState) (s : ReplayScheduler W') :
    (s.stopState state).mapWorld f = (s.mapWorld f).stopState state := by
  unfold stopState
  split
  · rename_i hdone
    exact (if_pos hdone).symm
  · rename_i hdone
    exact (stop_mapWorld f _).trans (if_neg hdone).symm

section
variable {f : W' → W} {env' : ReplayEnv W'} {env : ReplayEnv W} (h : env'.SeenThrough f env)
include h

/-- A warning is reported in both worlds alike. -/
theorem report_mapWorld (description : String) (details : StdString) (s : ReplayScheduler W') :
    (s.report env' description details).mapWorld f =
      (s.mapWorld f).report env description details := by
  simp only [report, mapWorld, h.warningCollectorReport]

/-- The timers that are listed are the same in both worlds. -/
theorem debugPrintTimers_mapWorld (s : ReplayScheduler W') :
    (s.mapWorld f).debugPrintTimers env = s.debugPrintTimers env' := by
  unfold debugPrintTimers
  rw [h.debugPrintNames]
  rfl

/-- Running an event action goes alike in both worlds. -/
theorem runUnder_mapWorld (originalId : EventActionId) (d : EventActionDescriptor)
    (s : ReplayScheduler W') :
    (s.runUnder env' originalId d).map (Prod.map id (mapWorld f)) =
      (s.mapWorld f).runUnder env originalId d := by
  simp only [runUnder, mapWorld, ← h.runEventAction]
  cases env'.runEventAction _ s.nextEventActionId originalId d s.world with
  | none => rfl
  | some result => rfl

/-- The best candidate of the fuzzy stage is the same in both worlds. -/
theorem bestCandidate_eq (type : StdString) (next : FuzzyKey) (names : List StdString)
    (score : Nat) (best : EventActionDescriptor) :
    bestCandidate env' type next names score best =
      bestCandidate env type next names score best := by
  induction names generalizing score best with
  | nil => rfl
  | cons name names ih => simp only [bestCandidate, candidateScore, h.score, ih]

/-- A parent id is translated alike in both worlds. -/
theorem patchDescriptor_eq (d : EventActionDescriptor) (w : W') :
    patchDescriptor env' d w = patchDescriptor env d (f w) := by
  simp only [patchDescriptor, h.translateOldIdToNew]

/-- The fuzzy match goes alike in both worlds. -/
theorem tryFuzzy_mapWorld (originalId : EventActionId) (d : EventActionDescriptor)
    (s : ReplayScheduler W') :
    (s.tryFuzzy env' originalId d).map (Prod.map id (mapWorld f)) =
      (s.mapWorld f).tryFuzzy env originalId d := by
  have hnames : env'.getWaitingNames s.world = env.getWaitingNames (s.mapWorld f).world :=
    h.getWaitingNames s.world
  -- what is waiting and how it scores is the same
  refine map_bind_eq (g := id) (congrFun Option.map_id _) fun key => ?_
  refine map_bind_eq (g := id) ?_ fun best => ?_
  · rw [bestCandidate_eq h, hnames]
    exact congrFun Option.map_id _
  · simp only [id_eq]
    split
    · rw [runUnder_mapWorld h, report_mapWorld h, debugPrintTimers_mapWorld h]
    · rfl

/-- So does the fuzzy stage. -/
theorem fuzzyStage_mapWorld (originalId : EventActionId) (d : EventActionDescriptor) (found : Bool)
    (s : ReplayScheduler W') :
    (s.fuzzyStage env' originalId d found).map (Prod.map id (mapWorld f)) =
      (s.mapWorld f).fuzzyStage env originalId d found := by
  unfold fuzzyStage
  split
  · rename_i hstage
    exact (tryFuzzy_mapWorld h originalId d s).trans (if_pos hstage).symm
  · rename_i hstage
    exact (if_neg hstage).symm

/-- So do both stages of an attempt. -/
theorem tryDescriptor_mapWorld (originalId : EventActionId) (d : EventActionDescriptor)
    (s : ReplayScheduler W') :
    (s.tryDescriptor env' originalId d).map (Prod.map id (mapWorld f)) =
      (s.mapWorld f).tryDescriptor env originalId d := by
  -- the exact attempt, the fuzzy one, and the new id after a hit
  refine map_bind_eq (runUnder_mapWorld h originalId d s) fun exact => ?_
  refine map_bind_eq (fuzzyStage_mapWorld h originalId d exact.1 exact.2) fun result => ?_
  have hallocate := h.hbAllocateEventActionId result.2.world
  dsimp only [Prod.map_fst, id_eq]
  split
  · simp only [mapWorld, Prod.map_snd, ← hallocate]
    rfl
  · rfl

/-- `inPlace'` stores an item where `inPlace` does. -/
theorem tryExecute_mapWorld {inPlace' : ReplayItem → ReplayScheduler W' → ReplayScheduler W'}
    {inPlace : ReplayItem → ReplayScheduler W → ReplayScheduler W}
    (hplace : ∀ x s, (inPlace' x s).mapWorld f = inPlace x (s.mapWorld f)) (next : ReplayItem)
    (s : ReplayScheduler W') :
    (s.tryExecuteEventActionDescriptor env' inPlace' next).map
        (Prod.map id (Prod.map id (mapWorld f))) =
      (s.mapWorld f).tryExecuteEventActionDescriptor env inPlace next := by
  unfold tryExecuteEventActionDescriptor
  split
  · exact congrArg (fun s => some (true, next, s)) (marker_mapWorld f s)
  · -- the warnings get their event action, then the item is patched and tried where it is
    have hcurrent := h.warningCollectorSetCurrentEventAction s.nextEventActionId s.world
    refine map_bind_eq (g := id) ?_ fun d => ?_
    · rw [patchDescriptor_eq h, hcurrent]
      exact congrFun Option.map_id _
    · refine map_bind_eq (g := Prod.map id (mapWorld f)) ?_ fun result => rfl
      rw [tryDescriptor_mapWorld h, hplace]
      simp only [mapWorld, hcurrent]
      rfl

/-- The loop over the backlog. -/
theorem tryBacklog_mapWorld (done todo : List ReplayItem) (s : ReplayScheduler W') :
    (tryBacklog env' done todo s).map (Prod.map id (mapWorld f)) =
      tryBacklog env done todo (s.mapWorld f) := by
  induction todo generalizing done s with
  | nil => rfl
  | cons item rest ih =>
    refine map_bind_eq (g := Prod.map id (Prod.map id (mapWorld f))) ?_ fun result => ?_
    · let inPlace (item : ReplayItem) (s : ReplayScheduler W) : ReplayScheduler W :=
        { s with scheduleBacklog := done ++ item :: rest }
      have hplace : ∀ x (s : ReplayScheduler W'),
          mapWorld f { s with scheduleBacklog := done ++ x :: rest } = inPlace x (s.mapWorld f) :=
        fun _ _ => rfl
      rw [tryExecute_mapWorld h hplace]
      simp only [mapWorld, h.actionLogStrictMode, inPlace]
    · obtain ⟨success, item', s₁⟩ := result
      -- strict mode is switched on again in both cases
      have hstrict := h.actionLogStrictMode true s₁.world
      cases success with
      | true =>
        refine congrArg (fun s => some (true, s)) ?_
        rw [report_mapWorld h]
        simp only [mapWorld, hstrict, id_eq]
      | false =>
        refine (ih (done ++ [item']) _).trans (congrArg (tryBacklog env (done ++ [item']) rest) ?_)
        simp only [mapWorld, hstrict]

/-- The attempt on the next item. -/
theorem tryHead_mapWorld (item : ReplayItem) (rest : List ReplayItem) (s : ReplayScheduler W') :
    (s.tryHead env' item rest).map (Prod.map id (mapWorld f)) =
      (s.mapWorld f).tryHead env item rest := by
  let inPlace (item : ReplayItem) (s : ReplayScheduler W) : ReplayScheduler W :=
    { s with schedule := item :: rest }
  have hplace : ∀ x (s : ReplayScheduler W'),
      mapWorld f { s with schedule := x :: rest } = inPlace x (s.mapWorld f) := fun _ _ => rfl
  refine map_bind_eq (tryExecute_mapWorld h hplace item s) fun result => ?_
  obtain ⟨success, item', s₁⟩ := result
  cases success with
  | true => rfl
  | false =>
    -- the item is skipped, or the timer runs already, or it is started
    simp only [Prod.map_apply, id_eq, Bool.false_eq_true, if_false]
    have hskip : (s₁.mapWorld f).skipAfterNextTry = s₁.skipAfterNextTry := rfl
    have hactive : (s₁.mapWorld f).timeoutTimerActive = s₁.timeoutTimerActive := rfl
    rw [hskip, hactive]
    split
    · rw [debugPrintTimers_mapWorld h, ← report_mapWorld h]
      rfl
    · split
      · rfl
      · have hinterval : (s₁.mapWorld f).timeoutInterval item'.descriptor =
            s₁.timeoutInterval item'.descriptor := rfl
        rw [hinterval]
        cases s₁.timeoutInterval item'.descriptor with
        | none => rfl
        | some interval => rfl

/-- The register is stopped alike in both worlds. -/
theorem stopRegister_mapWorld (state : ReplaySchedulerState) (s : ReplayScheduler W') :
    (s.stopRegister env' state).mapWorld f = (s.mapWorld f).stopRegister env state := by
  -- the warnings are reported in both worlds
  have hreports : ∀ (names : List StdString) (s : ReplayScheduler W'),
      (names.foldl (fun s name => s.report env' "Non-executed event action." name) s).mapWorld f =
        names.foldl (fun s name => s.report env "Non-executed event action." name)
          (s.mapWorld f) := by
    intro names
    induction names with
    | nil => intro s; rfl
    | cons name names ih =>
      intro s
      rw [List.foldl_cons, List.foldl_cons, ih, report_mapWorld h]
  unfold stopRegister
  split
  · -- the scheduler has stopped before
    rename_i hdone
    exact (if_pos hdone).symm
  · rename_i hdone
    refine Eq.trans ?_ (if_neg hdone).symm
    dsimp only
    rw [stop_mapWorld]
    split
    · -- what is still waiting is the same in both worlds
      rw [hreports, h.getWaitingNames]
      rfl
    · rfl

/-- A call is the same call, seen through `f`. -/
theorem executeDelayedEventAction_mapWorld (s : ReplayScheduler W') :
    (s.executeDelayedEventAction env').map (Prod.map id (mapWorld f)) =
      (s.mapWorld f).executeDelayedEventAction env := by
  unfold executeDelayedEventAction
  have hschedule : (s.mapWorld f).schedule = s.schedule := rfl
  have hmode : (s.mapWorld f).mode = s.mode := rfl
  rw [hschedule, hmode]
  split
  · exact congrArg (fun s => some (false, s)) (stopRegister_mapWorld h .finished s)
  · split
    · exact congrArg (fun s => some (false, s)) (stopRegister_mapWorld h .finished s)
    · refine map_bind_eq (tryBacklog_mapWorld h [] s.scheduleBacklog s) fun result => ?_
      obtain ⟨success, s₁⟩ := result
      cases success with
      | true => rfl
      | false => exact tryHead_mapWorld h _ _ s₁

/-- The timeout of an event action goes alike in both worlds. -/
theorem slEventActionTimeout_mapWorld (s : ReplayScheduler W') :
    (s.slEventActionTimeout env').map (mapWorld f) = (s.mapWorld f).slEventActionTimeout env := by
  unfold slEventActionTimeout
  dsimp only
  have hschedule : (s.mapWorld f).schedule = s.schedule := rfl
  have hmode : (s.mapWorld f).mode = s.mode := rfl
  rw [hschedule, hmode]
  split
  · rfl
  · split
    · rfl
    · let s₁ : ReplayScheduler W' := { s with timeoutTimerActive := false }
      -- the timers that are printed are the same
      have hprint : (s₁.mapWorld f).debugPrintTimers env = s₁.debugPrintTimers env' :=
        debugPrintTimers_mapWorld h s₁
      rw [Option.map_some, stopState_mapWorld, report_mapWorld h, ← hprint]
      rfl
    · rfl
    · rfl

/-- So does the timeout of the replay. -/
theorem timeout_mapWorld (s : ReplayScheduler W') :
    (s.timeout env').mapWorld f = (s.mapWorld f).timeout env := by
  rw [timeout, stopState_mapWorld, report_mapWorld h]
  rfl

/-- A step of the scheduler is one in the world that is seen. -/
theorem step_mapWorld {s s' : ReplayScheduler W'} {l : ReplayLabel} (hl : l ≠ .environment)
    (hstep : ReplayStep env' s l s') : ReplayStep env (s.mapWorld f) l (s'.mapWorld f) := by
  cases hstep with
  | environment => exact absurd rfl hl
  | execute hcall =>
    have hmapped := executeDelayedEventAction_mapWorld h s
    rw [hcall] at hmapped
    exact .execute hmapped.symm
  | eventTimeout hcall =>
    have hmapped := slEventActionTimeout_mapWorld h s
    rw [hcall] at hmapped
    exact .eventTimeout hmapped.symm
  | globalTimeout => exact timeout_mapWorld h s ▸ .globalTimeout _

/-- What the scheduler does in what is seen, it does in the whole. -/
theorem exists_step_of_mapWorld {s : ReplayScheduler W'} {t : ReplayScheduler W} {l : ReplayLabel}
    (hl : l ≠ .environment) (hstep : ReplayStep env (s.mapWorld f) l t) :
    ∃ s', ReplayStep env' s l s' ∧ s'.mapWorld f = t := by
  cases hstep with
  | environment => exact absurd rfl hl
  | execute hcall =>
    rw [← executeDelayedEventAction_mapWorld h] at hcall
    obtain ⟨⟨more, s'⟩, hcall, hresult⟩ := Option.map_eq_some_iff.mp hcall
    exact ⟨s', .execute hcall, (Prod.mk.inj hresult).2⟩
  | eventTimeout hcall =>
    rw [← slEventActionTimeout_mapWorld h] at hcall
    obtain ⟨s', hcall, hresult⟩ := Option.map_eq_some_iff.mp hcall
    exact ⟨s', .eventTimeout hcall, hresult⟩
  | globalTimeout => exact ⟨s.timeout env', .globalTimeout s, timeout_mapWorld h s⟩

end

end ReplayScheduler

/-! ## The trace -/

/-- One call of `runEventAction`: the id under which the event action is to run, that of the
    item in the schedule file, the descriptor, and whether the event action has run. -/
structure ReplayTry where
  newId : EventActionId
  originalId : EventActionId
  descriptor : EventActionDescriptor
  found : Bool
deriving DecidableEq

/-- Every call of `runEventAction` is written down. -/
def ReplayEnv.traced (env : ReplayEnv W) : ReplayEnv (W × List ReplayTry) where
  runEventAction providers newId originalId d w :=
    (env.runEventAction providers newId originalId d w.1).map fun result =>
      (result.1, result.2, w.2 ++ [⟨newId, originalId, d, result.1⟩])
  getWaitingNames w := env.getWaitingNames w.1
  translateOldIdToNew w := env.translateOldIdToNew w.1
  debugPrintNames w := env.debugPrintNames w.1
  hbAllocateEventActionId w :=
    ((env.hbAllocateEventActionId w.1).1, (env.hbAllocateEventActionId w.1).2, w.2)
  actionLogStrictMode mode w := (env.actionLogStrictMode mode w.1, w.2)
  warningCollectorSetCurrentEventAction eventAction w :=
    (env.warningCollectorSetCurrentEventAction eventAction w.1, w.2)
  warningCollectorReport module description details w :=
    (env.warningCollectorReport module description details w.1, w.2)
  score := env.score

/-- The trace can be left out of a traced world. -/
theorem ReplayEnv.traced_seenThrough (env : ReplayEnv W) : env.traced.SeenThrough Prod.fst env where
  runEventAction _ _ _ _ _ := by
    simp only [ReplayEnv.traced, Option.map_map]
    exact congrFun Option.map_id _
  getWaitingNames _ := rfl
  translateOldIdToNew _ _ := rfl
  debugPrintNames _ := rfl
  hbAllocateEventActionId _ := rfl
  actionLogStrictMode _ _ := rfl
  warningCollectorSetCurrentEventAction _ _ := rfl
  warningCollectorReport _ _ _ _ := rfl
  score := rfl

namespace ReplayTrace

open DispatchOrder ReplayScheduler

/-- The steps of a traced replay: what happens outside of the scheduler leaves the trace
    alone. -/
inductive TracedStep (p : ProgramEnv O X) : ReplayScheduler (Program O X × List ReplayTry) →
    ReplayLabel → ReplayScheduler (Program O X × List ReplayTry) → Prop where
  | effect {s : ReplayScheduler (Program O X × List ReplayTry)} {w : Program O X}
      (h : Effect false s.world.1 w) :
      TracedStep p s .environment { s with world := (w, s.world.2) }
  | scheduler {s s' : ReplayScheduler (Program O X × List ReplayTry)} {l : ReplayLabel}
      (hl : l ≠ .environment) (h : ReplayStep p.replayEnv.traced s l s') : TracedStep p s l s'

/-- The replay runs of a schedule, with their traces. -/
def tracedReplays (p : ProgramEnv O X) (items : List EventActionScheduleItem) :
    Lts (ReplayScheduler (Program O X × List ReplayTry)) ReplayLabel where
  init s := ∃ schedulerTimeout r e w, r = .empty ∧ e.1 = .init ∧ Effect false (r, e) w ∧
    s = ReplayScheduler.init p.replayEnv.traced items schedulerTimeout (w, [])
  step := TracedStep p

/-- The traced runs are the runs: nothing reads the trace, and every run has one. -/
theorem tracedReplays_iff {p : ProgramEnv O X} {items : List EventActionScheduleItem}
    {s : ReplayScheduler (Program O X)} :
    (replayRuns p items).Reachable s ↔
      ∃ s', (tracedReplays p items).Reachable s' ∧ s'.mapWorld Prod.fst = s := by
  constructor
  · intro r
    induction r with
    | init h =>
      obtain ⟨schedulerTimeout, r, e, w, hregister, hcomponent, heffect, rfl⟩ := h
      exact ⟨_, .init ⟨schedulerTimeout, r, e, w, hregister, hcomponent, heffect, rfl⟩, rfl⟩
    | step _ h ih =>
      obtain ⟨s', hs', rfl⟩ := ih
      cases h with
      | effect h => exact ⟨_, hs'.step (.effect h), rfl⟩
      | scheduler hl h =>
        -- the trace grows by what the scheduler tries in this step
        obtain ⟨t, hstep, ht⟩ := exists_step_of_mapWorld p.replayEnv.traced_seenThrough hl h
        exact ⟨t, hs'.step (.scheduler hl hstep), ht⟩
  · rintro ⟨s', r, rfl⟩
    induction r with
    | init h =>
      obtain ⟨schedulerTimeout, r, e, w, hregister, hcomponent, heffect, rfl⟩ := h
      exact .init ⟨schedulerTimeout, r, e, w, hregister, hcomponent, heffect, rfl⟩
    | step _ h ih =>
      cases h with
      | effect h => exact ih.step (.effect h)
      | scheduler hl h =>
        exact ih.step (.scheduler hl (step_mapWorld p.replayEnv.traced_seenThrough hl h))

end ReplayTrace

end R4
