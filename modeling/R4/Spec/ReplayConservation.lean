import R4.ForStd.Lts
import R4.Native.ReplayScheduler
import Mathlib.Data.List.Range

/-!
# The replay scheduler loses and repeats nothing

Every item of the schedule file is, between any two calls into the scheduler, in exactly
one of three places: consumed, in the schedule, or in the backlog. The scheduler's own
calls and both kinds of timeout may come in any order, and anything outside the scheduler
may change between them.

`Frame` says once what an attempt on an event action leaves alone, and
`tryExecute_cases` what it does with the item. `executeDelayedEventAction_cases` is
the whole effect of one call on the three places; the invariant follows from it.

## Key results

- `executeDelayedEventAction_cases`: an item moves on one of three paths or not at all
- `conserved_step`: the invariant is kept by every step
- `replay_conserves_items`: conservation and file order, in every reachable state
-/

namespace R4.ReplayScheduler

variable {W : Type}

/-! ## Items and their places -/

/-- `x` is item `it` of the file, or what the patch of its parent id made of it. -/
def IsItem (it : EventActionScheduleItem) (x : ReplayItem) : Prop :=
  x.id = it.1 ∧ (x.descriptor = it.2 ∨ ∃ v, it.2.patchParameter 4 v = some x.descriptor)

/-- Every item the scheduler knows of, the consumed ones first. -/
def allItems (s : ReplayScheduler W) : List ReplayItem :=
  s.consumed ++ s.scheduleBacklog ++ s.schedule

/-- The number of markers that have been consumed. -/
def markersConsumed (s : ReplayScheduler W) : Nat :=
  s.consumed.countP fun x => x.descriptor.isNull

/-- The runs of a scheduler over the items of a schedule file: its calls, the two timeouts,
    and arbitrary changes outside it. -/
inductive ReplayLabel where
  | environment
  | execute
  | eventTimeout
  | globalTimeout

/-- One step of a run. -/
inductive ReplayStep (env : ReplayEnv W) :
    ReplayScheduler W → ReplayLabel → ReplayScheduler W → Prop where
  | environment (s : ReplayScheduler W) (w : W) :
      ReplayStep env s .environment { s with world := w }
  | execute {s s' : ReplayScheduler W} {more : Bool}
      (h : s.executeDelayedEventAction env = some (more, s')) : ReplayStep env s .execute s'
  | eventTimeout {s s' : ReplayScheduler W} (h : s.slEventActionTimeout env = some s') :
      ReplayStep env s .eventTimeout s'
  | globalTimeout (s : ReplayScheduler W) : ReplayStep env s .globalTimeout (s.timeout env)

/-- The replay of a schedule file. -/
def replay (env : ReplayEnv W) (items : List EventActionScheduleItem) :
    Lts (ReplayScheduler W) ReplayLabel where
  init s := ∃ schedulerTimeout w, s = init env items schedulerTimeout w
  step := ReplayStep env

/-! ## What an attempt leaves alone -/

/-- Everything but the world, the providers and the next id is the same. -/
structure Frame (s s' : ReplayScheduler W) : Prop where
  schedule : s'.schedule = s.schedule
  scheduleBacklog : s'.scheduleBacklog = s.scheduleBacklog
  consumed : s'.consumed = s.consumed
  mode : s'.mode = s.mode
  skipAfterNextTry : s'.skipAfterNextTry = s.skipAfterNextTry

theorem Frame.refl (s : ReplayScheduler W) : Frame s s := ⟨rfl, rfl, rfl, rfl, rfl⟩

theorem Frame.trans {s s' s'' : ReplayScheduler W} (h : Frame s s') (h' : Frame s' s'') :
    Frame s s'' :=
  ⟨h'.schedule.trans h.schedule, h'.scheduleBacklog.trans h.scheduleBacklog,
    h'.consumed.trans h.consumed, h'.mode.trans h.mode,
    h'.skipAfterNextTry.trans h.skipAfterNextTry⟩

/-- A change outside of the scheduler. -/
theorem frame_world (s : ReplayScheduler W) (w : W) : Frame s { s with world := w } :=
  ⟨rfl, rfl, rfl, rfl, rfl⟩

/-- A warning is written elsewhere. -/
theorem frame_report (env : ReplayEnv W) (description : String) (details : StdString)
    (s : ReplayScheduler W) : Frame s (s.report env description details) :=
  ⟨rfl, rfl, rfl, rfl, rfl⟩

/-- Running an event action moves no item. -/
theorem frame_runUnder {env : ReplayEnv W} {originalId : EventActionId}
    {d : EventActionDescriptor} {s s' : ReplayScheduler W} {found : Bool}
    (h : s.runUnder env originalId d = some (found, s')) : Frame s s' := by
  unfold runUnder at h
  cases hr : env.runEventAction (s.providers.setCurrentDescriptorString d.toUnpatchedString)
      s.nextEventActionId originalId d s.world with
  | none => simp [hr] at h
  | some p =>
    simp only [hr, Option.bind_eq_bind, Option.bind_some, Option.pure_def, Option.some.injEq,
      Prod.mk.injEq] at h
    obtain ⟨_, rfl⟩ := h
    exact ⟨rfl, rfl, rfl, rfl, rfl⟩

/-- Nor does the fuzzy stage. -/
theorem frame_tryFuzzy {env : ReplayEnv W} {originalId : EventActionId}
    {d : EventActionDescriptor} {s s' : ReplayScheduler W} {found : Bool}
    (h : s.tryFuzzy env originalId d = some (found, s')) : Frame s s' := by
  simp only [tryFuzzy, Option.bind_eq_bind, Option.bind_eq_some_iff] at h
  obtain ⟨key, _, ⟨bestScore, best⟩, _, h⟩ := h
  split at h
  · exact (frame_report env _ _ s).trans (frame_runUnder h)
  · simp only [Option.pure_def, Option.some.injEq, Prod.mk.injEq] at h
    obtain ⟨_, rfl⟩ := h
    exact Frame.refl s

/-- Nor do both stages of an attempt. -/
theorem frame_tryDescriptor {env : ReplayEnv W} {originalId : EventActionId}
    {d : EventActionDescriptor} {s s' : ReplayScheduler W} {found : Bool}
    (h : s.tryDescriptor env originalId d = some (found, s')) : Frame s s' := by
  simp only [tryDescriptor, Option.bind_eq_bind, Option.bind_eq_some_iff] at h
  obtain ⟨⟨found₁, s₁⟩, h₁, ⟨found₂, s₂⟩, h₂, h⟩ := h
  -- the exact match
  have f₁ := frame_runUnder h₁
  -- the fuzzy match, if the mode has one
  have f₂ : Frame s₁ s₂ := by
    unfold fuzzyStage at h₂
    split at h₂
    · exact frame_tryFuzzy h₂
    · simp only [Option.some.injEq, Prod.mk.injEq] at h₂
      obtain ⟨_, rfl⟩ := h₂
      exact Frame.refl s₁
  -- the warning and the next id, if the event action was found
  have f₃ : Frame s₂ s' := by
    split at h <;> simp only [Option.pure_def, Option.some.injEq, Prod.mk.injEq] at h <;>
      obtain ⟨_, rfl⟩ := h
    · exact ⟨rfl, rfl, rfl, rfl, rfl⟩
    · exact Frame.refl s₂
  exact (f₁.trans f₂).trans f₃

/-- What the patch makes of a descriptor. -/
theorem patchDescriptor_cases {env : ReplayEnv W} {d d' : EventActionDescriptor} {w : W}
    (h : patchDescriptor env d w = some d') :
    d' = d ∨ (d.isPatched = false ∧ ∃ v, d.patchParameter 4 v = some d') := by
  unfold patchDescriptor at h
  split at h
  · rename_i hdom
    simp only [Option.bind_eq_bind, Option.bind_eq_some_iff] at h
    obtain ⟨oldId, _, h⟩ := h
    exact Or.inr ⟨hdom.2, _, h⟩
  · simp only [Option.some.injEq] at h
    exact Or.inl h.symm

/-- `x'` is `x` as an attempt may leave it: the same item, patched at most once. -/
structure Attempted (x x' : ReplayItem) : Prop where
  pos : x'.pos = x.pos
  id : x'.id = x.id
  isNull : x'.descriptor.isNull = x.descriptor.isNull
  descriptor : x'.descriptor = x.descriptor ∨
    (x.descriptor.isPatched = false ∧ ∃ v, x.descriptor.patchParameter 4 v = some x'.descriptor)

theorem Attempted.refl (x : ReplayItem) : Attempted x x := ⟨rfl, rfl, rfl, Or.inl rfl⟩

theorem Attempted.trans {x y z : ReplayItem} (h : Attempted x y) (h' : Attempted y z) :
    Attempted x z := by
  refine ⟨h'.pos.trans h.pos, h'.id.trans h.id, h'.isNull.trans h.isNull, ?_⟩
  obtain hz | ⟨hy, v, hv⟩ := h'.descriptor
  · rw [hz]; exact h.descriptor
  · obtain hxy | ⟨_, u, hu⟩ := h.descriptor
    · rw [← hxy]; exact Or.inr ⟨hy, v, hv⟩
    · -- a patched descriptor is not patched again
      rw [(EventActionDescriptor.patchParameter_frame hu).2.2.2] at hy
      exact nomatch hy

/-- An item that was attempted is still that of the file. -/
theorem Attempted.isItem {it : EventActionScheduleItem} {x y : ReplayItem} (h : Attempted x y)
    (hx : IsItem it x) : IsItem it y := by
  refine ⟨h.id.trans hx.1, ?_⟩
  obtain hy | ⟨hn, v, hv⟩ := h.descriptor
  · rw [hy]; exact hx.2
  · obtain hit | ⟨u, hu⟩ := hx.2
    · rw [← hit]; exact Or.inr ⟨v, hv⟩
    · rw [(EventActionDescriptor.patchParameter_frame hu).2.2.2] at hn
      exact nomatch hn

/-- An attempt either takes a marker or tries an event action where it is stored. -/
theorem tryExecute_cases {env : ReplayEnv W}
    {inPlace : ReplayItem → ReplayScheduler W → ReplayScheduler W} {x x' : ReplayItem}
    {s s' : ReplayScheduler W} {found : Bool}
    (h : s.tryExecuteEventActionDescriptor env inPlace x = some (found, x', s')) :
    (x.descriptor.isNull = true ∧ found = true ∧ x' = x ∧ s' = s.marker) ∨
    (x.descriptor.isNull = false ∧ Attempted x x' ∧
      ∃ w, Frame (inPlace x' { s with world := w }) s') := by
  unfold tryExecuteEventActionDescriptor at h
  split at h
  · -- a marker is taken at once
    rename_i hnull
    simp only [Option.some.injEq, Prod.mk.injEq] at h
    obtain ⟨rfl, rfl, rfl⟩ := h
    exact Or.inl ⟨hnull, rfl, rfl, rfl⟩
  · -- an event action is patched and tried
    rename_i hnull
    simp only [Option.bind_eq_bind, Option.bind_eq_some_iff] at h
    obtain ⟨d, hd, ⟨found₁, s₁⟩, h₁, h⟩ := h
    simp only [Option.pure_def, Option.some.injEq, Prod.mk.injEq] at h
    obtain ⟨rfl, rfl, rfl⟩ := h
    refine Or.inr ⟨by simpa using hnull, ?_, _, frame_tryDescriptor h₁⟩
    have hc := patchDescriptor_cases hd
    refine ⟨rfl, rfl, ?_, hc⟩
    -- a patch leaves a null descriptor null
    obtain rfl | ⟨_, v, hv⟩ := hc
    · rfl
    · exact (EventActionDescriptor.patchParameter_frame hv).2.2.1

/-! ## What a call does to the three places -/

/-- The items are where they were; some may have been attempted. -/
structure Touched (s s' : ReplayScheduler W) : Prop where
  schedule : List.Forall₂ Attempted s.schedule s'.schedule
  scheduleBacklog : List.Forall₂ Attempted s.scheduleBacklog s'.scheduleBacklog
  consumed : s'.consumed = s.consumed
  mode : s'.mode = s.mode
  skipAfterNextTry : s'.skipAfterNextTry = s.skipAfterNextTry

theorem forall₂_attempted_refl (l : List ReplayItem) : List.Forall₂ Attempted l l :=
  List.forall₂_same.mpr fun x _ => Attempted.refl x

theorem forall₂_attempted_trans {l l' l'' : List ReplayItem} (h : List.Forall₂ Attempted l l')
    (h' : List.Forall₂ Attempted l' l'') : List.Forall₂ Attempted l l'' := by
  induction h generalizing l'' with
  | nil => exact h'
  | cons hx _ ih =>
    cases h' with
    | cons hy ht => exact .cons (hx.trans hy) (ih ht)

/-- What moves no item touches none. -/
theorem Frame.touched {s s' : ReplayScheduler W} (h : Frame s s') : Touched s s' where
  schedule := by rw [h.schedule]; exact forall₂_attempted_refl _
  scheduleBacklog := by rw [h.scheduleBacklog]; exact forall₂_attempted_refl _
  consumed := h.consumed
  mode := h.mode
  skipAfterNextTry := h.skipAfterNextTry

theorem Touched.trans {s s' s'' : ReplayScheduler W} (h : Touched s s') (h' : Touched s' s'') :
    Touched s s'' :=
  ⟨forall₂_attempted_trans h.schedule h'.schedule,
    forall₂_attempted_trans h.scheduleBacklog h'.scheduleBacklog, h'.consumed.trans h.consumed,
    h'.mode.trans h.mode, h'.skipAfterNextTry.trans h.skipAfterNextTry⟩

/-- No item moves. The mode may become `STOP`, and `BEST_EFFORT` may start skipping. -/
structure Idle (s s' : ReplayScheduler W) : Prop where
  schedule : s'.schedule = s.schedule
  scheduleBacklog : s'.scheduleBacklog = s.scheduleBacklog
  consumed : s'.consumed = s.consumed
  mode : s'.mode = s.mode ∨ s'.mode = .stop
  skipAfterNextTry : s'.skipAfterNextTry = s.skipAfterNextTry ∨ s.mode = .bestEffort

/-- What moves no item is idle. -/
theorem Frame.idle {s s' : ReplayScheduler W} (h : Frame s s') : Idle s s' :=
  ⟨h.schedule, h.scheduleBacklog, h.consumed, Or.inl h.mode, Or.inl h.skipAfterNextTry⟩

theorem Idle.trans {s s' s'' : ReplayScheduler W} (h : Idle s s') (h' : Idle s' s'') :
    Idle s s'' := by
  refine ⟨h'.schedule.trans h.schedule, h'.scheduleBacklog.trans h.scheduleBacklog,
    h'.consumed.trans h.consumed, ?_, ?_⟩
  · obtain hm | hm := h'.mode
    · rw [hm]; exact h.mode
    · exact Or.inr hm
  · obtain hk | hk := h'.skipAfterNextTry
    · rw [hk]; exact h.skipAfterNextTry
    · obtain hm | hm := h.mode
      · exact Or.inr (hm ▸ hk)
      · rw [hm] at hk; exact nomatch hk

/-- The paths on which an item can move, and what each does to the mode. -/
inductive Move (s s' : ReplayScheduler W) : Prop where
  | idle (h : Idle s s')
  | backlogHit (before after : List ReplayItem) (x : ReplayItem)
      (hx : x.descriptor.isNull = false)
      (h : s.scheduleBacklog = before ++ x :: after) (hb : s'.scheduleBacklog = before ++ after)
      (hs : s'.schedule = s.schedule) (hc : s'.consumed = s.consumed ++ [x])
      (hm : s'.mode = s.mode) (hk : s'.skipAfterNextTry = s.skipAfterNextTry)
  | headHit (x : ReplayItem) (hx : x.descriptor.isNull = false)
      (h : s.schedule = x :: s'.schedule) (hb : s'.scheduleBacklog = s.scheduleBacklog)
      (hc : s'.consumed = s.consumed ++ [x]) (hm : s'.mode = s.mode)
      (hk : s'.skipAfterNextTry = false)
  | markerHit (x : ReplayItem) (hx : x.descriptor.isNull = true)
      (h : s.schedule = x :: s'.schedule) (hb : s'.scheduleBacklog = s.scheduleBacklog)
      (hc : s'.consumed = s.consumed ++ [x]) (hstop : s.mode ≠ .stop)
      (hm : s'.mode = if s.mode = .strict then .bestEffortNond else .bestEffort)
      (hk : s'.skipAfterNextTry = false)
  | skip (x : ReplayItem) (hx : x.descriptor.isNull = false)
      (h : s.schedule = x :: s'.schedule) (hskip : s.skipAfterNextTry = true)
      (hb : s'.scheduleBacklog = s.scheduleBacklog ++ [x]) (hc : s'.consumed = s.consumed)
      (hm : s'.mode = s.mode) (hk : s'.skipAfterNextTry = s.skipAfterNextTry)

/-- The loop over the backlog: the items before the hit were attempted in place, and the
    hit is taken out. -/
theorem tryBacklog_cases {env : ReplayEnv W} {done todo : List ReplayItem}
    {s s' : ReplayScheduler W} {ok : Bool} (hs : s.scheduleBacklog = done ++ todo)
    (hnull : ∀ x ∈ todo, x.descriptor.isNull = false)
    (h : tryBacklog env done todo s = some (ok, s')) :
    ∃ s₁, Touched s s₁ ∧ s₁.schedule = s.schedule ∧ if ok then Move s₁ s' else s' = s₁ := by
  induction todo generalizing done s with
  | nil =>
    simp only [tryBacklog, Option.some.injEq, Prod.mk.injEq] at h
    obtain ⟨rfl, rfl⟩ := h
    exact ⟨s, (Frame.refl s).touched, rfl, by simp⟩
  | cons x rest ih =>
    simp only [tryBacklog, Option.bind_eq_bind, Option.bind_eq_some_iff] at h
    obtain ⟨⟨success, x', s₁⟩, h₁, h⟩ := h
    have hx := hnull x List.mem_cons_self
    obtain ⟨hn, _⟩ | ⟨_, hatt, w, hf⟩ := tryExecute_cases h₁
    · rw [hx] at hn; exact nomatch hn
    · have hb : s₁.scheduleBacklog = done ++ x' :: rest := hf.scheduleBacklog
      have htouch : Touched s s₁ :=
        { schedule := by rw [hf.schedule]; exact forall₂_attempted_refl _
          scheduleBacklog := by
            rw [hs, hb]
            exact List.rel_append (forall₂_attempted_refl done)
              (.cons hatt (forall₂_attempted_refl rest))
          consumed := hf.consumed
          mode := hf.mode
          skipAfterNextTry := hf.skipAfterNextTry }
      split at h
      · -- the hit
        simp only [Option.pure_def, Option.some.injEq, Prod.mk.injEq] at h
        obtain ⟨rfl, rfl⟩ := h
        exact ⟨s₁, htouch, hf.schedule,
          .backlogHit done rest x' (hatt.isNull.trans hx) hb rfl rfl rfl rfl rfl⟩
      · -- not this one: the loop goes on with it among the tried items
        obtain ⟨s₂, ht₂, hsch, hres⟩ := ih
          (s := { s₁ with world := env.actionLogStrictMode true s₁.world })
          (by simp [hb]) (fun y hy => hnull y (List.mem_cons_of_mem _ hy)) h
        exact ⟨s₂, htouch.trans ((frame_world s₁ _).touched.trans ht₂),
          hsch.trans hf.schedule, hres⟩

/-- The attempt on the head of the schedule. -/
theorem tryHead_cases {env : ReplayEnv W} {x : ReplayItem} {rest : List ReplayItem}
    {s s' : ReplayScheduler W} {ok : Bool} (hs : s.schedule = x :: rest) (hmode : s.mode ≠ .stop)
    (h : s.tryHead env x rest = some (ok, s')) : ∃ s₁, Touched s s₁ ∧ Move s₁ s' := by
  simp only [tryHead, Option.bind_eq_bind, Option.bind_eq_some_iff] at h
  obtain ⟨⟨success, x', s₁⟩, h₁, h⟩ := h
  obtain ⟨hx, rfl, rfl, rfl⟩ | ⟨hx, hatt, w, hf⟩ := tryExecute_cases h₁
  · -- a marker
    simp only [if_true, Option.pure_def, Option.some.injEq, Prod.mk.injEq] at h
    obtain ⟨_, rfl⟩ := h
    have hm : s.marker.scheduleBacklog = s.scheduleBacklog ∧ s.marker.consumed = s.consumed ∧
        s.marker.mode = if s.mode = .strict then .bestEffortNond else .bestEffort := by
      unfold marker
      split
      · exact ⟨rfl, rfl, by simp⟩
      · exact ⟨rfl, rfl, by simp⟩
    exact ⟨s, (Frame.refl s).touched, .markerHit x' hx hs hm.1
      (by simp only [hm.2.1]) hmode hm.2.2 rfl⟩
  · have hsch : s₁.schedule = x' :: rest := hf.schedule
    have htouch : Touched s s₁ :=
      { schedule := by rw [hs, hsch]; exact .cons hatt (forall₂_attempted_refl rest)
        scheduleBacklog := by rw [hf.scheduleBacklog]; exact forall₂_attempted_refl _
        consumed := hf.consumed
        mode := hf.mode
        skipAfterNextTry := hf.skipAfterNextTry }
    refine ⟨s₁, htouch, ?_⟩
    have hx' : x'.descriptor.isNull = false := hatt.isNull.trans hx
    split at h
    · simp only [Option.pure_def, Option.some.injEq, Prod.mk.injEq] at h
      obtain ⟨_, rfl⟩ := h
      exact .headHit x' hx' hsch rfl rfl rfl rfl
    · split at h
      · rename_i hskip
        simp only [Option.pure_def, Option.some.injEq, Prod.mk.injEq] at h
        obtain ⟨_, rfl⟩ := h
        exact .skip x' hx' hsch hskip rfl rfl rfl rfl
      · split at h
        · simp only [Option.pure_def, Option.some.injEq, Prod.mk.injEq] at h
          obtain ⟨_, rfl⟩ := h
          exact .idle (Frame.refl _).idle
        · simp only [Option.bind_eq_some_iff] at h
          obtain ⟨interval, _, h⟩ := h
          simp only [Option.pure_def, Option.some.injEq, Prod.mk.injEq] at h
          obtain ⟨_, rfl⟩ := h
          exact .idle ⟨rfl, rfl, rfl, Or.inl rfl, Or.inl rfl⟩

/-! ## Stopping moves nothing -/

/-- Stopping moves no item. -/
theorem idle_stop (s : ReplayScheduler W) : Idle s s.stop := by
  unfold stop
  split
  · exact (Frame.refl s).idle
  · exact ⟨rfl, rfl, rfl, Or.inr rfl, Or.inl rfl⟩

/-- Nor does a change of the mode. -/
theorem idle_stopState (state : ReplaySchedulerState) (s : ReplayScheduler W) :
    Idle s (s.stopState state) := by
  unfold stopState
  split
  · exact (Frame.refl s).idle
  · have h : Idle s { s with state := state } := ⟨rfl, rfl, rfl, Or.inl rfl, Or.inl rfl⟩
    exact h.trans (idle_stop _)

/-- The warnings about what was not executed move no item. -/
theorem frame_foldl_report (env : ReplayEnv W) (description : String) (names : List StdString)
    (s : ReplayScheduler W) :
    Frame s (names.foldl (fun s name => s.report env description name) s) := by
  induction names generalizing s with
  | nil => exact Frame.refl s
  | cons name names ih => exact (frame_report env description name s).trans (ih _)

/-- Nor does stopping with the register. -/
theorem idle_stopRegister (env : ReplayEnv W) (state : ReplaySchedulerState)
    (s : ReplayScheduler W) : Idle s (s.stopRegister env state) := by
  unfold stopRegister
  split
  · exact (Frame.refl s).idle
  · have h : Idle s { s with state := state } := ⟨rfl, rfl, rfl, Or.inl rfl, Or.inl rfl⟩
    dsimp only
    split
    · exact (h.trans (frame_foldl_report env _ _ _).idle).trans (idle_stop _)
    · exact h.trans (idle_stop _)

/-- Nor does the timeout of the whole replay. -/
theorem idle_timeout (env : ReplayEnv W) (s : ReplayScheduler W) : Idle s (s.timeout env) :=
  (frame_report env _ _ s).idle.trans (idle_stopState _ _)

/-- Nor does that of an event action. -/
theorem idle_slEventActionTimeout {env : ReplayEnv W} {s s' : ReplayScheduler W}
    (h : s.slEventActionTimeout env = some s') : Idle s s' := by
  have h₀ : Idle s { s with timeoutTimerActive := false } :=
    ⟨rfl, rfl, rfl, Or.inl rfl, Or.inl rfl⟩
  unfold slEventActionTimeout at h
  dsimp only at h
  split at h
  · -- the schedule is empty
    simp only [Option.some.injEq] at h
    exact h ▸ h₀
  · split at h
    · -- `STRICT` exits
      exact nomatch h
    · -- `BEST_EFFORT_NOND` gives up
      simp only [Option.some.injEq] at h
      exact h ▸ h₀.trans ((frame_report env _ _ _).idle.trans (idle_stopState _ _))
    · -- `BEST_EFFORT` skips after the next try
      rename_i hm
      simp only [Option.some.injEq] at h
      exact h ▸ ⟨rfl, rfl, rfl, Or.inl rfl, Or.inr hm⟩
    · -- `STOP` goes on
      simp only [Option.some.injEq] at h
      exact h ▸ h₀

/-- One call: items are attempted where they are, and then at most one of them moves. -/
theorem executeDelayedEventAction_cases {env : ReplayEnv W} {s s' : ReplayScheduler W}
    {more : Bool} (hnull : ∀ x ∈ s.scheduleBacklog, x.descriptor.isNull = false)
    (h : s.executeDelayedEventAction env = some (more, s')) :
    ∃ s₁, Touched s s₁ ∧ Move s₁ s' := by
  unfold executeDelayedEventAction at h
  split at h
  · -- the schedule is empty
    simp only [Option.some.injEq, Prod.mk.injEq] at h
    obtain ⟨_, rfl⟩ := h
    exact ⟨s, (Frame.refl s).touched, .idle (idle_stopRegister env _ s)⟩
  · rename_i x rest hs
    split at h
    · -- the mode is `STOP`
      simp only [Option.some.injEq, Prod.mk.injEq] at h
      obtain ⟨_, rfl⟩ := h
      exact ⟨s, (Frame.refl s).touched, .idle (idle_stopRegister env _ s)⟩
    · -- the backlog comes first
      rename_i hmode
      simp only [Option.bind_eq_bind, Option.bind_eq_some_iff] at h
      obtain ⟨⟨success, s₂⟩, h₁, h⟩ := h
      obtain ⟨s₁, ht, hsch, hres⟩ := tryBacklog_cases (List.nil_append _).symm hnull h₁
      split at h
      · -- it had a hit, and the head is not tried
        rename_i hok
        simp only at hok
        simp only [Option.pure_def, Option.some.injEq, Prod.mk.injEq] at h
        obtain ⟨_, rfl⟩ := h
        simp only [hok, if_true] at hres
        exact ⟨s₁, ht, hres⟩
      · -- it had none, and the items of the backlog are as they were but for their patches
        rename_i hok
        simp only at hok
        simp only [hok, Bool.false_eq_true, if_false] at hres
        subst hres
        obtain ⟨s₃, ht₃, hmove⟩ := tryHead_cases (hsch.trans hs)
          (by rw [ht.mode]; exact hmode) h
        exact ⟨s₃, ht.trans ht₃, hmove⟩

/-! ## The invariant -/

/-- What holds between any two calls. -/
structure Conserved (items : List EventActionScheduleItem) (s : ReplayScheduler W) : Prop where
  places : (s.allItems.map (·.pos)).Perm (List.range items.length)
  origin : ∀ x ∈ s.allItems, ∃ it, items[x.pos]? = some it ∧ IsItem it x
  backlogEvents : ∀ x ∈ s.scheduleBacklog, x.descriptor.isNull = false
  strict : s.mode = .strict → s.markersConsumed = 0
  bestEffortNond : s.mode = .bestEffortNond → s.markersConsumed = 1
  bestEffort : s.mode = .bestEffort → 2 ≤ s.markersConsumed
  skipping : s.skipAfterNextTry = true → 2 ≤ s.markersConsumed
  inOrder : s.markersConsumed ≤ 1 →
    s.scheduleBacklog = [] ∧ (s.consumed ++ s.schedule).map (·.pos) = List.range items.length

/-- At the start all items of the file are in the schedule. -/
theorem conserved_init (env : ReplayEnv W) (items : List EventActionScheduleItem)
    (schedulerTimeout : Int32) (w : W) : Conserved items (init env items schedulerTimeout w) := by
  -- the positions are the indices of the file
  have hpos : (init env items schedulerTimeout w).schedule.map (·.pos) =
      List.range items.length := by
    simp only [init, List.map_map]
    rw [List.range_eq_range', ← List.zipIdx_map_snd]
    rfl
  refine ⟨?_, ?_, ?_, fun _ => rfl, ?_, ?_, ?_, fun _ => ⟨rfl, by simpa [init] using hpos⟩⟩
  · have : (init env items schedulerTimeout w).allItems =
        (init env items schedulerTimeout w).schedule := rfl
    rw [this, hpos]
  · -- each item is that of its line
    intro x hx
    simp only [allItems, init, List.nil_append, List.mem_map] at hx
    obtain ⟨⟨it, i⟩, hmem, rfl⟩ := hx
    refine ⟨it, ?_, rfl, Or.inl rfl⟩
    exact List.mem_zipIdx_iff_getElem?.mp hmem
  · -- the backlog is empty, and no mode but `STRICT` is on
    intro x hx; exact nomatch hx
  · intro h; exact nomatch h
  · intro h; exact nomatch h
  · intro h; exact nomatch h

/-- Attempts keep the positions. -/
theorem map_pos_of_attempted {l l' : List ReplayItem} (h : List.Forall₂ Attempted l l') :
    l'.map (·.pos) = l.map (·.pos) := by
  induction h with
  | nil => rfl
  | cons hx _ ih => simp only [List.map_cons, hx.pos, ih]

/-- Every item after an attempt was one before it. -/
theorem mem_of_attempted {l l' : List ReplayItem} (h : List.Forall₂ Attempted l l')
    {y : ReplayItem} (hy : y ∈ l') : ∃ x ∈ l, Attempted x y := by
  induction h with
  | nil => exact nomatch hy
  | cons hx _ ih =>
    rcases List.mem_cons.mp hy with rfl | hy
    · exact ⟨_, List.mem_cons_self, hx⟩
    · obtain ⟨x, hm, hat⟩ := ih hy
      exact ⟨x, List.mem_cons_of_mem _ hm, hat⟩

/-- Attempts lose no item. -/
theorem conserved_touched {items : List EventActionScheduleItem} {s s' : ReplayScheduler W}
    (h : Touched s s') (c : Conserved items s) : Conserved items s' := by
  -- no marker is consumed by an attempt
  have hm : s'.markersConsumed = s.markersConsumed := by simp only [markersConsumed, h.consumed]
  have hall : List.Forall₂ Attempted s.allItems s'.allItems := by
    unfold allItems
    rw [h.consumed]
    exact List.rel_append (List.rel_append (forall₂_attempted_refl _) h.scheduleBacklog) h.schedule
  refine ⟨?_, ?_, ?_, ?_, ?_, ?_, ?_, ?_⟩
  · rw [map_pos_of_attempted hall]; exact c.places
  · -- what an item was made of stays
    intro y hy
    obtain ⟨x, hx, hat⟩ := mem_of_attempted hall hy
    obtain ⟨it, hit, hx⟩ := c.origin x hx
    exact ⟨it, by rw [hat.pos]; exact hit, hat.isItem hx⟩
  · -- only event actions are in the backlog
    intro y hy
    obtain ⟨x, hx, hat⟩ := mem_of_attempted h.scheduleBacklog hy
    rw [hat.isNull]; exact c.backlogEvents x hx
  · rw [h.mode, hm]; exact c.strict
  · rw [h.mode, hm]; exact c.bestEffortNond
  · rw [h.mode, hm]; exact c.bestEffort
  · rw [h.skipAfterNextTry, hm]; exact c.skipping
  · -- while everything was in order, the backlog was empty
    intro hle
    rw [hm] at hle
    obtain ⟨hb, ho⟩ := c.inOrder hle
    refine ⟨?_, ?_⟩
    · have := h.scheduleBacklog
      rw [hb] at this
      exact List.forall₂_nil_left_iff.mp this
    · rw [List.map_append, map_pos_of_attempted h.schedule, h.consumed, ← List.map_append, ho]

/-- An item that leaves the backlog or the schedule is appended to the consumed ones. -/
theorem markersConsumed_append {s s' : ReplayScheduler W} {x : ReplayItem}
    (h : s'.consumed = s.consumed ++ [x]) :
    s'.markersConsumed = s.markersConsumed + if x.descriptor.isNull then 1 else 0 := by
  simp only [markersConsumed, h, List.countP_append, List.countP_singleton]

/-- Nor does what moves none. -/
theorem conserved_idle {items : List EventActionScheduleItem} {s s' : ReplayScheduler W}
    (h : Idle s s') (c : Conserved items s) : Conserved items s' := by
  have hall : s'.allItems = s.allItems := by
    simp only [allItems, h.schedule, h.scheduleBacklog, h.consumed]
  have hm : s'.markersConsumed = s.markersConsumed := by simp only [markersConsumed, h.consumed]
  -- a mode that is not `STOP` is the mode before
  have hmode : ∀ m, m ≠ ReplayMode.stop → s'.mode = m → s.mode = m := by
    intro m hne heq
    obtain hc | hc := h.mode
    · rw [← hc]; exact heq
    · rw [hc] at heq; exact absurd heq.symm hne
  refine ⟨by rw [hall]; exact c.places, by rw [hall]; exact c.origin,
    by rw [h.scheduleBacklog]; exact c.backlogEvents, ?_, ?_, ?_, ?_, ?_⟩
  · intro hs; rw [hm]; exact c.strict (hmode _ (by decide) hs)
  · intro hs; rw [hm]; exact c.bestEffortNond (hmode _ (by decide) hs)
  · intro hs; rw [hm]; exact c.bestEffort (hmode _ (by decide) hs)
  · intro hs
    rw [hm]
    -- the flag is set by a timeout in `BEST_EFFORT` only
    obtain hk | hk := h.skipAfterNextTry
    · exact c.skipping (hk ▸ hs)
    · exact c.bestEffort hk
  · rw [hm, h.scheduleBacklog, h.consumed, h.schedule]; exact c.inOrder

/-- A move takes one item to another place and leaves the positions a permutation. -/
theorem conserved_move {items : List EventActionScheduleItem} {s s' : ReplayScheduler W}
    (h : Move s s') (c : Conserved items s) : Conserved items s' := by
  cases h with
  | idle h => exact conserved_idle h c
  | backlogHit before after x hx h hb hs hc hm hk =>
    have hperm : s'.allItems.Perm s.allItems := by
      simp only [allItems, h, hb, hs, hc]
      refine List.Perm.append_right _ ?_
      rw [List.append_assoc]
      exact List.Perm.append_left _ (by simpa using List.perm_middle.symm)
    have hcount := markersConsumed_append hc
    simp only [hx, Bool.false_eq_true, if_false, Nat.add_zero] at hcount
    refine ⟨(hperm.map _).trans c.places, fun y hy => c.origin y (hperm.mem_iff.mp hy), ?_,
      by rw [hm, hcount]; exact c.strict, by rw [hm, hcount]; exact c.bestEffortNond,
      by rw [hm, hcount]; exact c.bestEffort, by rw [hk, hcount]; exact c.skipping, ?_⟩
    · intro y hy
      refine c.backlogEvents y ?_
      rw [h]
      rw [hb, List.mem_append] at hy
      rcases hy with hy | hy
      · exact List.mem_append_left _ hy
      · exact List.mem_append_right _ (List.mem_cons_of_mem _ hy)
    · -- a backlog with an item in it needs two markers
      intro hle
      rw [hcount] at hle
      have := (c.inOrder hle).1
      rw [h] at this
      simp at this
  | headHit x hx h hb hc hm hk =>
    have hperm : s'.allItems.Perm s.allItems := by
      simp only [allItems, h, hb, hc, List.append_assoc]
      exact List.Perm.append_left _ (by simpa using List.perm_middle.symm)
    have hcount := markersConsumed_append hc
    simp only [hx, Bool.false_eq_true, if_false, Nat.add_zero] at hcount
    refine ⟨(hperm.map _).trans c.places, fun y hy => c.origin y (hperm.mem_iff.mp hy),
      by rw [hb]; exact c.backlogEvents,
      by rw [hm, hcount]; exact c.strict, by rw [hm, hcount]; exact c.bestEffortNond,
      by rw [hm, hcount]; exact c.bestEffort, by rw [hk]; exact nofun, ?_⟩
    intro hle
    rw [hcount] at hle
    obtain ⟨hnil, ho⟩ := c.inOrder hle
    exact ⟨hb.trans hnil, by rw [← ho, hc, h]; simp⟩
  | markerHit x hx h hb hc hstop hm hk =>
    have hperm : s'.allItems.Perm s.allItems := by
      simp only [allItems, h, hb, hc, List.append_assoc]
      exact List.Perm.append_left _ (by simpa using List.perm_middle.symm)
    have hcount := markersConsumed_append hc
    simp only [hx, if_true] at hcount
    have hmode : (s.mode = .strict ∧ s'.mode = .bestEffortNond ∧ s'.markersConsumed = 1) ∨
        (s'.mode = .bestEffort ∧ 2 ≤ s'.markersConsumed) := by
      cases hsm : s.mode with
      | strict =>
        have := c.strict hsm
        exact Or.inl ⟨rfl, by rw [hm, hsm]; rfl, by omega⟩
      | bestEffortNond =>
        have := c.bestEffortNond hsm
        exact Or.inr ⟨by rw [hm, hsm]; rfl, by omega⟩
      | bestEffort =>
        have := c.bestEffort hsm
        exact Or.inr ⟨by rw [hm, hsm]; rfl, by omega⟩
      | stop => exact absurd hsm hstop
    refine ⟨(hperm.map _).trans c.places, fun y hy => c.origin y (hperm.mem_iff.mp hy),
      by rw [hb]; exact c.backlogEvents, ?_, ?_, ?_, by rw [hk]; exact nofun, ?_⟩
    · intro hs
      obtain ⟨_, hn, _⟩ | ⟨hn, _⟩ := hmode <;> rw [hs] at hn <;> exact nomatch hn
    · intro hs
      obtain ⟨_, _, hn⟩ | ⟨hn, _⟩ := hmode
      · exact hn
      · rw [hs] at hn; exact nomatch hn
    · intro hs
      obtain ⟨_, hn, _⟩ | ⟨_, hn⟩ := hmode
      · rw [hs] at hn; exact nomatch hn
      · exact hn
    · intro hle
      obtain ⟨hnil, ho⟩ := c.inOrder (by omega)
      exact ⟨hb.trans hnil, by rw [← ho, hc, h]; simp⟩
  | skip x hx h hskip hb hc hm hk =>
    have hperm : s'.allItems.Perm s.allItems := by
      simp only [allItems, h, hb, hc]
      simp
    have hcount : s'.markersConsumed = s.markersConsumed := by simp only [markersConsumed, hc]
    refine ⟨(hperm.map _).trans c.places, fun y hy => c.origin y (hperm.mem_iff.mp hy), ?_,
      by rw [hm, hcount]; exact c.strict, by rw [hm, hcount]; exact c.bestEffortNond,
      by rw [hm, hcount]; exact c.bestEffort, by rw [hk, hcount]; exact c.skipping, ?_⟩
    · intro y hy
      rw [hb, List.mem_append, List.mem_singleton] at hy
      rcases hy with hy | rfl
      · exact c.backlogEvents y hy
      · exact hx
    · intro hle
      have := c.skipping hskip
      omega

/-- The invariant is kept by every step of a run. -/
theorem conserved_step {env : ReplayEnv W} {items : List EventActionScheduleItem}
    {s s' : ReplayScheduler W} {l : ReplayLabel} (c : Conserved items s)
    (h : ReplayStep env s l s') : Conserved items s' := by
  cases h with
  | environment w => exact conserved_idle (frame_world s w).idle c
  | execute h =>
    obtain ⟨s₁, ht, hmove⟩ := executeDelayedEventAction_cases c.backlogEvents h
    exact conserved_move hmove (conserved_touched ht c)
  | eventTimeout h => exact conserved_idle (idle_slEventActionTimeout h) c
  | globalTimeout => exact conserved_idle (idle_timeout env s) c

/-- Every reachable state of a replay is conserved. -/
theorem conserved_of_reachable {env : ReplayEnv W} {items : List EventActionScheduleItem}
    {s : ReplayScheduler W} (r : (replay env items).Reachable s) : Conserved items s := by
  refine r.invariant ?_ ?_
  · rintro s ⟨schedulerTimeout, w, rfl⟩
    exact conserved_init env items schedulerTimeout w
  · intro s l s' _ c h
    exact conserved_step c h

/-! ## Conservation and order -/

/-- The three places an item can be in. -/
inductive Place where
  | consumed
  | schedule
  | backlog
deriving DecidableEq

/-- The items in a place. -/
def itemsAt (s : ReplayScheduler W) : Place → List ReplayItem
  | .consumed => s.consumed
  | .schedule => s.schedule
  | .backlog => s.scheduleBacklog

/-- What is in a place is one of all items. -/
theorem mem_allItems_of_itemsAt {s : ReplayScheduler W} {place : Place} {x : ReplayItem}
    (h : x ∈ s.itemsAt place) : x ∈ s.allItems := by
  unfold allItems
  cases place with
  | consumed => exact List.mem_append_left _ (List.mem_append_left _ h)
  | schedule => exact List.mem_append_right _ h
  | backlog => exact List.mem_append_left _ (List.mem_append_right _ h)

/-- Two places never share a position. -/
theorem Conserved.place_unique {items : List EventActionScheduleItem} {s : ReplayScheduler W}
    (c : Conserved items s) {i : Nat} {p q : Place} (hp : i ∈ (s.itemsAt p).map (·.pos))
    (hq : i ∈ (s.itemsAt q).map (·.pos)) : p = q := by
  have hnd : (s.allItems.map (·.pos)).Nodup := c.places.nodup_iff.mpr List.nodup_range
  simp only [allItems, List.map_append, List.nodup_append, List.mem_append] at hnd
  obtain ⟨⟨_, _, hcb⟩, _, hs⟩ := hnd
  cases p <;> cases q <;> simp only [itemsAt] at hp hq <;>
    first
      | rfl
      | exact absurd rfl (hcb _ hp _ hq)
      | exact absurd rfl (hcb _ hq _ hp)
      | exact absurd rfl (hs _ (Or.inl hp) _ hq)
      | exact absurd rfl (hs _ (Or.inl hq) _ hp)
      | exact absurd rfl (hs _ (Or.inr hp) _ hq)
      | exact absurd rfl (hs _ (Or.inr hq) _ hp)

/-- Every item of the file is in a place. -/
theorem Conserved.exists_place {items : List EventActionScheduleItem} {s : ReplayScheduler W}
    (c : Conserved items s) {i : Nat} (hi : i < items.length) :
    ∃ p, i ∈ (s.itemsAt p).map (·.pos) := by
  have hmem := c.places.mem_iff.mpr (List.mem_range.mpr hi)
  simp only [allItems, List.map_append, List.mem_append] at hmem
  rcases hmem with (h | h) | h
  · exact ⟨.consumed, h⟩
  · exact ⟨.backlog, h⟩
  · exact ⟨.schedule, h⟩

/-- No position is in a place twice. -/
theorem Conserved.nodup_place {items : List EventActionScheduleItem} {s : ReplayScheduler W}
    (c : Conserved items s) (p : Place) : ((s.itemsAt p).map (·.pos)).Nodup := by
  have hnd : (s.allItems.map (·.pos)).Nodup := c.places.nodup_iff.mpr List.nodup_range
  simp only [allItems, List.map_append, List.nodup_append] at hnd
  cases p with
  | consumed => exact hnd.1.1
  | schedule => exact hnd.2.1
  | backlog => exact hnd.1.2.1

/-- Before the second marker the consumed items are the first lines of the file. -/
theorem Conserved.consumed_eq {items : List EventActionScheduleItem} {s : ReplayScheduler W}
    (c : Conserved items s) (hle : s.markersConsumed ≤ 1) :
    s.consumed.map (·.pos) = List.range s.consumed.length ∧
      List.Forall₂ IsItem (items.take s.consumed.length) s.consumed := by
  obtain ⟨_, ho⟩ := c.inOrder hle
  -- what is consumed and what is left make up the file
  have hlen : s.consumed.length ≤ items.length := by
    have := congrArg List.length ho
    simp only [List.length_map, List.length_append, List.length_range] at this
    omega
  have hpos : s.consumed.map (·.pos) = List.range s.consumed.length := by
    have := congrArg (List.take s.consumed.length) ho
    rwa [List.map_append, List.take_left' (List.length_map _), List.take_range,
      Nat.min_eq_left hlen] at this
  refine ⟨hpos, List.forall₂_iff_get.mpr ⟨by simp [hlen], ?_⟩⟩
  -- the item at index `i` has the position `i`, which is its line
  intro i hi hi'
  have hget : (s.consumed.get ⟨i, hi'⟩).pos = i := by
    have hr : (s.consumed.map (·.pos))[i]? = some i := by
      rw [hpos, List.getElem?_range hi']
    simpa [hi'] using hr
  obtain ⟨it, hit, hx⟩ := c.origin (s.consumed.get ⟨i, hi'⟩)
    (List.mem_append_left _ (List.mem_append_left _ (List.get_mem _ _)))
  rw [hget, List.getElem?_eq_getElem (by omega), Option.some.injEq] at hit
  simpa [hit] using hx

/-- The consumed items are never taken back. -/
theorem consumed_prefix_of_step {env : ReplayEnv W} {items : List EventActionScheduleItem}
    {s s' : ReplayScheduler W} {l : ReplayLabel} (c : Conserved items s)
    (h : ReplayStep env s l s') : s.consumed <+: s'.consumed := by
  have hidle : ∀ {s₁ s₂ : ReplayScheduler W}, Idle s₁ s₂ → s₁.consumed <+: s₂.consumed :=
    fun hi => hi.consumed ▸ List.prefix_rfl
  cases h with
  | environment w => exact hidle (frame_world s w).idle
  | execute h =>
    -- what is tried before the move consumes nothing
    obtain ⟨s₁, ht, hmove⟩ := executeDelayedEventAction_cases c.backlogEvents h
    rw [← ht.consumed]
    cases hmove with
    | idle h => exact hidle h
    | backlogHit _ _ _ _ _ _ _ hc => rw [hc]; exact List.prefix_append _ _
    | headHit _ _ _ _ hc => rw [hc]; exact List.prefix_append _ _
    | markerHit _ _ _ _ hc => rw [hc]; exact List.prefix_append _ _
    | skip _ _ _ _ _ hc => exact hc ▸ List.prefix_rfl
  | eventTimeout h => exact hidle (idle_slEventActionTimeout h)
  | globalTimeout => exact hidle (idle_timeout env s)

/-- Replay conservation and order. In every reachable state of a replay each line of the
    schedule file is in exactly one place and there only once, the items there are the
    file's, consumed items stay consumed, and until a second marker has been consumed the
    backlog is empty and the consumed items are the first lines of the file, in order. -/
theorem replay_conserves_items (env : ReplayEnv W) (items : List EventActionScheduleItem)
    (s : ReplayScheduler W) (r : (replay env items).Reachable s) :
    (∀ i, i < items.length → ∃! place, i ∈ (s.itemsAt place).map (·.pos)) ∧
    (∀ place, ((s.itemsAt place).map (·.pos)).Nodup) ∧
    (∀ place, ∀ x ∈ s.itemsAt place, ∃ it, items[x.pos]? = some it ∧ IsItem it x) ∧
    (∀ l s', ReplayStep env s l s' → s.consumed <+: s'.consumed) ∧
    (s.mode = .strict ∨ s.mode = .bestEffortNond → s.markersConsumed ≤ 1) ∧
    (s.markersConsumed ≤ 1 →
      s.scheduleBacklog = [] ∧ s.consumed.map (·.pos) = List.range s.consumed.length ∧
        List.Forall₂ IsItem (items.take s.consumed.length) s.consumed) := by
  have c := conserved_of_reachable r
  refine ⟨?_, c.nodup_place, ?_, fun _ _ h => consumed_prefix_of_step c h, ?_, ?_⟩
  · intro i hi
    obtain ⟨p, hp⟩ := c.exists_place hi
    exact ⟨p, hp, fun q hq => c.place_unique hq hp⟩
  · intro place x hx
    exact c.origin x (mem_allItems_of_itemsAt hx)
  · rintro (hm | hm)
    · have := c.strict hm; omega
    · have := c.bestEffortNond hm; omega
  · intro hle
    exact ⟨(c.inOrder hle).1, c.consumed_eq hle⟩

/-- A register in which the descriptors that can run are those that `runs` accepts. -/
def openRegister (runs : EventActionDescriptor → Bool) : ReplayEnv EventActionId where
  runEventAction _ _ _ d w := some (runs d, w)
  getWaitingNames _ := []
  translateOldIdToNew _ id := id
  debugPrintNames _ := []
  hbAllocateEventActionId w := (w, w + 1)
  actionLogStrictMode _ w := w
  warningCollectorSetCurrentEventAction _ w := w
  warningCollectorReport _ _ _ w := w
  score _ _ := 0

/-- One item runs, and the second waits. -/
theorem replay_conserves_items_of_two :
    ∃ s, (replay (openRegister fun d => d.type == "A".toList)
        [(1, .make .other "A".toList []), (2, .make .other "B".toList [])]).Reachable s ∧
      s.consumed.map (·.pos) = [0] ∧ s.schedule.map (·.pos) = [1] ∧
      ∀ i, i < 2 → ∃! place, i ∈ (s.itemsAt place).map (·.pos) := by
  let items : List EventActionScheduleItem :=
    [(1, .make .other "A".toList []), (2, .make .other "B".toList [])]
  let env := openRegister fun d => d.type == "A".toList
  obtain ⟨s, hs⟩ : ∃ s, (init env items 20000 1).executeDelayedEventAction env = some (true, s) :=
    ⟨_, rfl⟩
  have r : (replay env items).Reachable s := .step (.init ⟨20000, 1, rfl⟩) (.execute hs)
  obtain rfl := Prod.mk.inj (Option.some.inj hs) |>.2
  exact ⟨_, r, rfl, rfl, (replay_conserves_items env items _ r).1⟩

end R4.ReplayScheduler
