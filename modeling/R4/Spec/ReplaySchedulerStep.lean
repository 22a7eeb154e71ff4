import Mathlib.Logic.Relation
import R4.Spec.ReplayConservation

/-!
# One call of the replay scheduler, step by step

A call of `executeDelayedEventAction` makes attempts that fail and then ends in one of a
few ways. `Attempt` says what a failed attempt can do and `Ending` what the end can be, so
that an invariant of the scheduler and of the world is kept by a call if it is kept by
these.

## Key results

- `executeDelayedEventAction_split`: failed attempts, and an ending
- `worldSteps_of_replayStep`: what a step of a replay does to the world
-/

namespace R4.ReplayScheduler

variable {W : Type}

/-- What the scheduler does to the world around the event actions it tries. -/
inductive Quiet (env : ReplayEnv W) : W → W → Prop where
  | strictMode (mode : Bool) (w : W) : Quiet env w (env.actionLogStrictMode mode w)
  | setCurrentEventAction (id : EventActionId) (w : W) :
      Quiet env w (env.warningCollectorSetCurrentEventAction id w)
  | report (module description details : StdString) (w : W) :
      Quiet env w (env.warningCollectorReport module description details w)

/-- `runEventAction` is tried for item `x`, under its own descriptor or under one that is
    waiting. -/
inductive Runs (env : ReplayEnv W) (s : ReplayScheduler W) (x : ReplayItem) :
    Bool × ReplayScheduler W → Prop where
  | exact {result : Bool × ReplayScheduler W} (hnull : x.descriptor.isNull = false)
      (hpatched : x.descriptor.type = "DOMTimer".toList → x.descriptor.isPatched = true)
      (h : s.runUnder env x.id x.descriptor = some result) : Runs env s x result
  | fuzzy {result : Bool × ReplayScheduler W} {best : EventActionDescriptor}
      (hnull : x.descriptor.isNull = false) (hpatched : best.isPatched = false)
      (h : s.runUnder env x.id best = some result) : Runs env s x result

/-- What can happen before a call ends. -/
inductive Attempt (env : ReplayEnv W) : ReplayScheduler W → ReplayScheduler W → Prop where
  | quiet {s : ReplayScheduler W} {w : W} (h : Quiet env s.world w) :
      Attempt env s { s with world := w }
  | patchHead {s : ReplayScheduler W} {x : ReplayItem} {rest : List ReplayItem}
      {d : EventActionDescriptor} (hs : s.schedule = x :: rest)
      (hd : patchDescriptor env x.descriptor s.world = some d) :
      Attempt env s { s with schedule := { x with descriptor := d } :: rest }
  | patchBacklog {s : ReplayScheduler W} {x : ReplayItem} {done rest : List ReplayItem}
      {d : EventActionDescriptor} (hs : s.scheduleBacklog = done ++ x :: rest)
      (hd : patchDescriptor env x.descriptor s.world = some d) :
      Attempt env s { s with scheduleBacklog := done ++ { x with descriptor := d } :: rest }
  | miss {s s' : ReplayScheduler W} {x : ReplayItem}
      (hx : x ∈ s.scheduleBacklog ∨ x ∈ s.schedule) (h : Runs env s x (false, s')) :
      Attempt env s s'

/-- The id for the next event action. -/
def allocate (env : ReplayEnv W) (s : ReplayScheduler W) : ReplayScheduler W :=
  { s with
    world := (env.hbAllocateEventActionId s.world).2
    nextEventActionId := (env.hbAllocateEventActionId s.world).1 }

/-- How a call can end: an event action has run, or the next item is a marker, or it is
    skipped or waited for. -/
inductive Ending (env : ReplayEnv W) (s : ReplayScheduler W) : ReplayScheduler W → Prop where
  | hitBacklog {s₁ : ReplayScheduler W} {x : ReplayItem} {done rest : List ReplayItem}
      (hs : s.scheduleBacklog = done ++ x :: rest) (h : Runs env s x (true, s₁)) :
      Ending env s (({ s₁.allocate env with
        world := env.actionLogStrictMode true (s₁.allocate env).world
        scheduleBacklog := done ++ rest
        consumed := s₁.consumed ++ [x] }).report env
          "Event action executed from pending schedule." [])
  | hitHead {s₁ : ReplayScheduler W} {x : ReplayItem} {rest : List ReplayItem}
      (hs : s.schedule = x :: rest) (h : Runs env s x (true, s₁)) :
      Ending env s { s₁.allocate env with
        schedule := rest
        consumed := s₁.consumed ++ [x]
        skipAfterNextTry := false
        timeoutTimerActive := false }
  | marker {x : ReplayItem} {rest : List ReplayItem} (hs : s.schedule = x :: rest)
      (hnull : x.descriptor.isNull = true) (hstop : s.mode ≠ .stop) :
      Ending env s { s.marker with
        schedule := rest
        consumed := s.consumed ++ [x]
        skipAfterNextTry := false
        timeoutTimerActive := false }
  | skip {x : ReplayItem} {rest : List ReplayItem} {w : W} (hs : s.schedule = x :: rest)
      (hnull : x.descriptor.isNull = false) (hskip : s.skipAfterNextTry = true)
      (hw : Quiet env s.world w) :
      Ending env s { s with
        world := w
        scheduleBacklog := s.scheduleBacklog ++ [x]
        schedule := rest }
  | wait (active : Bool) (interval : Int32) :
      Ending env s { s with timeoutTimerActive := active, timeoutTimerInterval := interval }

/-! ## Attempts -/

/-- After the patch a `DOMTimer` descriptor is patched. -/
theorem isPatched_of_patchDescriptor {env : ReplayEnv W} {d d' : EventActionDescriptor} {w : W}
    (h : patchDescriptor env d w = some d') (htype : d'.type = "DOMTimer".toList) :
    d'.isPatched = true := by
  unfold patchDescriptor at h
  split at h
  · simp only [Option.bind_eq_bind, Option.bind_eq_some_iff] at h
    obtain ⟨oldId, _, h⟩ := h
    exact (EventActionDescriptor.patchParameter_frame h).2.2.2
  · rename_i hdom
    obtain rfl := Option.some.inj h
    by_contra hpatched
    exact hdom ⟨htype, by simpa using hpatched⟩

/-- A waiting descriptor is read back from its name, without its patch. -/
theorem bestCandidate_isPatched {env : ReplayEnv W} {type : StdString} {next : FuzzyKey}
    {names : List StdString} {score bestScore : Nat} {d best : EventActionDescriptor}
    (hd : d.isPatched = false)
    (h : bestCandidate env type next names score d = some (bestScore, best)) :
    best.isPatched = false := by
  induction names generalizing score d with
  | nil =>
    simp only [bestCandidate, Option.some.injEq, Prod.mk.injEq] at h
    exact h.2 ▸ hd
  | cons name names ih =>
    simp only [bestCandidate, Option.bind_eq_bind, Option.bind_eq_some_iff] at h
    obtain ⟨candidate, hcandidate, score', -, h⟩ := h
    split at h
    · -- the candidate is the best one so far
      refine ih ?_ h
      -- what is read from a name has not been patched
      unfold EventActionDescriptor.deserialize at hcandidate
      split at hcandidate
      · split at hcandidate
        · obtain ⟨category, -, rfl⟩ := Option.map_eq_some_iff.mp hcandidate
          rfl
        · simp at hcandidate
      · simp at hcandidate
    · -- the best one stays
      exact ih hd h

/-- The fuzzy stage changes nothing, or tries a waiting descriptor. -/
theorem fuzzyStage_split {env : ReplayEnv W} {x : ReplayItem} {s s' : ReplayScheduler W}
    {found found' : Bool} (hnull : x.descriptor.isNull = false)
    (h : s.fuzzyStage env x.id x.descriptor found = some (found', s')) :
    (found' = found ∧ s' = s) ∨
      (found = false ∧ ∃ w, Quiet env s.world w ∧
        Runs env { s with world := w } x (found', s')) := by
  unfold fuzzyStage at h
  split at h
  · rename_i hstage
    simp only [tryFuzzy, Option.bind_eq_bind, Option.bind_eq_some_iff] at h
    obtain ⟨key, -, ⟨bestScore, best⟩, hbest, h⟩ := h
    split at h
    · -- the best candidate is close enough: it is reported and tried
      exact Or.inr ⟨hstage.1, _, .report _ _ _ _,
        .fuzzy hnull (bestCandidate_isPatched rfl hbest) h⟩
    · simp only [Option.pure_def, Option.some.injEq, Prod.mk.injEq] at h
      exact Or.inl ⟨by rw [← h.1, hstage.1], h.2.symm⟩
  · simp only [Option.some.injEq, Prod.mk.injEq] at h
    exact Or.inl ⟨h.1.symm, h.2.symm⟩

/-- Attempts on an item, the last of which may have been a hit. -/
def Tries (env : ReplayEnv W) (s : ReplayScheduler W) (x : ReplayItem) (found : Bool)
    (s' : ReplayScheduler W) : Prop :=
  if found then
    ∃ s₁ s₂, Relation.ReflTransGen (Attempt env) s s₁ ∧ Frame s s₁ ∧ Runs env s₁ x (true, s₂) ∧
      s' = s₂.allocate env
  else Relation.ReflTransGen (Attempt env) s s' ∧ Frame s s'

/-- A run of an event action moves no item. -/
theorem frame_runs {env : ReplayEnv W} {s s' : ReplayScheduler W} {x : ReplayItem} {found : Bool}
    (h : Runs env s x (found, s')) : Frame s s' := by
  cases h with
  | exact _ _ h => exact frame_runUnder h
  | fuzzy _ _ h => exact frame_runUnder h

/-- The exact attempt on a stored item, and the fuzzy one after it. -/
theorem tryDescriptor_split {env : ReplayEnv W} {x : ReplayItem} {s s' : ReplayScheduler W}
    {found : Bool} (hx : x ∈ s.scheduleBacklog ∨ x ∈ s.schedule)
    (hnull : x.descriptor.isNull = false)
    (hpatched : x.descriptor.type = "DOMTimer".toList → x.descriptor.isPatched = true)
    (h : s.tryDescriptor env x.id x.descriptor = some (found, s')) : Tries env s x found s' := by
  simp only [tryDescriptor, Option.bind_eq_bind, Option.bind_eq_some_iff] at h
  obtain ⟨⟨found₁, s₁⟩, h₁, ⟨found₂, s₂⟩, h₂, h⟩ := h
  -- the exact attempt comes first, and the fuzzy one only if it fails
  have hexact : Runs env s x (found₁, s₁) := .exact hnull hpatched h₁
  have hstored : x ∈ s₁.scheduleBacklog ∨ x ∈ s₁.schedule := by
    rw [(frame_runs hexact).scheduleBacklog, (frame_runs hexact).schedule]
    exact hx
  -- what was run last, and whether it was a hit
  have hlast : ∃ s₀, Relation.ReflTransGen (Attempt env) s s₀ ∧ Frame s s₀ ∧
      (x ∈ s₀.scheduleBacklog ∨ x ∈ s₀.schedule) ∧ Runs env s₀ x (found₂, s₂) := by
    rcases fuzzyStage_split hnull h₂ with ⟨rfl, rfl⟩ | ⟨rfl, w, hw, hfuzzy⟩
    · exact ⟨s, .refl, Frame.refl s, hx, hexact⟩
    · refine ⟨{ s₁ with world := w }, ?_, (frame_runs hexact).trans (frame_world s₁ w), hstored,
        hfuzzy⟩
      exact (Relation.ReflTransGen.single (.miss hx hexact)).tail (.quiet hw)
  obtain ⟨s₀, hattempts, hframe, hx₀, hruns⟩ := hlast
  cases found₂ with
  | true =>
    simp only [if_true, Option.pure_def, Option.some.injEq, Prod.mk.injEq] at h
    obtain ⟨rfl, rfl⟩ := h
    exact ⟨s₀, s₂, hattempts, hframe, hruns, rfl⟩
  | false =>
    simp only [Bool.false_eq_true, if_false, Option.pure_def, Option.some.injEq,
      Prod.mk.injEq] at h
    obtain ⟨rfl, rfl⟩ := h
    exact ⟨hattempts.tail (.miss hx₀ hruns), hframe.trans (frame_runs hruns)⟩

/-! ## A call -/

/-- The loop over the backlog. -/
theorem tryBacklog_split {env : ReplayEnv W} {done todo : List ReplayItem}
    {s s' : ReplayScheduler W} {success : Bool} (hs : s.scheduleBacklog = done ++ todo)
    (hnull : ∀ x ∈ todo, x.descriptor.isNull = false)
    (h : tryBacklog env done todo s = some (success, s')) :
    ∃ s₁, Relation.ReflTransGen (Attempt env) s s₁ ∧ s₁.schedule = s.schedule ∧
      s₁.mode = s.mode ∧ if success then Ending env s₁ s' else s' = s₁ := by
  induction todo generalizing done s with
  | nil =>
    simp only [tryBacklog, Option.some.injEq, Prod.mk.injEq] at h
    obtain ⟨rfl, rfl⟩ := h
    exact ⟨s, .refl, rfl, rfl, by simp⟩
  | cons x rest ih =>
    have hx := hnull x List.mem_cons_self
    simp only [tryBacklog, tryExecuteEventActionDescriptor, hx, Bool.false_eq_true, if_false,
      Option.bind_eq_bind, Option.bind_eq_some_iff, Option.pure_def, Option.some.injEq] at h
    obtain ⟨_, ⟨d, hd, ⟨found, s₁⟩, htry, rfl⟩, h⟩ := h
    -- strict mode is switched off, the warnings get their event action, the item is patched
    let s₀ : ReplayScheduler W := { s with
      world := env.warningCollectorSetCurrentEventAction s.nextEventActionId
        (env.actionLogStrictMode false s.world) }
    have hstart : Relation.ReflTransGen (Attempt env) s s₀ :=
      .head (.quiet (.strictMode false s.world))
        (.single (.quiet (.setCurrentEventAction s.nextEventActionId _)))
    have hbacklog : s₀.scheduleBacklog = done ++ x :: rest := hs
    have hpatch := hstart.tail (.patchBacklog hbacklog hd)
    have hnull' : d.isNull = false := by
      rcases patchDescriptor_cases hd with rfl | ⟨-, v, hv⟩
      · exact hx
      · exact (EventActionDescriptor.patchParameter_frame hv).2.2.1.trans hx
    have htries := tryDescriptor_split (x := { x with descriptor := d }) (.inl (by simp)) hnull'
      (isPatched_of_patchDescriptor hd) htry
    cases found with
    | true =>
      simp only [if_true] at h
      obtain ⟨rfl, rfl⟩ := Prod.mk.inj (Option.some.inj h)
      obtain ⟨s₂, s₃, hattempts, hframe, hruns, rfl⟩ := htries
      refine ⟨s₂, hpatch.trans hattempts, hframe.schedule, hframe.mode, ?_⟩
      exact .hitBacklog hframe.scheduleBacklog hruns
    | false =>
      simp only [Bool.false_eq_true, if_false] at h
      obtain ⟨hattempts, hframe⟩ := htries
      -- strict mode is switched on again before the next item of the backlog
      obtain ⟨s₂, hrest, hschedule, hmode, hend⟩ := ih
        (s := { s₁ with world := env.actionLogStrictMode true s₁.world })
        (by simp [hframe.scheduleBacklog]) (fun y hy => hnull y (List.mem_cons_of_mem _ hy)) h
      refine ⟨s₂, ?_, hschedule.trans hframe.schedule, hmode.trans hframe.mode, hend⟩
      exact ((hpatch.trans hattempts).tail (.quiet (.strictMode true s₁.world))).trans hrest

/-- The attempt on the next item. -/
theorem tryHead_split {env : ReplayEnv W} {x : ReplayItem} {rest : List ReplayItem}
    {s s' : ReplayScheduler W} {more : Bool} (hs : s.schedule = x :: rest) (hmode : s.mode ≠ .stop)
    (h : s.tryHead env x rest = some (more, s')) :
    ∃ s₁, Relation.ReflTransGen (Attempt env) s s₁ ∧ Ending env s₁ s' := by
  cases hx : x.descriptor.isNull with
  | true =>
    simp only [tryHead, tryExecuteEventActionDescriptor, hx, if_true, Option.bind_eq_bind,
      Option.bind_some, Option.pure_def, Option.some.injEq, Prod.mk.injEq] at h
    obtain ⟨-, rfl⟩ := h
    -- a marker is consumed without an attempt
    have hconsumed : s.marker.consumed = s.consumed := by
      unfold marker
      split <;> rfl
    rw [hconsumed]
    exact ⟨s, .refl, .marker hs hx hmode⟩
  | false =>
    simp only [tryHead, tryExecuteEventActionDescriptor, hx, Bool.false_eq_true, if_false,
      Option.bind_eq_bind, Option.bind_eq_some_iff, Option.pure_def, Option.some.injEq] at h
    obtain ⟨_, ⟨d, hd, ⟨found, s₁⟩, htry, rfl⟩, h⟩ := h
    let s₀ : ReplayScheduler W := { s with
      world := env.warningCollectorSetCurrentEventAction s.nextEventActionId s.world }
    have hstart : Relation.ReflTransGen (Attempt env) s s₀ :=
      .single (.quiet (.setCurrentEventAction s.nextEventActionId s.world))
    have hhead : s₀.schedule = x :: rest := hs
    have hpatch := hstart.tail (.patchHead hhead hd)
    have hnull' : d.isNull = false := by
      rcases patchDescriptor_cases hd with rfl | ⟨-, v, hv⟩
      · exact hx
      · exact (EventActionDescriptor.patchParameter_frame hv).2.2.1.trans hx
    have htries := tryDescriptor_split (x := { x with descriptor := d }) (.inr (by simp)) hnull'
      (isPatched_of_patchDescriptor hd) htry
    cases found with
    | true =>
      simp only [if_true] at h
      obtain ⟨-, rfl⟩ := Prod.mk.inj (Option.some.inj h)
      obtain ⟨s₂, s₃, hattempts, hframe, hruns, rfl⟩ := htries
      exact ⟨s₂, hpatch.trans hattempts, .hitHead hframe.schedule hruns⟩
    | false =>
      simp only [Bool.false_eq_true, if_false] at h
      obtain ⟨hattempts, hframe⟩ := htries
      refine ⟨s₁, hpatch.trans hattempts, ?_⟩
      split at h
      · rename_i hskip
        obtain ⟨-, rfl⟩ := Prod.mk.inj (Option.some.inj h)
        -- the timer has run out once: the item goes to the backlog
        exact .skip hframe.schedule hnull' hskip (.report _ _ _ _)
      · split at h
        · obtain ⟨-, rfl⟩ := Prod.mk.inj (Option.some.inj h)
          exact .wait s₁.timeoutTimerActive s₁.timeoutTimerInterval
        · simp only [Option.bind_eq_some_iff, Option.some.injEq, Prod.mk.injEq] at h
          obtain ⟨interval, -, -, rfl⟩ := h
          exact .wait true interval

/-- A call stops the replay, or it makes attempts that fail and ends. -/
theorem executeDelayedEventAction_split {env : ReplayEnv W} {s s' : ReplayScheduler W} {more : Bool}
    (hnull : ∀ x ∈ s.scheduleBacklog, x.descriptor.isNull = false)
    (h : s.executeDelayedEventAction env = some (more, s')) :
    ((s.schedule = [] ∨ s.mode = .stop) ∧ s' = s.stopRegister env .finished) ∨
      (s.mode ≠ .stop ∧ ∃ s₁, Relation.ReflTransGen (Attempt env) s s₁ ∧ Ending env s₁ s') := by
  unfold executeDelayedEventAction at h
  cases hs : s.schedule with
  | nil =>
    rw [hs] at h
    obtain ⟨-, rfl⟩ := Prod.mk.inj (Option.some.inj h)
    exact Or.inl ⟨Or.inl rfl, rfl⟩
  | cons x rest =>
    rw [hs] at h
    dsimp only at h
    split at h
    · rename_i hstop
      obtain ⟨-, rfl⟩ := Prod.mk.inj (Option.some.inj h)
      exact Or.inl ⟨Or.inr hstop, rfl⟩
    · rename_i hstop
      simp only [Option.bind_eq_bind, Option.bind_eq_some_iff] at h
      obtain ⟨⟨success, s₁⟩, hbacklog, h⟩ := h
      have hall : s.scheduleBacklog = [] ++ s.scheduleBacklog := rfl
      obtain ⟨s₂, hattempts, hschedule, hmode, hend⟩ := tryBacklog_split hall hnull hbacklog
      refine Or.inr ⟨hstop, ?_⟩
      cases success with
      | true =>
        -- an item of the backlog has run, which ends the call
        simp only [if_true, Option.pure_def, Option.some.injEq, Prod.mk.injEq] at h
        obtain ⟨-, rfl⟩ := h
        exact ⟨s₂, hattempts, by simpa using hend⟩
      | false =>
        simp only [Bool.false_eq_true, if_false] at h hend
        obtain rfl := hend
        -- the backlog has been tried in vain, the next item is up
        obtain ⟨s₃, hmore, hend⟩ := tryHead_split (hschedule.trans hs) (hmode ▸ hstop) h
        exact ⟨s₃, hattempts.trans hmore, hend⟩

/-! ## The world of a replay -/

/-- What the scheduler does to the world, and to the id under which it runs event actions: the
    id is used until an event action has run under it. -/
inductive WorldStep (env : ReplayEnv W) : W × EventActionId → W × EventActionId → Prop where
  | quiet {w w' : W} {id : EventActionId} (h : Quiet env w w') : WorldStep env (w, id) (w', id)
  | miss {w w' : W} {id originalId : EventActionId} {providers : Providers}
      {d : EventActionDescriptor}
      (h : env.runEventAction providers id originalId d w = some (false, w')) :
      WorldStep env (w, id) (w', id)
  | hit {w w' : W} {id originalId : EventActionId} {providers : Providers}
      {d : EventActionDescriptor}
      (h : env.runEventAction providers id originalId d w = some (true, w')) :
      WorldStep env (w, id)
        ((env.hbAllocateEventActionId w').2, (env.hbAllocateEventActionId w').1)

/-- The world and the id of the next event action. -/
def worldNext (s : ReplayScheduler W) : W × EventActionId := (s.world, s.nextEventActionId)

/-- The event action is run under its own descriptor string and the next id. -/
theorem runUnder_eq_some {env : ReplayEnv W} {s s' : ReplayScheduler W} {originalId : EventActionId}
    {d : EventActionDescriptor} {found : Bool}
    (h : s.runUnder env originalId d = some (found, s')) :
    env.runEventAction (s.providers.setCurrentDescriptorString d.toUnpatchedString)
      s.nextEventActionId originalId d s.world = some (found, s'.world) ∧
      s'.nextEventActionId = s.nextEventActionId := by
  simp only [runUnder, Option.bind_eq_bind, Option.bind_eq_some_iff, Option.pure_def,
    Option.some.injEq, Prod.mk.injEq] at h
  obtain ⟨⟨found', w⟩, hcall, rfl, rfl⟩ := h
  exact ⟨hcall, rfl⟩

/-- A run is that of some descriptor under the id of the item. -/
theorem Runs.runEventAction {env : ReplayEnv W} {s s' : ReplayScheduler W} {x : ReplayItem}
    {found : Bool} (h : Runs env s x (found, s')) :
    ∃ providers d, env.runEventAction providers s.nextEventActionId x.id d s.world =
      some (found, s'.world) ∧ s'.nextEventActionId = s.nextEventActionId := by
  cases h with
  | exact _ _ h => exact ⟨_, _, runUnder_eq_some h⟩
  | fuzzy _ _ h => exact ⟨_, _, runUnder_eq_some h⟩

/-- Attempts are steps of the world. -/
theorem worldSteps_of_attempts {env : ReplayEnv W} {s s' : ReplayScheduler W}
    (h : Relation.ReflTransGen (Attempt env) s s') :
    Relation.ReflTransGen (WorldStep env) s.worldNext s'.worldNext := by
  induction h with
  | refl => exact .refl
  | tail _ h ih =>
    refine ih.trans ?_
    cases h with
    | quiet h => exact .single (.quiet h)
    | patchHead => exact .refl
    | patchBacklog => exact .refl
    | miss _ h =>
      obtain ⟨providers, d, hcall, hid⟩ := h.runEventAction
      rw [worldNext, worldNext, hid]
      exact .single (.miss hcall)

/-- What a run ends with is a step of the world. -/
theorem worldSteps_of_ending {env : ReplayEnv W} {s s' : ReplayScheduler W} (h : Ending env s s') :
    Relation.ReflTransGen (WorldStep env) s.worldNext s'.worldNext := by
  cases h with
  | @hitBacklog s₁ _ _ _ _ h =>
    obtain ⟨providers, d, hcall, -⟩ := h.runEventAction
    have hhit : WorldStep env s.worldNext (s₁.allocate env).worldNext := .hit hcall
    -- behind the hit strict mode is switched on again, and the hit is reported
    exact ((Relation.ReflTransGen.single hhit).tail (.quiet (.strictMode true _))).tail
      (.quiet (.report _ _ _ _))
  | hitHead _ h =>
    obtain ⟨providers, d, hcall, -⟩ := h.runEventAction
    exact .single (.hit hcall)
  | marker =>
    have hsame : s.marker.worldNext = s.worldNext := by
      unfold marker
      split <;> rfl
    exact hsame ▸ .refl
  | skip _ _ _ hw => exact .single (.quiet hw)
  | wait => exact .refl

/-- Only what is quiet happens to the world, and the id of the next event action stays. -/
structure Quiets (env : ReplayEnv W) (s s' : ReplayScheduler W) : Prop where
  world : Relation.ReflTransGen (Quiet env) s.world s'.world
  nextEventActionId : s'.nextEventActionId = s.nextEventActionId

theorem Quiets.refl (env : ReplayEnv W) (s : ReplayScheduler W) : Quiets env s s := ⟨.refl, rfl⟩

theorem Quiets.trans {env : ReplayEnv W} {s s' s'' : ReplayScheduler W} (h : Quiets env s s')
    (h' : Quiets env s' s'') : Quiets env s s'' :=
  ⟨h.world.trans h'.world, h'.nextEventActionId.trans h.nextEventActionId⟩

/-- What the scheduler does without a try are steps of the world. -/
theorem Quiets.worldSteps {env : ReplayEnv W} {s s' : ReplayScheduler W} (h : Quiets env s s') :
    Relation.ReflTransGen (WorldStep env) s.worldNext s'.worldNext := by
  obtain ⟨hworld, hnext⟩ := h
  rw [worldNext, worldNext, hnext]
  exact hworld.lift (fun w => (w, s.nextEventActionId)) fun _ _ h => .quiet h

/-- A report is no try. -/
theorem quiets_report (env : ReplayEnv W) (description : String) (details : StdString)
    (s : ReplayScheduler W) : Quiets env s (s.report env description details) :=
  ⟨.single (.report _ _ _ _), rfl⟩

/-- Nor is any number of them. -/
theorem quiets_foldl_report {env : ReplayEnv W} (description : String) (names : List StdString)
    (s : ReplayScheduler W) :
    Quiets env s (names.foldl (fun s name => s.report env description name) s) := by
  induction names generalizing s with
  | nil => exact .refl env s
  | cons name names ih => exact (quiets_report env description name s).trans (ih _)

/-- Nor is a stop. -/
theorem quiets_stop (env : ReplayEnv W) (s : ReplayScheduler W) : Quiets env s s.stop := by
  unfold stop
  split
  · exact .refl env s
  · exact ⟨.refl, rfl⟩

/-- Nor is a change of the mode. -/
theorem quiets_stopState (env : ReplayEnv W) (state : ReplaySchedulerState)
    (s : ReplayScheduler W) : Quiets env s (s.stopState state) := by
  unfold stopState
  split
  · exact .refl env s
  · have hstate : Quiets env s { s with state := state } := ⟨.refl, rfl⟩
    exact hstate.trans (quiets_stop env _)

/-- Nor is the stop of the register. -/
theorem quiets_stopRegister (env : ReplayEnv W) (state : ReplaySchedulerState)
    (s : ReplayScheduler W) : Quiets env s (s.stopRegister env state) := by
  unfold stopRegister
  split
  · exact .refl env s
  · have hstate : Quiets env s { s with state := state } := ⟨.refl, rfl⟩
    dsimp only
    split
    · exact (hstate.trans (quiets_foldl_report _ _ _)).trans (quiets_stop env _)
    · exact hstate.trans (quiets_stop env _)

/-- Nor is the timeout of an event action. -/
theorem quiets_slEventActionTimeout {env : ReplayEnv W} {s s' : ReplayScheduler W}
    (h : s.slEventActionTimeout env = some s') : Quiets env s s' := by
  have hinactive : Quiets env s { s with timeoutTimerActive := false } := ⟨.refl, rfl⟩
  unfold slEventActionTimeout at h
  dsimp only at h
  split at h
  · obtain rfl := Option.some.inj h
    exact hinactive
  · split at h
    · simp at h
    · obtain rfl := Option.some.inj h
      exact (hinactive.trans (quiets_report env _ _ _)).trans (quiets_stopState env _ _)
    · obtain rfl := Option.some.inj h
      exact ⟨.refl, rfl⟩
    · obtain rfl := Option.some.inj h
      exact hinactive

/-- Nor is that of the replay. -/
theorem quiets_timeout (env : ReplayEnv W) (s : ReplayScheduler W) : Quiets env s (s.timeout env) :=
  (quiets_report env _ _ s).trans (quiets_stopState env _ _)

/-- What a step of a replay does to the world. -/
theorem worldSteps_of_replayStep {env : ReplayEnv W} {s s' : ReplayScheduler W} {l : ReplayLabel}
    (hnull : ∀ x ∈ s.scheduleBacklog, x.descriptor.isNull = false) (hl : l ≠ .environment)
    (h : ReplayStep env s l s') :
    Relation.ReflTransGen (WorldStep env) s.worldNext s'.worldNext := by
  cases h with
  | environment w => exact absurd rfl hl
  | execute h =>
    rcases executeDelayedEventAction_split hnull h with ⟨-, rfl⟩ | ⟨-, s₁, hattempts, hend⟩
    · exact (quiets_stopRegister env .finished s).worldSteps
    · exact (worldSteps_of_attempts hattempts).trans (worldSteps_of_ending hend)
  | eventTimeout h => exact (quiets_slEventActionTimeout h).worldSteps
  | globalTimeout => exact (quiets_timeout env s).worldSteps

end R4.ReplayScheduler
