import R4.Spec.TimerRun

/-!
# Pending firings

A timer that has expired waits in the register, outside the heap, and `start` looks at the
heap only: a timer that is started while it waits is put into the heap as well, and fires
twice. `StartsIdle` is the condition on a step that rules this out.

## Key results

- `pending_step`: a step that meets the condition keeps every timer at one pending firing
- `at_most_one_pending_firing`: what holds of every run whose steps all meet it
- `restarted_timer_pending_twice`: a run in which a timer has two
-/

namespace R4.TimerRun

variable {ι T : Type} [DecidableEq ι] [LinearOrder T] [Zero T] [Add T]

open ThreadTimers

/-- The number of waiting handlers that refer to the timer. -/
def waitingCount (r : TimerRun ι T) (t : ι) : Nat := (r.waiting.elems.map Prod.snd).count t

/-- The number of firings of the timer that are still to come, repetitions apart. -/
def pendingFirings (r : TimerRun ι T) (t : ι) : Nat :=
  r.waitingCount t + if t ∈ r.timers.timerHeap.toList then 1 else 0

/-- A step that gives a timer a fire time finds no waiting handler that refers to it. -/
def StartsIdle (r : TimerRun ι T) : Label ι T → Prop
  | .start t now next _ => now + next = 0 ∨ ¬ r.Queued t
  | .augmentFireInterval t delta => (r.timers.timers t).nextFireTime + delta = 0 ∨ ¬ r.Queued t
  | .augmentRepeatInterval t delta => (r.timers.timers t).nextFireTime + delta = 0 ∨ ¬ r.Queued t
  | _ => True

/-! ## Counting -/

omit [LinearOrder T] [Zero T] [Add T] in
/-- A timer that is not in the register does not wait. -/
theorem waitingCount_of_not_queued {r : TimerRun ι T} {t : ι} (h : ¬ r.Queued t) :
    r.waitingCount t = 0 := List.count_eq_zero.mpr h

omit [LinearOrder T] [Add T] in
/-- In a consistent heap the fire time tells whether a timer is in it. -/
theorem pendingFirings_eq {r : TimerRun ι T} (hok : HeapOk r.timers) (t : ι)
    [Decidable ((r.timers.timers t).nextFireTime ≠ 0)] :
    r.pendingFirings t =
      r.waitingCount t + if (r.timers.timers t).nextFireTime ≠ 0 then 1 else 0 := by
  unfold pendingFirings
  congr 1
  exact if_congr (hok.active t) rfl rfl

omit [Add T] in
/-- A timer that is not touched keeps its pending firings. -/
theorem pendingFirings_congr {r r' : TimerRun ι T} {u : ι} (hok : HeapOk r.timers)
    (hok' : HeapOk r'.timers) (hcount : r'.waitingCount u = r.waitingCount u)
    (htimer : (r'.timers.timers u).withoutIndex = (r.timers.timers u).withoutIndex) :
    r'.pendingFirings u = r.pendingFirings u := by
  rw [pendingFirings_eq hok, pendingFirings_eq hok', hcount, TimerBase.nextFireTime_eq htimer]

omit [LinearOrder T] [Zero T] [Add T] in
/-- How often a timer waits depends on the register and the dispatch. -/
theorem waitingCount_congr (r r' : TimerRun ι T)
    (hreg : r'.timers.eventActionRegister.descriptorToHandler =
      r.timers.eventActionRegister.descriptorToHandler)
    (hrun : r'.running = r.running) (u : ι) : r'.waitingCount u = r.waitingCount u := by
  unfold waitingCount waiting
  rw [hreg, hrun]

omit [LinearOrder T] [Zero T] [Add T] in
/-- Deregistering can only remove handlers. -/
theorem waitingCount_deregister (r r' : TimerRun ι T) {d : EventActionDescriptor}
    (hreg : r'.timers.eventActionRegister =
      r.timers.eventActionRegister.deregisterEventActionHandler d)
    (hrun : r'.running = r.running) (u : ι) : r'.waitingCount u ≤ r.waitingCount u := by
  have hfilter : r'.waiting.elems.Perm (r.waiting.elems.filter fun p => p.1 ≠ d.toString) := by
    unfold waiting
    rw [hreg, hrun]
    simp only [EventActionRegister.deregisterEventActionHandler]
    cases r.running with
    | none => exact List.Perm.of_eq (QueueMap.elems_erase _ _)
    | some e => exact QueueMap.elems_erase_pop _ _ _
  unfold waitingCount
  rw [(hfilter.map Prod.snd).count_eq]
  exact (List.filter_sublist.map Prod.snd).count_le u

/-! ## The steps -/

/-- Every timer has at most one pending firing. -/
def AtMostOne (r : TimerRun ι T) : Prop := ∀ t, r.pendingFirings t ≤ 1

omit [Add T] in
/-- A timer is given a fire time. -/
theorem atMostOne_sets {r : TimerRun ι T} {s : ThreadTimers ι T} {t : ι} {newTime : T}
    (hok : HeapOk r.timers) (inv : AtMostOne r) (hset : Sets r.timers s t newTime)
    (hidle : newTime = 0 ∨ ¬ r.Queued t) : AtMostOne { r with timers := s } := by
  have hcount : ∀ u, ({ r with timers := s } : TimerRun ι T).waitingCount u = r.waitingCount u :=
    waitingCount_congr r _ (by rw [hset.register]) rfl
  intro u
  by_cases hu : u = t
  · subst hu
    rw [pendingFirings_eq hset.heapOk, hcount, hset.nextFireTime]
    rcases hidle with hzero | hidle
    · -- it leaves the heap, and what waits in the register stays
      have := inv u
      rw [pendingFirings_eq hok] at this
      simp only [hzero, ne_eq, not_true_eq_false, if_false]
      omega
    · -- nothing waits in the register, so one firing may be pending in the heap
      rw [waitingCount_of_not_queued hidle]
      split <;> omega
  · rw [pendingFirings_congr hok hset.heapOk (hcount u) (hset.others u hu)]
    exact inv u

omit [Add T] in
/-- A timer is stopped. -/
theorem atMostOne_stop {r : TimerRun ι T} {s : ThreadTimers ι T} {t : ι} (hok : HeapOk r.timers)
    (inv : AtMostOne r) (h : r.timers.stop t = some s) : AtMostOne { r with timers := s } := by
  obtain ⟨s', hs', hok', hothers, htime, -, hreg⟩ := stop_eq hok t
  obtain rfl := Option.some.inj (hs'.symm.trans h)
  have hcount : ∀ u, ({ r with timers := s' } : TimerRun ι T).waitingCount u ≤
      r.waitingCount u := by
    intro u
    split at hreg
    · exact waitingCount_deregister r { r with timers := s' } hreg rfl u
    · -- without the flag the register is left alone
      exact Nat.le_of_eq (waitingCount_congr r { r with timers := s' } (by rw [hreg]) rfl u)
  intro u
  refine Nat.le_trans ?_ (inv u)
  rw [pendingFirings_eq hok', pendingFirings_eq hok]
  by_cases hu : u = t
  · subst hu
    simp only [htime, ne_eq, not_true_eq_false, if_false]
    exact Nat.le_trans (hcount u) (Nat.le_add_right _ _)
  · rw [TimerBase.nextFireTime_eq (hothers u hu)]
    exact Nat.add_le_add_right (hcount u) _

/-- The first timer of the heap expires. -/
theorem atMostOne_expire {r : TimerRun ι T} {s : ThreadTimers ι T} {fireTime now : T}
    (hok : HeapOk r.timers) (inv : AtMostOne r) (hidle : r.running = none)
    (h : r.timers.expire fireTime now = some s) : AtMostOne { r with timers := s } := by
  obtain ⟨t, hmem, hok', hothers, hreg⟩ := expire_eq hok h
  -- the timer was in the heap, so no handler that waits refers to it
  have hzero : r.waitingCount t = 0 := by
    have := inv t
    rw [pendingFirings, if_pos hmem] at this
    omega
  rcases hreg with ⟨-, hreg⟩ | ⟨htime, -, hreg, -⟩
  · have hcount := waitingCount_congr r { r with timers := s } (by rw [hreg]) rfl
    intro u
    by_cases hu : u = t
    · subst hu
      rw [pendingFirings, hcount, hzero]
      split <;> omega
    · rw [pendingFirings_congr hok hok' (hcount u) (hothers u hu)]
      exact inv u
  · have hpush : (({ r with timers := s } : TimerRun ι T).waiting.elems.map Prod.snd).Perm
        (t :: r.waiting.elems.map Prod.snd) := by
      unfold waiting
      dsimp only
      rw [hidle, hreg]
      exact (QueueMap.elems_push _ _ _).map Prod.snd
    intro u
    by_cases hu : u = t
    · subst hu
      -- the pending firing moves from the heap to the register
      have hone : ({ r with timers := s } : TimerRun ι T).waitingCount u = 1 := by
        rw [waitingCount, hpush.count_eq, List.count_cons_self]
        unfold waitingCount at hzero
        omega
      rw [pendingFirings_eq hok', hone]
      simp only [htime, ne_eq, not_true_eq_false, if_false]
      omega
    · have hsame : ({ r with timers := s } : TimerRun ι T).waitingCount u = r.waitingCount u := by
        rw [waitingCount, hpush.count_eq, List.count_cons_of_ne (Ne.symm hu), waitingCount]
      rw [pendingFirings_congr hok hok' hsame (hothers u hu)]
      exact inv u

/-- A handler starts to run: it does not wait any more, and its timer may be in the heap
    again. -/
theorem begin_pending {r : TimerRun ι T} {s : ThreadTimers ι T} {d : EventActionDescriptor}
    {id originalId : EventActionId} {now : T} {t : ι} {rest : List ι} (hok : HeapOk r.timers)
    (inv : AtMostOne r) (hidle : r.running = none)
    (hfront : r.timers.eventActionRegister.descriptorToHandler.queue d.toString = t :: rest)
    (h : { r.timers with eventActionRegister :=
        r.timers.eventActionRegister.eventActionDispatchStart id originalId d }.fireTimerCallback
          t now = some s) :
    HeapOk s ∧ TimerRun.waitingCount ⟨s, some d⟩ t = 0 ∧
      (s.timers t).nextFireTime = nextTime (r.timers.timers t) now ∧
      ∀ u, u ≠ t → TimerRun.pendingFirings ⟨s, some d⟩ u = r.pendingFirings u := by
  obtain ⟨s', hs', hok', hothers, htime, -, hreg⟩ := fireTimerCallback_eq (hok.withRegister _) t now
  obtain rfl := Option.some.inj (hs'.symm.trans h)
  -- a handler that runs is not waiting any more, though it is still queued
  have hpop : (r.waiting.elems.map Prod.snd).Perm
      (t :: (TimerRun.waiting ⟨s', some d⟩).elems.map Prod.snd) := by
    unfold waiting
    dsimp only
    rw [hidle, hreg]
    exact (QueueMap.elems_pop _ hfront).map Prod.snd
  refine ⟨hok', ?_, htime, fun u hu => ?_⟩
  · have := inv t
    rw [pendingFirings, waitingCount, hpop.count_eq, List.count_cons_self] at this
    unfold waitingCount
    omega
  · refine pendingFirings_congr hok hok' ?_ (hothers u hu)
    rw [waitingCount, waitingCount, hpop.count_eq, List.count_cons_of_ne (Ne.symm hu)]

/-- A step that meets the condition keeps every timer at one pending firing. -/
theorem pending_step {r r' : TimerRun ι T} {l : Label ι T} (hok : HeapOk r.timers)
    (inv : AtMostOne r) (hc : StartsIdle r l) (h : r.exec l = some r') : AtMostOne r' := by
  cases exec_step h with
  | @start t now next again s hrun =>
    obtain ⟨s', hs', hset⟩ := start_sets hok t now next again
    obtain rfl := Option.some.inj (hs'.symm.trans hrun)
    exact atMostOne_sets hok inv hset hc
  | stop hrun => exact atMostOne_stop hok inv hrun
  | @augmentFireInterval t delta s hrun =>
    obtain ⟨s', hs', hset⟩ := augmentFireInterval_sets hok t delta
    obtain rfl := Option.some.inj (hs'.symm.trans hrun)
    exact atMostOne_sets hok inv hset hc
  | @augmentRepeatInterval t delta s hrun =>
    obtain ⟨s', hs', hset⟩ := augmentRepeatInterval_sets hok t delta
    obtain rfl := Option.some.inj (hs'.symm.trans hrun)
    exact atMostOne_sets hok inv hset hc
  | setEventActionDescriptor t d => exact inv
  | expire hidle hrun => exact atMostOne_expire hok inv hidle hrun
  | @beginDispatch d id originalId now t rest s hidle hfront hrun =>
    obtain ⟨-, hzero, -, hothers⟩ := begin_pending hok inv hidle hfront hrun
    intro u
    by_cases hu : u = t
    · subst hu
      rw [pendingFirings, hzero]
      split <;> omega
    · rw [hothers u hu]; exact inv u
  | @endDispatch d originalId reg hrunning hrun =>
    obtain ⟨-, hmap, -⟩ := EventActionRegister.popHandler_eq_some hrun
    -- the handler that has run is popped, which `waiting` anticipates
    have hwait : TimerRun.waiting ⟨{ r.timers with
        eventActionRegister := reg.eventActionDispatchEnd true originalId }, none⟩ = r.waiting := by
      unfold waiting
      rw [hrunning]
      exact hmap
    intro u
    have := inv u
    rw [pendingFirings, waitingCount] at this ⊢
    rw [hwait]
    exact this

/-! ## Runs -/

/-- In every run that starts idle timers only. -/
theorem atMostOne_of_reachable {r : TimerRun ι T} (h : (runs.restrict StartsIdle).Reachable r) :
    AtMostOne r := by
  refine Lts.Reachable.invariant (P := AtMostOne) ?_ ?_ h
  · rintro _ rfl t
    simp [pendingFirings, waitingCount, waiting, ThreadTimers.init, EventActionRegister.empty,
      QueueMap.elems]
  · intro _ _ _ hreach inv h
    exact pending_step (heapOk_of_reachable hreach.of_restrict) inv h.1 h.2

/-- In a run in which no timer is given a fire time while a handler that refers to it waits
    in the register, every timer has at most one pending firing; so once a one-shot timer
    fires, no other firing of it is pending. -/
theorem at_most_one_pending_firing {r : TimerRun ι T}
    (h : (runs.restrict StartsIdle).Reachable r) :
    (∀ t, r.pendingFirings t ≤ 1) ∧
      ∀ d id originalId now t rest r',
        r.timers.eventActionRegister.descriptorToHandler.queue d.toString = t :: rest →
        (r.timers.timers t).repeatInterval = 0 →
        r.exec (.beginDispatch d id originalId now) = some r' → r'.pendingFirings t = 0 := by
  have inv := atMostOne_of_reachable h
  refine ⟨inv, ?_⟩
  intro d id originalId now t rest r' hfront honce hexec
  cases exec_step hexec with
  | @beginDispatch _ _ _ _ t' rest' s hidle hfront' hrun =>
    rw [hfront] at hfront'
    obtain ⟨rfl, rfl⟩ := List.cons.inj hfront'
    obtain ⟨hok', hzero, htime, -⟩ := begin_pending (heapOk_of_reachable h.of_restrict) inv hidle
      hfront hrun
    rw [pendingFirings_eq hok', hzero, htime]
    simp [nextTime, honce]

/-- The descriptor of the timer in the runs below. -/
def oneShotDescriptor : EventActionDescriptor := .make .timer "DOMTimer".toList "t".toList

/-- A one-shot timer is started and expires: one firing of it is pending. -/
theorem at_most_one_pending_firing_of_expired :
    ∃ r : TimerRun Nat Int, (runs.restrict StartsIdle).Reachable r ∧ r.waitingCount 0 = 1 ∧
      r.pendingFirings 0 ≤ 1 := by
  let r₀ : TimerRun Nat Int := ⟨ThreadTimers.init, none⟩
  have hrun : ((r₀.exec (.setEventActionDescriptor 0 oneShotDescriptor)).bind fun r₁ =>
      (r₁.exec (.start 0 1 1 0)).bind fun r₂ => (r₂.exec (.expire 2 2)).map fun r₃ =>
        (r₁.waiting.elems.map Prod.snd, r₃.waitingCount 0)) = some ([], 1) := by decide +kernel
  obtain ⟨r₁, h₁, hrun⟩ := Option.bind_eq_some_iff.mp hrun
  obtain ⟨r₂, h₂, hrun⟩ := Option.bind_eq_some_iff.mp hrun
  obtain ⟨r₃, h₃, hobs⟩ := Option.map_eq_some_iff.mp hrun
  simp only [Prod.mk.injEq] at hobs
  have hidle : ¬ r₁.Queued 0 := by rw [Queued, hobs.1]; exact List.not_mem_nil
  have hinit : (runs.restrict StartsIdle).Reachable r₀ := .init rfl
  have hreach := ((hinit.restrict_step h₁ trivial).restrict_step h₂ (.inr hidle)).restrict_step h₃
    trivial
  exact ⟨r₃, hreach, hobs.2, (at_most_one_pending_firing hreach).1 0⟩

/-- A one-shot timer is started, expires and is started again before its handler is
    dispatched: it is in the heap and in the register, and will fire twice. -/
theorem restarted_timer_pending_twice :
    ∃ r : TimerRun Nat Int, runs.Reachable r ∧ (r.timers.timers 0).repeatInterval = 0 ∧
      r.pendingFirings 0 = 2 := by
  let r₀ : TimerRun Nat Int := ⟨ThreadTimers.init, none⟩
  let run : List (Label Nat Int) := [.setEventActionDescriptor 0 oneShotDescriptor,
    .start 0 1 1 0, .expire 2 2, .start 0 2 1 0]
  have hrun : ((run.foldlM exec r₀).map fun r =>
      ((r.timers.timers 0).repeatInterval, r.pendingFirings 0)) = some (0, 2) := by decide +kernel
  obtain ⟨r, hr, hobs⟩ := Option.map_eq_some_iff.mp hrun
  simp only [Prod.mk.injEq] at hobs
  exact ⟨r, Lts.Reachable.foldlM (fun _ _ _ h => h) (.init rfl) hr, hobs.1, hobs.2⟩

end R4.TimerRun
