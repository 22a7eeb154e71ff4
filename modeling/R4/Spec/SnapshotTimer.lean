import Mathlib.Algebra.Group.Defs
import Mathlib.Logic.Nontrivial.Defs
import R4.Spec.TimerPending

/-!
# The snapshot update timer

`m_nextSnapshotUpdateTimer` of a network reply is a one-shot timer that is given a
descriptor and started again and again, and only while none of its firings is pending. It is
looked at on its own here: the timers are those of `Unit`.

## Key results

- `Armed`: what is known of the timer while a descriptor is pending, and while none is
- `Armed.start`, `Armed.expire`, `Armed.beginDispatch`, `Armed.endDispatch`: how its steps
  change that
- `Armed.fire`: a pending descriptor can be dispatched
-/

namespace R4.TimerRun

open ThreadTimers

variable {T : Type} [LinearOrder T] [AddZeroClass T]

/-- The timer is given a descriptor and started, as `scheduleNextSnapshotUpdate` does. -/
def startOneShot (r : TimerRun Unit T) (d : EventActionDescriptor) (now : T) :
    Option (TimerRun Unit T) := do
  let r ← r.exec (.setEventActionDescriptor () d)
  r.exec (.start () now 0 0)

/-- Every firing of the timer that is pending is that of the given descriptor, and the timer
    has only been started while none was pending. -/
structure Armed (r : TimerRun Unit T) (pending : Option EventActionDescriptor) : Prop where
  reach : (runs.restrict StartsIdle).Reachable r
  once : (r.timers.timers ()).repeatInterval = 0
  waiting : ∀ p ∈ r.waiting.elems, ∃ d, pending = some d ∧ p.1 = d.toString
  heap : (r.timers.timers ()).nextFireTime ≠ 0 →
    pending = some (r.timers.timers ()).eventActionDescriptor ∧
      (r.timers.timers ()).eventActionDescriptor.isNull = false
  handler : ∀ d, r.running = some d →
    r.timers.eventActionRegister.descriptorToHandler.queue d.toString ≠ []

namespace Armed

variable {r r' : TimerRun Unit T} {pending : Option EventActionDescriptor}

/-- The heap of an armed timer is in order. -/
theorem heapOk (h : Armed r pending) : HeapOk r.timers := heapOk_of_reachable h.reach.of_restrict

/-- An armed timer has one firing at most. -/
theorem pendingFirings_le (h : Armed r pending) : r.pendingFirings () ≤ 1 :=
  atMostOne_of_reachable h.reach ()

/-- At the start the timer is idle. -/
theorem init : Armed (⟨ThreadTimers.init, none⟩ : TimerRun Unit T) none where
  reach := .init rfl
  once := rfl
  waiting _ hp := nomatch hp
  heap h := absurd rfl h
  handler _ h := nomatch h

/-- While nothing is pending no handler waits. -/
theorem elems_eq_nil (h : Armed r none) : r.waiting.elems = [] := by
  rw [List.eq_nil_iff_forall_not_mem]
  intro p hp
  obtain ⟨d, hd, -⟩ := h.waiting p hp
  exact nomatch hd

/-- The timer is started while nothing is pending. -/
theorem start (h : Armed r none) {d : EventActionDescriptor} (hnull : d.isNull = false) {now : T}
    (hstart : startOneShot r d now = some r') :
    Armed r' (some d) ∧ r'.running = r.running ∧
      (r'.timers.timers ()).nextFireTime = now := by
  simp only [startOneShot, Option.bind_eq_bind, Option.bind_eq_some_iff] at hstart
  obtain ⟨r₁, h₁, h₂⟩ := hstart
  have hreach₁ := h.reach.restrict_step h₁ trivial
  obtain rfl := Option.some.inj h₁
  -- giving the timer a descriptor changes nothing that waits
  have hidle : ¬ Queued { r with timers := r.timers.setEventActionDescriptor () d } () := by
    intro hqueued
    obtain ⟨p, hp, -⟩ := List.mem_map.mp hqueued
    exact absurd (h.elems_eq_nil ▸ hp : p ∈ []) List.not_mem_nil
  have hreach₂ := hreach₁.restrict_step h₂ (.inr hidle)
  obtain ⟨s', hs', -, -, htime, -, honce, hdesc, hreg⟩ := sets_of_modify
    (heapOk_of_reachable hreach₁.of_restrict) () (now + 0)
    (fun b => { b with repeatInterval := 0 }) (fun _ => rfl) fun _ => rfl
  obtain ⟨s'', hs'', rfl⟩ := Option.map_eq_some_iff.mp h₂
  obtain rfl := Option.some.inj (hs'.symm.trans hs'')
  have hd : (s'.timers ()).eventActionDescriptor = d := by
    rw [hdesc]
    dsimp only
    rw [setEventActionDescriptor, modify_self]
  refine ⟨⟨hreach₂, honce, fun p hp => ?_, fun _ => ?_, fun e he => ?_⟩, rfl, ?_⟩
  · have hsame : TimerRun.waiting ⟨s', r.running⟩ = r.waiting := by
      unfold TimerRun.waiting
      rw [hreg]
      rfl
    rw [hsame, h.elems_eq_nil] at hp
    exact nomatch hp
  · dsimp only
    rw [hd]
    exact ⟨rfl, hnull⟩
  · dsimp only
    rw [hreg]
    exact h.handler e he
  · exact htime.trans (add_zero now)

/-- An idle timer can be started. -/
theorem startOneShot_isSome (h : Armed r none) (d : EventActionDescriptor) (now : T) :
    ∃ r', startOneShot r d now = some r' := by
  have hok := h.heapOk.modify (t := ()) (f := fun b => { b with eventActionDescriptor := d })
    (fun _ => rfl) fun _ => rfl
  obtain ⟨s', hs', -⟩ := start_sets hok () now 0 0
  exact ⟨⟨s', r.running⟩, Option.map_eq_some_iff.mpr ⟨s', hs', rfl⟩⟩

/-- The timer expires: its firing moves from the heap to the register. -/
theorem expire (h : Armed r pending) {fireTime now : T}
    (hexpire : r.exec (.expire fireTime now) = some r') :
    Armed r' pending ∧ ∀ d, pending = some d → (r.timers.timers ()).nextFireTime ≠ 0 →
      r'.timers.eventActionRegister.descriptorToHandler.queue d.toString ≠ [] := by
  have hreach := h.reach.restrict_step hexpire trivial
  cases exec_step hexpire with
  | @expire _ _ s hidle hrun =>
    -- the timer is in the heap, and so it is pending
    obtain ⟨⟨⟩, hmem, -, -, hreg⟩ := expire_eq h.heapOk hrun
    obtain ⟨hpending, hnull⟩ := h.heap ((h.heapOk.active ()).mp hmem)
    -- it has a descriptor
    rcases hreg with ⟨hnull', -⟩ | ⟨htime, honce, hreg, -⟩
    · rw [hnull] at hnull'
      simp at hnull'
    · refine ⟨⟨hreach, honce.trans h.once, fun p hp => ?_, fun hne => absurd htime hne, ?_⟩, ?_⟩
      · -- it waits for the register now
        have hpush : (TimerRun.waiting { r with timers := s }).elems.Perm
            (((r.timers.timers ()).eventActionDescriptor.toString, ()) :: r.waiting.elems) := by
          unfold TimerRun.waiting
          dsimp only
          rw [hidle, hreg]
          exact QueueMap.elems_push _ _ _
        rcases List.mem_cons.mp (hpush.mem_iff.mp hp) with rfl | hp
        · exact ⟨_, hpending, rfl⟩
        · exact h.waiting p hp
      · -- no handler is running
        intro d hd
        dsimp only at hd
        rw [hidle] at hd
        simp at hd
      · -- it is in the queue of its descriptor
        intro d hd _
        rw [hpending] at hd
        obtain rfl := Option.some.inj hd
        rw [hreg]
        simp only [EventActionRegister.registerEventActionHandler, QueueMap.queue_push, if_true]
        simp

/-- A dispatch of the timer is one of the pending descriptor, and nothing is pending after it
    has started. -/
theorem beginDispatch (h : Armed r pending) {d : EventActionDescriptor}
    {id originalId : EventActionId} {now : T}
    (hbegin : r.exec (.beginDispatch d id originalId now) = some r') :
    Armed r' none ∧ ∃ e, pending = some e ∧ d.toString = e.toString := by
  have hreach := h.reach.restrict_step hbegin trivial
  cases exec_step hbegin with
  | @beginDispatch _ _ _ _ t rest s hidle hfront hrun =>
    -- no other firing is waiting
    obtain ⟨-, hzero, htime, -⟩ := begin_pending h.heapOk (atMostOne_of_reachable h.reach) hidle
      hfront hrun
    obtain ⟨s', hs', -, -, -, honce, hreg⟩ := fireTimerCallback_eq (h.heapOk.withRegister _) t now
    obtain rfl := Option.some.inj (hs'.symm.trans hrun)
    -- it was in the queue of its descriptor
    have hmem : (d.toString, t) ∈ r.waiting.elems := by
      unfold TimerRun.waiting
      rw [hidle]
      exact (QueueMap.mem_elems_iff _ _ _).mpr (by rw [hfront]; exact List.mem_cons_self)
    refine ⟨⟨hreach, honce.trans h.once, fun p hp => ?_, fun hne => absurd ?_ hne, ?_⟩,
      h.waiting _ hmem⟩
    · -- there is nothing in that queue any more
      exact absurd (List.mem_map_of_mem (f := Prod.snd) hp) (List.count_eq_zero.mp hzero)
    · -- it is not repeated
      dsimp only
      rw [htime, nextTime, h.once, if_neg (fun hne => hne rfl)]
    · -- the handler that runs is the one of the descriptor
      rintro e he
      obtain rfl := Option.some.inj he
      dsimp only
      rw [hreg]
      simp only [EventActionRegister.eventActionDispatchStart]
      rw [hfront]
      exact List.cons_ne_nil _ _

/-- The end of the dispatch leaves the timer armed. -/
theorem endDispatch (h : Armed r pending) {originalId : EventActionId}
    (hend : r.exec (.endDispatch originalId) = some r') :
    Armed r' pending ∧ r'.running = none ∧
      (r'.timers.timers ()).nextFireTime = (r.timers.timers ()).nextFireTime := by
  have hreach := h.reach.restrict_step hend trivial
  cases exec_step hend with
  | @endDispatch d _ reg hrunning hpop =>
    obtain ⟨-, hmap, -⟩ := EventActionRegister.popHandler_eq_some hpop
    have hwait : TimerRun.waiting ⟨{ r.timers with
        eventActionRegister := reg.eventActionDispatchEnd true originalId }, none⟩ = r.waiting := by
      unfold TimerRun.waiting
      rw [hrunning]
      exact hmap
    exact ⟨⟨hreach, h.once, hwait ▸ h.waiting, h.heap, fun _ h => nomatch h⟩, rfl, rfl⟩

/-- A dispatch that has started can end. -/
theorem endDispatch_isSome (h : Armed r pending) {d : EventActionDescriptor}
    (hrunning : r.running = some d) : ∃ r', r.exec (.endDispatch 0) = some r' := by
  have hlookup := QueueMap.lookup_of_queue_ne_nil (h.handler d hrunning)
  have hpop : ∃ reg, r.timers.eventActionRegister.popHandler d.toString = some reg := by
    unfold EventActionRegister.popHandler
    rw [hlookup]
    cases hq : r.timers.eventActionRegister.descriptorToHandler.queue d.toString with
    | nil => exact absurd hq (h.handler d hrunning)
    | cons t rest => cases rest <;> exact ⟨_, rfl⟩
  obtain ⟨reg, hreg⟩ := hpop
  simp only [exec, hrunning, hreg, Option.map_some]
  exact ⟨_, rfl⟩

/-- A pending descriptor can be dispatched: the timer expires, and its handler is run. -/
theorem fire {d : EventActionDescriptor} (h : Armed r (some d)) (hidle : r.running = none)
    (hheap : (r.timers.timers ()).nextFireTime ≠ 0) :
    ∃ fireTime now r₁ r₂, r.exec (.expire fireTime now) = some r₁ ∧
      r₁.exec (.beginDispatch d 0 0 now) = some r₂ ∧ r₂.running = some d := by
  have hmem := (h.heapOk.active ()).mpr hheap
  -- the heap has one timer, which is its first
  have hfirst : r.timers.timerHeap[0]? = some () := by
    cases hhead : r.timers.timerHeap[0]? with
    | some t => rfl
    | none =>
      rw [← Array.getElem?_toList, ← List.head?_eq_getElem?, List.head?_eq_none_iff] at hhead
      rw [hhead] at hmem
      exact nomatch hmem
  obtain ⟨s', hs', -, -, -, -, hdesc, -⟩ := takeFirst_eq h.heapOk hmem
  -- it is due at its own fire time
  have hexpire : ∃ s, r.timers.expire (r.timers.timers ()).nextFireTime 0 = some s := by
    unfold ThreadTimers.expire
    rw [hfirst]
    simp only [Option.bind_eq_bind, Option.bind_some, le_refl, if_true, hs', hand, hdesc,
      (h.heap hheap).2]
    exact ⟨_, rfl⟩
  obtain ⟨s, hs⟩ := hexpire
  have h₁ : r.exec (.expire (r.timers.timers ()).nextFireTime 0) = some ⟨s, none⟩ := by
    simp only [exec, hidle, hs, Option.map_some]
  obtain ⟨harmed, hqueue⟩ := h.expire h₁
  cases hq : s.eventActionRegister.descriptorToHandler.queue d.toString with
  | nil => exact absurd hq (hqueue d rfl hheap)
  | cons t rest =>
    obtain ⟨s₂, hs₂, -⟩ := fireTimerCallback_eq (harmed.heapOk.withRegister
      (s.eventActionRegister.eventActionDispatchStart 0 0 d)) t 0
    refine ⟨_, 0, ⟨s, none⟩, ⟨s₂, some d⟩, h₁, ?_, rfl⟩
    simp only [exec, hq]
    rw [hs₂]
    rfl

end Armed

end R4.TimerRun
