import Mathlib.Order.Basic
import R4.Spec.TimerRun

/-!
# Stopping a timer

`stop` takes the timer off the heap, but it leaves `m_inEventActionRegister` set, so a timer
that waits in the register stays active; and it drops every handler under the string of the
timer's current descriptor, which may be those of other timers and need not be its own.

## Key results

- `stop_removes_exactly_iff`: when `stop` removes exactly the timer
- `stop_leaves_timer_active`: a run that ends in a stop of a waiting timer
-/

namespace R4.TimerRun

variable {ι T : Type} [DecidableEq ι] [LinearOrder T] [Zero T] [Add T]

open ThreadTimers

/-- The timer is gone, and nothing of any other timer has changed but the place of its entry
    in the array of the heap. -/
structure StopsExactly (r r' : TimerRun ι T) (t : ι) : Prop where
  inactive : (r'.timers.timers t).isActive = false
  notInHeap : t ∉ r'.timers.timerHeap.toList
  notQueued : ¬ r'.Queued t
  heap : ∀ u, u ≠ t → (u ∈ r'.timers.timerHeap.toList ↔ u ∈ r.timers.timerHeap.toList) ∧
    (r'.timers.timers u).withoutIndex = (r.timers.timers u).withoutIndex
  queued : ∀ key, (r'.waiting.queue key).filter (fun u => u ≠ t) =
    (r.waiting.queue key).filter fun u => u ≠ t

/-- `stop` removes exactly the timer if and only if the timer is not marked as waiting in
    the register and no handler there refers to it. -/
theorem stop_removes_exactly_iff {r : TimerRun ι T} (h : runs.Reachable r) (t : ι) :
    ∃ s, r.timers.stop t = some s ∧
      (StopsExactly r { r with timers := s } t ↔
        (r.timers.timers t).inEventActionRegister = false ∧ ¬ r.Queued t) := by
  have hok := heapOk_of_reachable h
  obtain ⟨s, hs, hok', hothers, htime, hflag, hreg⟩ := stop_eq hok t
  refine ⟨s, hs, ?_, ?_⟩
  · intro hstop
    -- the flag survives the stop, so it was not set before
    have hclear : (r.timers.timers t).inEventActionRegister = false := by
      have := hstop.inactive
      simp only [TimerBase.isActive, htime, hflag] at this
      simpa using this
    rw [hclear] at hreg
    have hwait : ({ r with timers := s } : TimerRun ι T).waiting = r.waiting :=
      waiting_congr hreg rfl
    refine ⟨hclear, ?_⟩
    have := hstop.notQueued
    rw [Queued, hwait] at this
    exact this
  · rintro ⟨hclear, hqueued⟩
    rw [hclear] at hreg hflag
    have hwait : ({ r with timers := s } : TimerRun ι T).waiting = r.waiting :=
      waiting_congr hreg rfl
    refine
      { inactive := ?_
        notInHeap := fun hmem => (hok'.active t).mp hmem htime
        notQueued := ?_
        heap := fun u hu => ⟨?_, hothers u hu⟩
        queued := fun key => by rw [hwait] }
    · simp [TimerBase.isActive, htime, hflag]
    · rw [Queued, hwait]; exact hqueued
    · rw [hok'.active u, hok.active u, TimerBase.nextFireTime_eq (hothers u hu)]

/-- A descriptor that two timers share. -/
def sharedDescriptor : EventActionDescriptor := .make .timer "DOMTimer".toList "t".toList

/-- A timer that only waits in the heap is stopped as it should be. -/
theorem stop_removes_exactly_of_started :
    ∃ r : TimerRun Nat Int, runs.Reachable r ∧ 0 ∈ r.timers.timerHeap.toList ∧
      ∃ s, r.timers.stop 0 = some s ∧ StopsExactly r { r with timers := s } 0 := by
  let r₀ : TimerRun Nat Int := ⟨ThreadTimers.init, none⟩
  obtain ⟨r, hr, hheap, hflag, hempty⟩ : ∃ r, [Label.start 0 1 1 0].foldlM exec r₀ = some r ∧
      r.timers.timerHeap.toList = [0] ∧ (r.timers.timers 0).inEventActionRegister = false ∧
      r.waiting.elems = [] := ⟨_, rfl, rfl, rfl, rfl⟩
  have hreach : runs.Reachable r := Lts.Reachable.foldlM (fun _ _ _ h => h) (.init rfl) hr
  obtain ⟨s, hs, hiff⟩ := stop_removes_exactly_iff hreach 0
  refine ⟨r, hreach, by rw [hheap]; decide, s, hs, hiff.mpr ⟨hflag, ?_⟩⟩
  rw [Queued, hempty]
  exact List.not_mem_nil

/-- Two timers with equal descriptors wait in the register. After the first is stopped it is
    still active, and the handler of the second is gone. -/
theorem stop_leaves_timer_active :
    ∃ r : TimerRun Nat Int, runs.Reachable r ∧ ∃ s, r.timers.stop 0 = some s ∧
      (s.timers 0).isActive = true ∧ r.Queued 1 ∧
      ¬ ({ r with timers := s } : TimerRun Nat Int).Queued 1 ∧
      ¬ StopsExactly r { r with timers := s } 0 := by
  -- two timers share a descriptor, and both are waiting
  let r₀ : TimerRun Nat Int := ⟨ThreadTimers.init, none⟩
  let run : List (Label Nat Int) :=
    [.setEventActionDescriptor 0 sharedDescriptor, .setEventActionDescriptor 1 sharedDescriptor,
      .start 0 1 1 0, .start 1 1 1 0, .expire 2 2, .expire 2 2]
  -- stopping the first one takes both out of the register, and leaves it active
  have hrun : ((run.foldlM exec r₀).bind fun r => (r.timers.stop 0).map fun s =>
      ((s.timers 0).isActive, r.waiting.elems.map Prod.snd,
        ({ r with timers := s } : TimerRun Nat Int).waiting.elems.map Prod.snd)) =
      some (true, [0, 1], []) := by decide +kernel
  obtain ⟨r, hr, hrun⟩ := Option.bind_eq_some_iff.mp hrun
  obtain ⟨s, hs, hobs⟩ := Option.map_eq_some_iff.mp hrun
  simp only [Prod.mk.injEq] at hobs
  obtain ⟨hactive, hbefore, hafter⟩ := hobs
  have hreach : runs.Reachable r := Lts.Reachable.foldlM (fun _ _ _ h => h) (.init rfl) hr
  refine ⟨r, hreach, s, hs, hactive, ?_, ?_, fun h => ?_⟩
  · rw [Queued, hbefore]; decide
  · rw [Queued, hafter]; exact List.not_mem_nil
  · have := h.inactive
    rw [hactive] at this
    exact nomatch this

end R4.TimerRun
