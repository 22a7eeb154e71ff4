import Mathlib.Data.List.Nodup
import R4.Native.Timer

/-!
# The timer heap

What every heap operation does to the heap and to the timers: the heap stays without
repetitions, every timer knows its position in it, and a timer is in the heap exactly while
its fire time is not 0 (`checkConsistency`). `setNextFireTime_eq` is what the timer
functions are proved from.

## Key results

- `heapDelete_eq`: exactly the timer goes
- `setNextFireTime_eq`: the fire time is set, and nothing else of any timer changes
-/

namespace R4

variable {ι T : Type} [DecidableEq ι]

/-- A timer without its position in the heap. -/
def TimerBase.withoutIndex (b : TimerBase T) : TimerBase T := { b with heapIndex := none }

/-- The fire time is not part of the index. -/
theorem TimerBase.nextFireTime_eq {b b' : TimerBase T} (h : b.withoutIndex = b'.withoutIndex) :
    b.nextFireTime = b'.nextFireTime := by
  simp only [TimerBase.withoutIndex, TimerBase.mk.injEq] at h
  exact h.1

namespace ThreadTimers

/-- The heap has no repetitions, and every timer knows its position in it. -/
structure Indexed (s : ThreadTimers ι T) : Prop where
  nodup : s.timerHeap.toList.Nodup
  index : ∀ u, (s.timers u).heapIndex = heapPosition s.timerHeap u

/-- Besides, a timer is in the heap exactly while its fire time is not 0. -/
structure HeapOk [Zero T] (s : ThreadTimers ι T) : Prop extends Indexed s where
  active : ∀ u, u ∈ s.timerHeap.toList ↔ (s.timers u).nextFireTime ≠ 0

/-- A step that only moves timers in the heap, or into it, or out of it. -/
structure HeapMove (s s' : ThreadTimers ι T) : Prop where
  indexed : Indexed s'
  timers : ∀ u, (s'.timers u).withoutIndex = (s.timers u).withoutIndex
  register : s'.eventActionRegister = s.eventActionRegister

/-- Two moves of the heap are one. -/
theorem HeapMove.trans {s s' s'' : ThreadTimers ι T} (h : HeapMove s s') (h' : HeapMove s' s'') :
    HeapMove s s'' where
  indexed := h'.indexed
  timers u := (h'.timers u).trans (h.timers u)
  register := h'.register.trans h.register

/-- A change that leaves the index of a timer leaves those of all. -/
theorem modify_index {s : ThreadTimers ι T} {t : ι} {f : TimerBase T → TimerBase T}
    (hf : ∀ b, (f b).heapIndex = b.heapIndex) (u : ι) :
    ((s.modify t f).timers u).heapIndex = (s.timers u).heapIndex := by
  by_cases hu : u = t
  · subst hu; rw [modify_self, hf]
  · rw [modify_of_ne f hu]

/-- A change that concerns neither the heap nor the fire time. -/
theorem HeapOk.modify [Zero T] {s : ThreadTimers ι T} (hs : HeapOk s) {t : ι}
    {f : TimerBase T → TimerBase T} (hindex : ∀ b, (f b).heapIndex = b.heapIndex)
    (htime : ∀ b, (f b).nextFireTime = b.nextFireTime) : HeapOk (s.modify t f) where
  nodup := hs.nodup
  index u := (modify_index hindex u).trans (hs.index u)
  active u := by
    refine (hs.active u).trans (Iff.of_eq ?_)
    by_cases hu : u = t
    · subst hu; rw [modify_self, htime]
    · rw [modify_of_ne f hu]

/-- The heap does not depend on the register. -/
theorem HeapOk.withRegister [Zero T] {s : ThreadTimers ι T} (hs : HeapOk s)
    (reg : EventActionRegister ι) : HeapOk { s with eventActionRegister := reg } :=
  ⟨⟨hs.nodup, hs.index⟩, hs.active⟩

/-! ## Positions -/

/-- The position of a timer is one where it is. -/
theorem heapPosition_eq_some {heap : Array ι} {t : ι} {i : Nat} (h : heapPosition heap t = some i) :
    heap[i]? = some t := by
  unfold heapPosition at h
  split at h
  · rename_i hmem
    obtain rfl := Option.some.inj h
    have hlt := List.idxOf_lt_length_iff.mpr hmem
    rw [← Array.getElem?_toList, List.getElem?_eq_getElem hlt, List.getElem_idxOf hlt]
  · exact nomatch h

/-- A timer in the heap has a position. -/
theorem heapPosition_of_mem {heap : Array ι} {t : ι} (h : t ∈ heap.toList) :
    ∃ i, heapPosition heap t = some i := ⟨_, if_pos h⟩

/-- A timer that is not in the heap has none. -/
theorem heapPosition_of_not_mem {heap : Array ι} {t : ι} (h : t ∉ heap.toList) :
    heapPosition heap t = none := if_neg h

/-- The position of a timer does not depend on what is behind it. -/
theorem heapPosition_push {heap : Array ι} {t u : ι} (h : u ∈ heap.toList) :
    heapPosition (heap.push t) u = heapPosition heap u := by
  have hmem : u ∈ (heap.push t).toList := by
    rw [Array.toList_push]; exact List.mem_append_left _ h
  rw [heapPosition, heapPosition, if_pos h, if_pos hmem, Array.toList_push,
    List.idxOf_append_of_mem h]

/-- After the heap has been set, every timer has its position in it as index. -/
theorem setHeap_index (s : ThreadTimers ι T) (heap : Array ι) (u : ι)
    (h : u ∉ heap.toList → (s.timers u).heapIndex = none) :
    ((s.setHeap heap).timers u).heapIndex = heapPosition heap u := by
  simp only [setHeap]
  split
  · rename_i i hi; exact hi.symm
  · rename_i hi
    rw [hi]
    refine h fun hmem => ?_
    obtain ⟨i, hsome⟩ := heapPosition_of_mem hmem
    rw [hsome] at hi
    exact nomatch hi

/-- Setting the heap changes nothing of a timer but its index. -/
theorem setHeap_withoutIndex (s : ThreadTimers ι T) (heap : Array ι) (u : ι) :
    ((s.setHeap heap).timers u).withoutIndex = (s.timers u).withoutIndex := by
  simp only [setHeap]
  split <;> rfl

/-- Writing a permutation of the heap. -/
theorem setHeap_move {s : ThreadTimers ι T} {heap : Array ι} (hs : Indexed s)
    (h : heap.toList.Perm s.timerHeap.toList) : HeapMove s (s.setHeap heap) where
  indexed :=
    { nodup := h.nodup_iff.mpr hs.nodup
      index := fun u => setHeap_index s heap u fun hu => by
        rw [hs.index u]
        exact heapPosition_of_not_mem fun hmem => hu (h.mem_iff.mpr hmem) }
  timers := setHeap_withoutIndex s heap
  register := rfl

/-! ## The heap operations -/

variable [LinearOrder T]

/-- `heapDecreaseKey` permutes the heap; a timer with the least key comes to the front. -/
theorem heapDecreaseKey_eq {s : ThreadTimers ι T} (hs : Indexed s) (key : ι → WithBot T) {t : ι}
    (ht : t ∈ s.timerHeap.toList) :
    ∃ s', s.heapDecreaseKey key t = some s' ∧ HeapMove s s' ∧
      s'.timerHeap.toList.Perm s.timerHeap.toList ∧
      ((∀ u, u ≠ t → key t < key u) → s'.timerHeap[0]? = some t) := by
  obtain ⟨i, hi⟩ := heapPosition_of_mem ht
  have hget := heapPosition_eq_some hi
  have hlt : i < s.timerHeap.size := (Array.getElem?_eq_some_iff.mp hget).1
  have hperm := StdHeap.pushHeap_perm (s.lessThan key) s.timerHeap i
  refine ⟨_, ?_, setHeap_move hs hperm, hperm, fun hmin => ?_⟩
  · rw [heapDecreaseKey, hs.index t, hi]
    exact if_pos hlt
  · refine StdHeap.pushHeap_front _ hget fun j u hj hu => ?_
    -- a timer above it is another one, as the heap has no repetitions
    have hne : u ≠ t := by
      rintro rfl
      have hlen : j < s.timerHeap.toList.length := by simpa using Nat.lt_trans hj hlt
      have heq : s.timerHeap.toList[j]? = s.timerHeap.toList[i]? := by
        rw [Array.getElem?_toList, Array.getElem?_toList, hu, hget]
      exact absurd ((List.getElem?_inj hlen hs.nodup).mp heq) (Nat.ne_of_lt hj)
    have hkey := hmin u hne
    simp only [lessThan, timerHeapLessThan, ne_eq, hkey.ne, not_false_eq_true, if_true]
    exact decide_eq_true hkey

/-- `heapPop` brings the timer to the end of the heap. -/
theorem heapPop_eq {s : ThreadTimers ι T} (hs : Indexed s) {t : ι} (ht : t ∈ s.timerHeap.toList) :
    ∃ s' rest, s.heapPop t = some s' ∧ HeapMove s s' ∧ s'.timerHeap = Array.push rest t ∧
      s.timerHeap.toList.Perm (t :: rest.toList) := by
  have hmin : ∀ u, u ≠ t →
      Function.update s.fireTimes t ⊥ t < Function.update s.fireTimes t ⊥ u := by
    intro u hu
    rw [Function.update_self, Function.update_of_ne hu]
    exact WithBot.bot_lt_coe _
  -- minus infinity brings it to the front, and popping to the end
  obtain ⟨s₁, hs₁, hmove₁, hperm₁, hfront⟩ := heapDecreaseKey_eq hs _ ht
  obtain ⟨rest, hpush, hrest⟩ := StdHeap.popHeap_eq_push
    (s₁.lessThan (Function.update s.fireTimes t ⊥)) (hfront hmin)
  have hmove₂ := setHeap_move hmove₁.indexed
    (StdHeap.popHeap_perm (s₁.lessThan (Function.update s.fireTimes t ⊥)) s₁.timerHeap)
  refine ⟨_, rest, ?_, hmove₁.trans hmove₂, hpush, hperm₁.symm.trans hrest⟩
  rw [heapPop, hs₁]
  rfl

/-- `heapDelete` takes exactly the timer out of the heap. -/
theorem heapDelete_eq {s : ThreadTimers ι T} (hs : Indexed s) {t : ι}
    (ht : t ∈ s.timerHeap.toList) :
    ∃ s', s.heapDelete t = some s' ∧ HeapMove s s' ∧
      s.timerHeap.toList.Perm (t :: s'.timerHeap.toList) := by
  obtain ⟨s₁, rest, hs₁, hmove, hheap, hperm⟩ := heapPop_eq hs ht
  have hnodup : (t :: rest.toList).Nodup := hperm.nodup_iff.mp hs.nodup
  rw [List.nodup_cons] at hnodup
  have hpop : s₁.timerHeap.pop = rest := by rw [hheap, Array.pop_push]
  refine ⟨_, by rw [heapDelete, hs₁]; rfl, ?_, by simpa only [modify, hpop] using hperm⟩
  refine
    { indexed :=
        { nodup := by simpa only [modify, hpop] using hnodup.2
          index := fun u => ?_ }
      timers := fun u => ?_
      register := hmove.register }
  · simp only [modify, hpop]
    by_cases hu : u = t
    · -- its index is reset, the others keep theirs
      subst hu
      rw [Function.update_self, heapPosition_of_not_mem hnodup.1]
    · rw [Function.update_of_ne hu, hmove.indexed.index u, hheap]
      by_cases hmem : u ∈ rest.toList
      · exact heapPosition_push hmem
      · rw [heapPosition_of_not_mem hmem]
        refine heapPosition_of_not_mem ?_
        rw [Array.toList_push, List.mem_append, not_or]
        exact ⟨hmem, fun h => hu (List.mem_singleton.mp h)⟩
  · rw [← hmove.timers u]
    simp only [modify]
    by_cases hu : u = t
    · subst hu; rw [Function.update_self]; rfl
    · rw [Function.update_of_ne hu]

/-- `heapIncreaseKey` permutes the heap. -/
theorem heapIncreaseKey_eq {s : ThreadTimers ι T} (hs : Indexed s) {t : ι}
    (ht : t ∈ s.timerHeap.toList) :
    ∃ s', s.heapIncreaseKey t = some s' ∧ HeapMove s s' ∧
      s'.timerHeap.toList.Perm s.timerHeap.toList := by
  obtain ⟨s₁, rest, hs₁, hmove₁, hheap, hperm₁⟩ := heapPop_eq hs ht
  have ht₁ : t ∈ s₁.timerHeap.toList := by rw [hheap, Array.toList_push]; simp
  -- it is pushed again from the end, with its new key
  obtain ⟨s₂, hs₂, hmove₂, hperm₂, -⟩ := heapDecreaseKey_eq hmove₁.indexed s₁.fireTimes ht₁
  refine ⟨s₂, ?_, hmove₁.trans hmove₂, hperm₂.trans ?_⟩
  · rw [heapIncreaseKey, hs₁]; exact hs₂
  · rw [hheap, Array.toList_push]
    exact List.perm_append_comm.trans hperm₁.symm

/-- `heapInsert` adds the timer. -/
theorem heapInsert_eq {s : ThreadTimers ι T} (hs : Indexed s) {t : ι}
    (ht : t ∉ s.timerHeap.toList) :
    ∃ s', s.heapInsert t = some s' ∧ HeapMove s s' ∧
      s'.timerHeap.toList.Perm (t :: s.timerHeap.toList) := by
  let s₁ : ThreadTimers ι T := { s with timerHeap := s.timerHeap.push t }.modify t fun b =>
    { b with heapIndex := some s.timerHeap.size }
  have hlist : (s.timerHeap.push t).toList.Perm (t :: s.timerHeap.toList) := by
    rw [Array.toList_push]; exact List.perm_append_comm
  have hmove₁ : HeapMove s s₁ := by
    refine
      { indexed :=
          { nodup := hlist.nodup_iff.mpr (List.nodup_cons.mpr ⟨ht, hs.nodup⟩)
            index := fun u => ?_ }
        timers := fun u => ?_
        register := rfl }
    · by_cases hu : u = t
      · subst hu
        have hmem : u ∈ (s.timerHeap.push u).toList := by rw [Array.toList_push]; simp
        -- it is behind all others, so its index is the old size
        simp only [s₁, modify, Function.update_self, heapPosition, if_pos hmem]
        rw [Array.toList_push, List.idxOf_append_of_notMem ht]
        simp
      · simp only [s₁, modify, Function.update_of_ne hu, hs.index u]
        by_cases hmem : u ∈ s.timerHeap.toList
        · exact (heapPosition_push hmem).symm
        · rw [heapPosition_of_not_mem hmem, heapPosition_of_not_mem]
          rw [Array.toList_push, List.mem_append, not_or]
          exact ⟨hmem, fun h => hu (List.mem_singleton.mp h)⟩
    · simp only [s₁, modify]
      by_cases hu : u = t
      · subst hu; rw [Function.update_self]; rfl
      · rw [Function.update_of_ne hu]
  have ht₁ : t ∈ s₁.timerHeap.toList := hlist.mem_iff.mpr List.mem_cons_self
  obtain ⟨s₂, hs₂, hmove₂, hperm₂, -⟩ := heapDecreaseKey_eq hmove₁.indexed s₁.fireTimes ht₁
  exact ⟨s₂, hs₂, hmove₁.trans hmove₂, hperm₂.trans hlist⟩

/-! ## Setting the fire time -/

variable [Zero T]

/-- What `setNextFireTime` does. -/
structure TimeSet (s s' : ThreadTimers ι T) (t : ι) (newTime : T) : Prop where
  heapOk : HeapOk s'
  others : ∀ u, u ≠ t → (s'.timers u).withoutIndex = (s.timers u).withoutIndex
  nextFireTime : (s'.timers t).nextFireTime = newTime
  repeatInterval : (s'.timers t).repeatInterval = (s.timers t).repeatInterval
  descriptor : (s'.timers t).eventActionDescriptor = (s.timers t).eventActionDescriptor
  flag : (s'.timers t).inEventActionRegister = (s.timers t).inEventActionRegister
  register : s'.eventActionRegister = s.eventActionRegister

/-- `reorder` brings the heap in line with the new fire time. -/
theorem reorder_eq {s : ThreadTimers ι T} (hs : Indexed s) {t : ι} {oldTime newTime : T}
    (hne : oldTime ≠ newTime) (hold : t ∈ s.timerHeap.toList ↔ oldTime ≠ 0) :
    ∃ s', s.reorder t oldTime newTime = some s' ∧ HeapMove s s' ∧
      (t ∈ s'.timerHeap.toList ↔ newTime ≠ 0) ∧
      ∀ u, u ≠ t → (u ∈ s'.timerHeap.toList ↔ u ∈ s.timerHeap.toList) := by
  unfold reorder
  split
  · rename_i hzero
    -- not running before
    have hnot : t ∉ s.timerHeap.toList := fun h => hold.mp h hzero
    obtain ⟨s', hs', hmove, hperm⟩ := heapInsert_eq hs hnot
    refine ⟨s', hs', hmove, ⟨fun _ h => hne (hzero.trans h.symm), fun _ => ?_⟩, fun u hu => ?_⟩
    · exact hperm.mem_iff.mpr List.mem_cons_self
    · rw [hperm.mem_iff, List.mem_cons]
      exact or_iff_right hu
  · rename_i hold'
    have hmem := hold.mpr hold'
    split
    · rename_i hzero
      -- not running any more
      obtain ⟨s', hs', hmove, hperm⟩ := heapDelete_eq hs hmem
      have hnodup := List.nodup_cons.mp (hperm.nodup_iff.mp hs.nodup)
      refine ⟨s', hs', hmove, ⟨fun h => absurd h hnodup.1, fun h => absurd hzero h⟩, fun u hu => ?_⟩
      rw [hperm.mem_iff, List.mem_cons]
      exact (or_iff_right hu).symm
    · rename_i hnew
      -- running before and after: the heap is permuted
      have hkeep : ∀ s' : ThreadTimers ι T, s'.timerHeap.toList.Perm s.timerHeap.toList →
          (t ∈ s'.timerHeap.toList ↔ newTime ≠ 0) ∧
            ∀ u, u ≠ t → (u ∈ s'.timerHeap.toList ↔ u ∈ s.timerHeap.toList) := by
        intro s' hperm
        exact ⟨⟨fun _ => hnew, fun _ => hperm.mem_iff.mpr hmem⟩, fun u _ => hperm.mem_iff⟩
      split
      · obtain ⟨s', hs', hmove, hperm, -⟩ := heapDecreaseKey_eq hs s.fireTimes hmem
        exact ⟨s', hs', hmove, hkeep s' hperm⟩
      · obtain ⟨s', hs', hmove, hperm⟩ := heapIncreaseKey_eq hs hmem
        exact ⟨s', hs', hmove, hkeep s' hperm⟩

/-- The fire time is set, and nothing else of any timer changes. -/
theorem setNextFireTime_eq {s : ThreadTimers ι T} (hs : HeapOk s) (t : ι) (newTime : T) :
    ∃ s', s.setNextFireTime t newTime = some s' ∧ TimeSet s s' t newTime := by
  unfold setNextFireTime
  by_cases hne : (s.timers t).nextFireTime ≠ newTime
  · let f : TimerBase T → TimerBase T := fun b =>
      { b with nextFireTime := newTime, heapInsertionOrder := s.currentHeapInsertionOrder }
    let s₁ : ThreadTimers ι T :=
      { s.modify t f with currentHeapInsertionOrder := s.currentHeapInsertionOrder + 1 }
    -- fire time and insertion order change first, which no index depends on
    have hidx : Indexed s₁ :=
      { nodup := hs.nodup
        index := fun u => (modify_index (f := f) (fun _ => rfl) u).trans (hs.index u) }
    obtain ⟨s', hs', hmove, ht, hothers⟩ := reorder_eq hidx hne (hs.active t)
    have htimer := hmove.timers t
    simp only [s₁, f, modify, Function.update_self, TimerBase.withoutIndex, TimerBase.mk.injEq]
      at htimer
    obtain ⟨htime, hrepeat, -, -, hdesc, hflag⟩ := htimer
    have hsame : ∀ u, u ≠ t → (s'.timers u).withoutIndex = (s.timers u).withoutIndex := by
      intro u hu
      rw [hmove.timers u]
      simp only [s₁, modify, Function.update_of_ne hu]
    refine ⟨s', by rw [if_pos hne]; exact hs', ?_⟩
    refine
      { heapOk := { hmove.indexed with active := fun u => ?_ }
        others := hsame
        nextFireTime := htime
        repeatInterval := hrepeat
        descriptor := hdesc
        flag := hflag
        register := hmove.register }
    by_cases hu : u = t
    · subst hu; rw [ht, htime]
    · rw [hothers u hu, TimerBase.nextFireTime_eq (hsame u hu)]
      exact hs.active u
  · refine ⟨s, by rw [if_neg hne], ?_⟩
    exact ⟨hs, fun _ _ => rfl, not_not.mp hne, rfl, rfl, rfl, rfl⟩

end ThreadTimers

end R4
