import Mathlib.Data.List.Perm.Basic

/-!
# `push_heap` and `pop_heap`

The heap algorithms of the C++ standard library on an array, for a comparison `lt` that may
be any function. The largest element stands at the front.

The results hold of any array, whether it is a heap or not: the elements are kept, an
element that everything above it is less than ends up at the front, and `popHeap` puts the
front element at the end.

## Key results

- `pushHeap_perm`, `popHeap_perm`: nothing is lost or duplicated
- `pushHeap_front`: an element with a maximal key rises to the front
- `popHeap_eq_push`: the front element is moved to the end
-/

namespace StdHeap

variable {α : Type} (lt : α → α → Bool)

/-- Move the element at `i` up while its parent is less. `fuel` bounds the way to the
    front, for which `i` is enough. -/
def siftUp : Nat → Array α → Nat → Array α
  | 0, a, _ => a
  | fuel + 1, a, i =>
    if i = 0 then a
    else
      match a[(i - 1) / 2]?, a[i]? with
      | some parent, some x =>
        if lt parent x then siftUp fuel (a.swapIfInBounds ((i - 1) / 2) i) ((i - 1) / 2) else a
      | _, _ => a

/-- `push_heap(first, first + i + 1)`. -/
def pushHeap (a : Array α) (i : Nat) : Array α := siftUp lt i a i

/-- Move the element at `i` of the first `n` down to a leaf, past the larger child at every
    level; its final position comes with it. -/
def siftToLeaf (n : Nat) : Nat → Array α → Nat → Array α × Nat
  | 0, a, i => (a, i)
  | fuel + 1, a, i =>
    if 2 * i + 2 < n then
      match a[2 * i + 1]?, a[2 * i + 2]? with
      | some left, some right =>
        let child := if lt right left then 2 * i + 1 else 2 * i + 2
        siftToLeaf n fuel (a.swapIfInBounds i child) child
      | _, _ => (a, i)
    -- the last inner node may have one child only
    else if 2 * i + 2 = n then (a.swapIfInBounds i (2 * i + 1), 2 * i + 1)
    else (a, i)

/-- `pop_heap(first, last)`: the front goes to the end, and the element from the end goes
    from the front down to a leaf and up again. -/
def popHeap (a : Array α) : Array α :=
  let n := a.size - 1
  let (b, i) := siftToLeaf lt n n (a.swapIfInBounds 0 n) 0
  siftUp lt i b i

/-! ## Nothing is lost -/

/-- Swapping is a permutation. -/
theorem swapIfInBounds_perm (a : Array α) (i j : Nat) :
    (a.swapIfInBounds i j).toList.Perm a.toList := by
  rw [Array.swapIfInBounds_def]
  split
  · split
    · exact (Array.swap_perm _ _).toList
    · exact List.Perm.refl _
  · exact List.Perm.refl _

/-- Sifting up is a permutation. -/
theorem siftUp_perm (fuel : Nat) (a : Array α) (i : Nat) :
    (siftUp lt fuel a i).toList.Perm a.toList := by
  induction fuel generalizing a i with
  | zero => exact List.Perm.refl _
  | succ fuel ih =>
    unfold siftUp
    split
    · exact List.Perm.refl _
    · split
      · split
        · exact (ih _ _).trans (swapIfInBounds_perm a _ _)
        · exact List.Perm.refl _
      · exact List.Perm.refl _

/-- Sifting to a leaf is a permutation. -/
theorem siftToLeaf_perm (n fuel : Nat) (a : Array α) (i : Nat) :
    (siftToLeaf lt n fuel a i).1.toList.Perm a.toList := by
  induction fuel generalizing a i with
  | zero => exact List.Perm.refl _
  | succ fuel ih =>
    unfold siftToLeaf
    split
    · split
      · exact (ih _ _).trans (swapIfInBounds_perm a _ _)
      · exact List.Perm.refl _
    · split
      · exact swapIfInBounds_perm a _ _
      · exact List.Perm.refl _

/-- Pushing is a permutation. -/
theorem pushHeap_perm (a : Array α) (i : Nat) : (pushHeap lt a i).toList.Perm a.toList :=
  siftUp_perm lt i a i

/-- Popping is a permutation. -/
theorem popHeap_perm (a : Array α) : (popHeap lt a).toList.Perm a.toList :=
  ((siftUp_perm lt _ _ _).trans (siftToLeaf_perm lt _ _ _ _)).trans (swapIfInBounds_perm a _ _)

/-! ## The front -/

/-- The first of two places that are swapped. -/
theorem getElem?_swapIfInBounds_left {a : Array α} {i j : Nat} (hi : i < a.size) (hj : j < a.size) :
    (a.swapIfInBounds i j)[i]? = a[j]? := by
  grind

/-- Other places than those that are swapped. -/
theorem getElem?_swapIfInBounds_of_ne {a : Array α} {i j k : Nat} (hi : k ≠ i) (hj : k ≠ j) :
    (a.swapIfInBounds i j)[k]? = a[k]? := by
  grind

/-- An element that everything before it is less than rises to the front. -/
theorem siftUp_front {fuel i : Nat} {a : Array α} {x : α} (hfuel : i ≤ fuel) (hx : a[i]? = some x)
    (h : ∀ j y, j < i → a[j]? = some y → lt y x = true) :
    (siftUp lt fuel a i)[0]? = some x := by
  induction fuel generalizing a i with
  | zero =>
    obtain rfl : i = 0 := by omega
    exact hx
  | succ fuel ih =>
    unfold siftUp
    split
    · rename_i hi
      rw [← hi]; exact hx
    · rename_i hi
      have hsize : i < a.size := (Array.getElem?_eq_some_iff.mp hx).1
      -- the parent is less, so the element moves up; the induction is on the way to the front
      have hparent : (i - 1) / 2 < i := by omega
      have hp : a[(i - 1) / 2]? = some a[(i - 1) / 2] := Array.getElem?_eq_getElem (by omega)
      rw [hp, hx]
      dsimp only
      rw [if_pos (h _ _ hparent hp)]
      refine ih (by omega) ?_ ?_
      · -- it is at the position of the parent now
        rw [getElem?_swapIfInBounds_left (by omega) hsize]; exact hx
      · intro j y hj hy
        rw [getElem?_swapIfInBounds_of_ne (by omega) (by omega)] at hy
        exact h j y (by omega) hy

/-- An element that is less than all before it goes to the front. -/
theorem pushHeap_front {i : Nat} {a : Array α} {x : α} (hx : a[i]? = some x)
    (h : ∀ j y, j < i → a[j]? = some y → lt y x = true) : (pushHeap lt a i)[0]? = some x :=
  siftUp_front lt (Nat.le_refl i) hx h

/-! ## The end -/

/-- Sifting up from a place leaves those behind it alone. -/
theorem siftUp_above (fuel : Nat) (a : Array α) {i k : Nat} (hk : i < k) :
    (siftUp lt fuel a i)[k]? = a[k]? := by
  induction fuel generalizing a i with
  | zero => rfl
  | succ fuel ih =>
    unfold siftUp
    split
    · rfl
    · split
      · split
        · rw [ih _ (by omega), getElem?_swapIfInBounds_of_ne (by omega) (by omega)]
        · rfl
      · rfl

/-- Nothing from position `n` on is touched, and the final position is below it. -/
theorem siftToLeaf_above {n i : Nat} (fuel : Nat) (a : Array α) (hi : i < n) :
    (siftToLeaf lt n fuel a i).2 < n ∧
      ∀ k, n ≤ k → (siftToLeaf lt n fuel a i).1[k]? = a[k]? := by
  induction fuel generalizing a i with
  | zero => exact ⟨hi, fun _ _ => rfl⟩
  | succ fuel ih =>
    unfold siftToLeaf
    split
    · split
      · -- the larger child goes up, and the hole goes down
        rename_i hn _ _ left right hl hr
        have hchild : (if lt right left then 2 * i + 1 else 2 * i + 2) < n := by split <;> omega
        obtain ⟨hpos, habove⟩ := ih (a.swapIfInBounds i _) hchild
        refine ⟨hpos, fun k hk => ?_⟩
        rw [habove k hk, getElem?_swapIfInBounds_of_ne (by omega) (by omega)]
      · exact ⟨hi, fun _ _ => rfl⟩
    · split
      · -- there is one child only
        refine ⟨by dsimp only; omega, fun k hk => ?_⟩
        exact getElem?_swapIfInBounds_of_ne (by omega) (by omega)
      · exact ⟨hi, fun _ _ => rfl⟩

/-- The front element is moved to the end. -/
theorem popHeap_back {a : Array α} {x : α} (hx : a[0]? = some x) :
    (popHeap lt a)[a.size - 1]? = some x := by
  have hsize : 0 < a.size := (Array.getElem?_eq_some_iff.mp hx).1
  -- the first swap puts it at the end, which no later step reaches
  have hswap : (a.swapIfInBounds 0 (a.size - 1))[a.size - 1]? = some x := by grind
  unfold popHeap
  by_cases hone : a.size - 1 = 0
  · -- an array of one element
    simpa [hone, siftToLeaf, siftUp] using hswap
  · obtain ⟨hpos, habove⟩ := siftToLeaf_above lt (a.size - 1)
      (a.swapIfInBounds 0 (a.size - 1)) (Nat.pos_of_ne_zero hone)
    dsimp only
    rw [siftUp_above lt _ _ hpos, habove _ (Nat.le_refl _), hswap]

/-- The array ends with the former front, and `removeLast` leaves the other elements. -/
theorem popHeap_eq_push {a : Array α} {x : α} (hx : a[0]? = some x) :
    ∃ rest : Array α, popHeap lt a = rest.push x ∧ a.toList.Perm (x :: rest.toList) := by
  have hback := popHeap_back lt hx
  have hperm := popHeap_perm lt a
  have hlen : (popHeap lt a).size = a.size := by simpa using hperm.length_eq
  have hpos : 0 < (popHeap lt a).size := hlen ▸ (Array.getElem?_eq_some_iff.mp hx).1
  have hlast : (popHeap lt a).back? = some x := by
    rw [Array.back?_eq_getElem?, hlen]; exact hback
  -- an array is its last element behind the others
  have hpush : popHeap lt a = (popHeap lt a).pop.push x := by
    obtain ⟨rest, y, hy⟩ := Array.eq_push_of_size_ne_zero (Nat.ne_of_gt hpos)
    rw [hy] at hlast ⊢
    simp only [Array.back?_push, Option.some.injEq] at hlast
    rw [hlast, Array.pop_push]
  refine ⟨(popHeap lt a).pop, hpush, ?_⟩
  rw [hpush, Array.toList_push] at hperm
  exact hperm.symm.trans List.perm_append_comm

end StdHeap
