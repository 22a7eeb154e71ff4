import Mathlib.Algebra.Ring.Nat
import Mathlib.Data.List.Basic

/-!
# Counting by several conditions

The elements of a list are counted under each of several conditions. How these counts are related
to each other follows from how many of the conditions hold of one element.

## Key results

- `sum_map_countP_eq_length`: one of the conditions holds of every element
- `sum_map_countP_le_length`: one of them holds at most
- `countP_le_sum_map_countP`: one of them is needed for another condition
-/

namespace List

variable {α : Type}

/-- Counting by conditions and by elements. -/
theorem sum_map_countP_comm (ps : List (α → Bool)) (l : List α) :
    (ps.map fun p => l.countP p).sum = (l.map fun x => ps.countP fun p => p x).sum := by
  induction l with
  | nil => simp
  | cons x l ih =>
    rw [map_cons, sum_cons, ← ih]
    clear ih
    induction ps with
    | nil => rfl
    | cons p ps ih =>
      rw [map_cons, sum_cons, map_cons, sum_cons, ih, countP_cons, countP_cons]
      omega

/-- Conditions of which one holds of every element. -/
theorem sum_map_countP_eq_length {ps : List (α → Bool)} {l : List α}
    (h : ∀ x ∈ l, ps.countP (fun p => p x) = 1) :
    (ps.map fun p => l.countP p).sum = l.length := by
  rw [sum_map_countP_comm]
  induction l with
  | nil => rfl
  | cons x l ih =>
    obtain ⟨hx, hl⟩ := forall_mem_cons.mp h
    rw [map_cons, sum_cons, hx, ih hl, length_cons, Nat.add_comm]

/-- Of conditions that exclude each other one holds at most. -/
theorem countP_le_one {p : α → Bool} {l : List α}
    (h : l.Pairwise fun a b => p a = true → p b = false) : l.countP p ≤ 1 := by
  induction h with
  | nil => exact Nat.zero_le _
  | @cons a l hfirst _ ih =>
    rw [countP_cons]
    split
    · rename_i ha
      have hnone : l.countP p = 0 :=
        countP_eq_zero.mpr fun b hb => Bool.eq_false_iff.mp (hfirst b hb ha)
      exact Nat.le_of_eq (congrArg (· + 1) hnone)
    · exact ih

/-- Conditions that exclude each other. -/
theorem sum_map_countP_le_length {ps : List (α → Bool)} {l : List α}
    (h : ∀ x ∈ l, ps.countP (fun p => p x) ≤ 1) :
    (ps.map fun p => l.countP p).sum ≤ l.length := by
  rw [sum_map_countP_comm]
  induction l with
  | nil => exact Nat.le_refl _
  | cons x l ih =>
    obtain ⟨hx, hl⟩ := forall_mem_cons.mp h
    rw [map_cons, sum_cons, length_cons]
    have := ih hl
    omega

/-- A condition that needs one of the others. -/
theorem countP_le_sum_map_countP {q : α → Bool} {ps : List (α → Bool)} {l : List α}
    (h : ∀ x ∈ l, q x = true → ∃ p ∈ ps, p x = true) :
    l.countP q ≤ (ps.map fun p => l.countP p).sum := by
  rw [sum_map_countP_comm]
  induction l with
  | nil => exact Nat.le_refl _
  | cons x l ih =>
    obtain ⟨hx, hl⟩ := forall_mem_cons.mp h
    rw [countP_cons, map_cons, sum_cons]
    have hrest := ih hl
    split
    · rename_i hq
      have hpos : 0 < ps.countP fun p => p x := countP_pos_iff.mpr (hx hq)
      omega
    · omega

end List
