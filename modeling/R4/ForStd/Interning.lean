import Mathlib.Algebra.Ring.Nat
import Mathlib.Data.List.Basic

/-!
# Interning

Values that are kept in a list in the order in which they came, each once. A value is denoted
by the place that those before it take up, or by -1 when it is not there.

## Key results

- `indexOf_of_prefix`: an index denotes the same value forever
- `indexOf_inj`: values with one index are equal
-/

namespace Interning

variable {α : Type}

/-- The place that the first `i` values take up. -/
def offset (size : α → Nat) (xs : List α) (i : Nat) : Nat := ((xs.take i).map size).sum

/-- The offset of the end is the size of everything. -/
theorem offset_length (size : α → Nat) (xs : List α) :
    offset size xs xs.length = (xs.map size).sum := by
  rw [offset, List.take_length]

/-- The offset of an element does not depend on what comes behind it. -/
theorem offset_append {size : α → Nat} {xs : List α} {i : Nat} (h : i ≤ xs.length)
    (ys : List α) : offset size (xs ++ ys) i = offset size xs i := by
  rw [offset, List.take_append_of_le_length h, offset]

/-- The next offset is behind the element. -/
theorem offset_succ (size : α → Nat) {xs : List α} {i : Nat} {x : α} (h : xs[i]? = some x) :
    offset size xs (i + 1) = offset size xs i + size x := by
  simp [offset, List.take_add_one, h]

/-- Offsets do not go back. -/
theorem offset_mono (size : α → Nat) (xs : List α) {i j : Nat} (h : i ≤ j) :
    offset size xs i ≤ offset size xs j := by
  have hsplit : xs.take j = xs.take i ++ (xs.drop i).take (j - i) := by
    rw [← List.take_add, Nat.add_sub_cancel' h]
  rw [offset, offset, hsplit, List.map_append, List.sum_append]
  omega

/-- Values take up places of their own. -/
theorem offset_inj {size : α → Nat} (hsize : ∀ x, 0 < size x) {xs : List α} {i j : Nat}
    (hi : i < xs.length) (hj : j < xs.length) (h : offset size xs i = offset size xs j) :
    i = j := by
  have hstep : ∀ {k}, k < xs.length → offset size xs k < offset size xs (k + 1) := by
    intro k hk
    rw [offset_succ size (List.getElem?_eq_getElem hk)]
    exact Nat.lt_add_of_pos_right (hsize _)
  rcases Nat.lt_trichotomy i j with hlt | heq | hlt
  · have := offset_mono size xs (show i + 1 ≤ j by omega)
    have := hstep hi
    omega
  · exact heq
  · have := offset_mono size xs (show j + 1 ≤ i by omega)
    have := hstep hj
    omega

variable [DecidableEq α]

/-- `x` is added at the end unless it is there. -/
def intern (xs : List α) (x : α) : List α := if x ∈ xs then xs else xs ++ [x]

/-- Interning keeps what is there. -/
theorem prefix_intern (xs : List α) (x : α) : xs <+: intern xs x := by
  unfold intern
  split
  · exact List.prefix_rfl
  · exact List.prefix_append xs [x]

/-- Interning adds the element and nothing else. -/
@[simp] theorem mem_intern {xs : List α} {x y : α} : y ∈ intern xs x ↔ y ∈ xs ∨ y = x := by
  unfold intern
  split
  · rename_i hmem
    constructor
    · exact Or.inl
    · rintro (h | rfl)
      · exact h
      · exact hmem
  · simp

/-- Interning adds no element twice. -/
theorem nodup_intern {xs : List α} (h : xs.Nodup) (x : α) : (intern xs x).Nodup := by
  unfold intern
  split
  · exact h
  · rename_i hmem
    rw [List.nodup_append]
    refine ⟨h, by simp, ?_⟩
    rintro a ha b hb rfl
    exact hmem (List.mem_singleton.mp hb ▸ ha)

/-- Where the value is. -/
def indexOf (size : α → Nat) (xs : List α) (x : α) : Int :=
  if x ∈ xs then offset size xs (xs.idxOf x) else -1

/-- An element that is there has its offset as index. -/
theorem indexOf_of_mem (size : α → Nat) {xs : List α} {x : α} (h : x ∈ xs) :
    indexOf size xs x = offset size xs (xs.idxOf x) := if_pos h

/-- An element that is not there has no index. -/
theorem indexOf_of_not_mem (size : α → Nat) {xs : List α} {x : α} (h : x ∉ xs) :
    indexOf size xs x = -1 := if_neg h

/-- An index denotes the same value forever. -/
theorem indexOf_of_prefix {size : α → Nat} {xs ys : List α} {x : α} (h : xs <+: ys)
    (hx : x ∈ xs) : indexOf size ys x = indexOf size xs x := by
  obtain ⟨more, rfl⟩ := h
  rw [indexOf_of_mem size (List.mem_append_left more hx), indexOf_of_mem size hx,
    List.idxOf_append_of_mem hx, offset_append (Nat.le_of_lt (List.idxOf_lt_length_iff.mpr hx))]

/-- Values with one index are equal. -/
theorem indexOf_inj {size : α → Nat} (hsize : ∀ x, 0 < size x) {xs : List α} {x y : α}
    (hx : x ∈ xs) (hy : y ∈ xs) : indexOf size xs x = indexOf size xs y ↔ x = y := by
  constructor
  · intro h
    rw [indexOf_of_mem size hx, indexOf_of_mem size hy, Int.natCast_inj] at h
    exact (List.idxOf_inj hx).mp
      (offset_inj hsize (List.idxOf_lt_length_iff.mpr hx) (List.idxOf_lt_length_iff.mpr hy) h)
  · exact fun h => by rw [h]

end Interning
