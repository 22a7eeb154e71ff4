import Mathlib.Data.List.Basic
import Mathlib.Data.Nat.Find

/-!
# Linear probing

An array of slots, some of them free, that is searched from a home slot on, with wrap-around,
until a free slot is found. A value can be found if no slot between its home and its own is
free. Filling a free slot keeps what can be found.

## Key results

- `exists_first`: the slots from any home on reach every slot, the first one first
- `Stored.set`: what is stored stays stored
- `stored_set`: a value that is put into the first free slot is stored
-/

namespace LinearProbing

/-- The slot that is visited after `i` others. -/
def probe (size home i : Nat) : Nat := (home + i) % size

/-- The first probe is the home slot. -/
theorem probe_zero {size home : Nat} (h : home < size) : probe size home 0 = home :=
  Nat.mod_eq_of_lt h

/-- Every probe is in the table. -/
theorem probe_lt {size : Nat} (h : 0 < size) (home i : Nat) : probe size home i < size :=
  Nat.mod_lt _ h

/-- The next probe is the next slot, or the first one behind the last. -/
theorem probe_succ {size home i : Nat} (h : 0 < size) :
    probe size home (i + 1) =
      if probe size home i + 1 = size then 0 else probe size home i + 1 := by
  have hlt := probe_lt h home i
  unfold probe at hlt ⊢
  rw [← Nat.add_assoc, Nat.add_mod (home + i) 1 size]
  by_cases hone : size = 1
  · subst hone
    simp [Nat.mod_one]
  · rw [Nat.mod_eq_of_lt (show 1 < size by omega)]
    split
    · rename_i hlast
      rw [hlast, Nat.mod_self]
    · exact Nat.mod_eq_of_lt (by omega)

/-- Every slot is visited. -/
theorem exists_probe_eq {size p : Nat} (home : Nat) (h : p < size) :
    ∃ i < size, probe size home i = p := by
  have hhome : home % size < size := Nat.mod_lt _ (by omega)
  unfold probe
  by_cases hle : home % size ≤ p
  · refine ⟨p - home % size, by omega, ?_⟩
    rw [Nat.add_mod, Nat.mod_eq_of_lt (show p - home % size < size by omega),
      Nat.add_sub_cancel' hle, Nat.mod_eq_of_lt h]
  · -- behind the end of the array
    refine ⟨p + size - home % size, by omega, ?_⟩
    rw [Nat.add_mod, Nat.mod_eq_of_lt (show p + size - home % size < size by omega),
      show home % size + (p + size - home % size) = p + size by omega, Nat.add_mod_right,
      Nat.mod_eq_of_lt h]

/-- If there is a slot with `P`, a first one is visited. -/
theorem exists_first {P : Nat → Prop} {size p : Nat} (home : Nat) (h : p < size) (hp : P p) :
    ∃ i < size, P (probe size home i) ∧ ∀ j < i, ¬P (probe size home j) := by
  classical
  obtain ⟨i, hi, rfl⟩ := exists_probe_eq home h
  have hexists : ∃ i, P (probe size home i) := ⟨i, hp⟩
  exact ⟨Nat.find hexists, Nat.lt_of_le_of_lt (Nat.find_min' hexists hp) hi,
    Nat.find_spec hexists, fun j hj => Nat.find_min hexists hj⟩

/-! ## What can be found -/

section

variable {α : Type} {free : α} {slots : List α}

/-- No slot in front of `p` is free. -/
def Reaches (free : α) (slots : List α) (home p : Nat) : Prop :=
  ∃ i < slots.length, probe slots.length home i = p ∧
    ∀ j < i, slots[probe slots.length home j]? ≠ some free

/-- The value can be found from its home. -/
def Stored (free : α) (slots : List α) (home : Nat) (x : α) : Prop :=
  ∃ p, slots[p]? = some x ∧ Reaches free slots home p

/-- Filling a free slot frees none. -/
theorem Reaches.set {home p : Nat} (h : Reaches free slots home p) (q : Nat) {y : α}
    (hy : y ≠ free) : Reaches free (slots.set q y) home p := by
  obtain ⟨i, hi, hp, hused⟩ := h
  refine ⟨i, by rwa [List.length_set], by rwa [List.length_set], fun j hj => ?_⟩
  rw [List.length_set, List.getElem?_set]
  split
  · split <;> simp [hy]
  · exact hused j hj

/-- What is stored stays stored. -/
theorem Stored.set {home q : Nat} {x y : α} (h : Stored free slots home x) (hx : x ≠ free)
    (hfree : slots[q]? = some free) (hy : y ≠ free) : Stored free (slots.set q y) home x := by
  obtain ⟨p, hp, hreach⟩ := h
  have hne : q ≠ p := by
    rintro rfl
    exact hx (Option.some.inj (hp.symm.trans hfree))
  exact ⟨p, by rwa [List.getElem?_set_ne hne], hreach.set q hy⟩

/-- A value that is put into the first free slot is stored. -/
theorem stored_set {home q : Nat} {y : α} (hreach : Reaches free slots home q)
    (hfree : slots[q]? = some free) (hy : y ≠ free) : Stored free (slots.set q y) home y :=
  ⟨q, List.getElem?_set_self (List.getElem?_eq_some_iff.mp hfree).1, hreach.set q hy⟩

/-- There is one free slot less. -/
theorem count_set_free [DecidableEq α] {q : Nat} {y : α} (hfree : slots[q]? = some free)
    (hy : y ≠ free) : (slots.set q y).count free + 1 = slots.count free := by
  obtain ⟨hq, hget⟩ := List.getElem?_eq_some_iff.mp hfree
  have hpos : 0 < slots.count free := List.count_pos_iff.mpr (hget ▸ List.getElem_mem hq)
  rw [List.count_set hq, hget]
  simp [hy]
  omega

end

end LinearProbing
