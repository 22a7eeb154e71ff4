import Mathlib.Algebra.Group.Nat.Defs
import Mathlib.Data.List.AList

/-!
# Numbering

A table of 32-bit counters, one for each key. The number that a key is given is the counter
of the key, which counts how often the key has been given one, up to its overflow.

## Key results

- `numbers_getElem?`: a number counts the earlier uses of its key
- `numbers_ne`: while no counter overflows, a key is not given a number twice
-/

/-- The counters that are not 0. -/
abbrev KeyNumbering (κ : Type) := AList fun _ : κ => UInt32

namespace KeyNumbering

variable {κ : Type} [DecidableEq κ]

/-- The counter of a key. -/
def counter (table : KeyNumbering κ) (key : κ) : UInt32 := (table.lookup key).getD 0

/-- The next number of a key, and the table after it. -/
def next (table : KeyNumbering κ) (key : κ) : UInt32 × KeyNumbering κ :=
  (table.counter key, table.insert key (table.counter key + 1))

/-- The numbers that keys are given one after the other. -/
def numbers (table : KeyNumbering κ) : List κ → List UInt32
  | [] => []
  | key :: keys => (table.next key).1 :: numbers (table.next key).2 keys

/-- No key has been numbered at first. -/
@[simp] theorem counter_empty (key : κ) : counter ∅ key = 0 := by
  rw [counter, AList.lookup_empty, Option.getD_none]

/-- The counter of the key that is numbered grows by one. -/
theorem counter_next (table : KeyNumbering κ) (key key' : κ) :
    (table.next key).2.counter key' =
      if key = key' then table.counter key' + 1 else table.counter key' := by
  unfold next
  rw [counter]
  split
  · rename_i heq
    rw [heq, AList.lookup_insert, Option.getD_some]
  · rename_i hne
    rw [AList.lookup_insert_ne (Ne.symm hne)]
    rfl

/-- A number counts the earlier uses of its key. -/
theorem numbers_getElem? (table : KeyNumbering κ) {keys : List κ} {i : Nat} {key : κ}
    (h : keys[i]? = some key) : (table.numbers keys)[i]? =
      some (table.counter key + UInt32.ofNat ((keys.take i).countP (· = key))) := by
  induction keys generalizing table i with
  | nil => simp at h
  | cons first keys ih =>
    rw [numbers]
    -- the first key gets the counter of the table
    cases i with
    | zero =>
      rw [List.getElem?_cons_zero] at h
      obtain rfl := Option.some.inj h
      simp [next]
    | succ i =>
      -- a later one is numbered by the table after the first
      rw [List.getElem?_cons_succ] at h
      rw [List.getElem?_cons_succ, ih _ h, counter_next, List.take_succ_cons, List.countP_cons]
      -- the first key counts if it is the same
      by_cases hfirst : first = key
      · rw [if_pos hfirst, if_pos (by simp [hfirst]), UInt32.ofNat_add, UInt32.add_assoc,
          UInt32.add_comm 1]
        rfl
      · rw [if_neg hfirst, if_neg (by simp [hfirst]), Nat.add_zero]

/-- The number as a natural number, if the counters start at 0. -/
theorem toNat_numbers {keys : List κ} {i : Nat} {key : κ} (h : keys[i]? = some key) :
    ∃ n, (numbers ∅ keys)[i]? = some n ∧ n.toNat = (keys.take i).countP (· = key) % 2 ^ 32 := by
  refine ⟨_, numbers_getElem? ∅ h, ?_⟩
  rw [counter_empty, UInt32.zero_add, UInt32.toNat_ofNat']

/-- While no counter overflows, a key is not given a number twice. -/
theorem numbers_ne {keys : List κ} (hlength : keys.length ≤ 2 ^ 32) {i j : Nat} {key : κ}
    (hlt : i < j) (hi : keys[i]? = some key) (hj : keys[j]? = some key) :
    (numbers ∅ keys)[i]? ≠ (numbers ∅ keys)[j]? := by
  obtain ⟨m, hm, hcount⟩ := toNat_numbers hi
  obtain ⟨n, hn, hcount'⟩ := toNat_numbers hj
  rw [hm, hn]
  intro heq
  obtain rfl := Option.some.inj heq
  have hjlt := (List.getElem?_eq_some_iff.mp hj).1
  -- the use at `i` is one of those before `j`
  have hmore : (keys.take i).countP (· = key) < (keys.take j).countP (· = key) := by
    have hsub : (keys.take (i + 1)).countP (· = key) ≤ (keys.take j).countP (· = key) :=
      (List.take_sublist_take_left (by omega)).countP_le
    rw [List.take_add_one, hi, Option.toList_some, List.countP_append, List.countP_singleton,
      if_pos (decide_eq_true rfl)] at hsub
    omega
  have hle : (keys.take j).countP (· = key) ≤ (keys.take j).length := List.countP_le_length
  rw [List.length_take] at hle
  rw [Nat.mod_eq_of_lt (by omega)] at hcount hcount'
  omega

end KeyNumbering
