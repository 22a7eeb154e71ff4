import Mathlib.Logic.Function.Iterate

/-!
# Codecs

A codec writes values as bytes and reads them from the front of the bytes that are left on a
device. A reader is total: what it reads when the bytes are not a value, or when there are too
few of them, is some value too.

## Key results

- `write_ne_nil_of_reads`: a value that is told apart from another one takes up bytes
- `iterate_lt_of_stop`: a loop that uses up its input stops before the input is used up
-/

/-- How the values of a type are written and read. -/
structure Codec (α : Type) where
  write : α → List UInt8
  read : List UInt8 → α × List UInt8

namespace Codec

variable {α : Type}

/-- `x` is read back from what is written of it, whatever follows. -/
def Reads (c : Codec α) (x : α) : Prop := ∀ rest, c.read (c.write x ++ rest) = (x, rest)

/-- Reading does not put bytes back. -/
def Consumes (c : Codec α) : Prop := ∀ s, (c.read s).2.length ≤ s.length

/-- Something is written of a value that is told apart from another one. -/
theorem write_ne_nil_of_reads {c : Codec α} {x y : α} (hx : c.Reads x) (hy : c.Reads y)
    (hne : x ≠ y) : c.write x ≠ [] := by
  intro hnil
  have hread := hx (c.write y ++ [])
  rw [hnil, List.nil_append, hy] at hread
  exact hne (Prod.mk.inj hread).1.symm

/-- Reading at the end leaves nothing. -/
theorem Consumes.nil {c : Codec α} (h : c.Consumes) : (c.read []).2 = [] :=
  List.length_eq_zero_iff.mp (Nat.le_zero.mp (h []))

end Codec

/-- A loop whose steps use up the input, and which cannot stop once the input is used up, stops
    before that or never. -/
theorem iterate_lt_of_stop {σ : Type} {step : σ → σ} {stop : σ → Prop} {size : σ → Nat}
    (hempty : ∀ s, size s = 0 → size (step s) = 0 ∧ ¬stop s)
    (hdown : ∀ s, 0 < size s → size (step s) < size s) {s : σ} {n : Nat}
    (h : stop (Nat.iterate step n s)) : n < size s := by
  -- the size goes down in every round until it is zero
  have hsize : ∀ k, size (Nat.iterate step k s) ≤ size s - k := by
    intro k
    induction k with
    | zero => exact Nat.le_refl _
    | succ k ih =>
      rw [Function.iterate_succ_apply']
      rcases Nat.eq_zero_or_pos (size (Nat.iterate step k s)) with hzero | hpos
      · rw [(hempty _ hzero).1]
        exact Nat.zero_le _
      · have := hdown _ hpos
        omega
  -- if it went on for as many rounds, nothing would be left
  by_contra hge
  have hzero : size (Nat.iterate step n s) = 0 := by
    have := hsize n
    omega
  exact (hempty _ hzero).2 h
