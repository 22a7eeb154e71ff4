import Mathlib.Algebra.Group.Int.Defs
import Mathlib.Algebra.Group.Nat.Defs
import Mathlib.Data.List.Basic

/-!
# Binary files

What `fwrite` writes and `fread` reads on a little-endian machine: integers of four bytes,
characters, and arrays of these behind their counts. A reader takes the bytes that are still
to be read and leaves the rest; `none` is a short read.

## Key results

- `reads_writeInt`: an integer is read back, whatever follows it
- `Reads.array`: so is an array, if its elements are
- `length_of_readArray`: how much an array of equally long elements takes
-/

namespace BinaryFile

/-- The values of an `int`. -/
def IsInt (n : Int) : Prop := -2 ^ 31 ≤ n ∧ n < 2 ^ 31

instance (n : Int) : Decidable (IsInt n) := inferInstanceAs (Decidable (_ ∧ _))

/-- A reader. -/
abbrev FileReader (α : Type) := List UInt8 → Option (α × List UInt8)

/-- `x` is read back from what is written of it. -/
def Reads {α : Type} (read : FileReader α) (bytes : List UInt8) (x : α) : Prop :=
  ∀ rest, read (bytes ++ rest) = some (x, rest)

/-! ## Integers -/

/-- `fwrite(&n, sizeof(int), 1, f)`. -/
def writeInt (n : Int) : List UInt8 :=
  let u := (n % 2 ^ 32).toNat
  [UInt8.ofNat u, UInt8.ofNat (u / 2 ^ 8), UInt8.ofNat (u / 2 ^ 16), UInt8.ofNat (u / 2 ^ 24)]

/-- The `int` that is stored in four bytes. -/
def intOfBytes (b₀ b₁ b₂ b₃ : UInt8) : Int :=
  let u : Nat := b₀.toNat + 2 ^ 8 * b₁.toNat + 2 ^ 16 * b₂.toNat + 2 ^ 24 * b₃.toNat
  if u < 2 ^ 31 then (u : Int) else (u : Int) - 2 ^ 32

/-- `fread(&n, sizeof(int), 1, f)`. -/
def readInt : FileReader Int
  | b₀ :: b₁ :: b₂ :: b₃ :: rest => some (intOfBytes b₀ b₁ b₂ b₃, rest)
  | _ => none

/-- An `int` in its range is read back. -/
theorem reads_writeInt {n : Int} (h : IsInt n) : Reads readInt (writeInt n) n := by
  intro rest
  obtain ⟨hlow, hhigh⟩ := h
  have hvalue : intOfBytes (UInt8.ofNat (n % 2 ^ 32).toNat)
      (UInt8.ofNat ((n % 2 ^ 32).toNat / 2 ^ 8)) (UInt8.ofNat ((n % 2 ^ 32).toNat / 2 ^ 16))
      (UInt8.ofNat ((n % 2 ^ 32).toNat / 2 ^ 24)) = n := by
    simp only [intOfBytes, UInt8.toNat_ofNat']
    split <;> omega
  exact congrArg (fun v => some (v, rest)) hvalue

/-- What is read is an `int`. -/
theorem isInt_of_readInt {f rest : List UInt8} {n : Int} (h : readInt f = some (n, rest)) :
    IsInt n := by
  unfold readInt at h
  split at h
  · rename_i b₀ b₁ b₂ b₃ _
    obtain ⟨rfl, -⟩ := Prod.mk.inj (Option.some.inj h)
    have h₀ := b₀.toNat_lt
    have h₁ := b₁.toNat_lt
    have h₂ := b₂.toNat_lt
    have h₃ := b₃.toNat_lt
    unfold IsInt intOfBytes
    dsimp only
    split <;> omega
  · simp at h

/-- An `int` takes four bytes. -/
theorem length_of_readInt {f rest : List UInt8} {n : Int} (h : readInt f = some (n, rest)) :
    f.length = 4 + rest.length := by
  unfold readInt at h
  split at h
  · obtain ⟨-, rfl⟩ := Prod.mk.inj (Option.some.inj h)
    simp only [List.length_cons]
    omega
  · simp at h

/-! ## Counts -/

/-- A count that is read as an `int` and used as the size of an array. A negative one is
    larger than any array can be. -/
def readCount (f : List UInt8) : Option (Nat × List UInt8) :=
  (readInt f).bind fun (n, f) => if n < 0 then none else some (n.toNat, f)

/-- A count in its range is read back. -/
theorem reads_count {n : Nat} (h : n < 2 ^ 31) : Reads readCount (writeInt n) n := by
  intro rest
  have hint : IsInt n := ⟨by omega, by omega⟩
  rw [readCount, reads_writeInt hint, Option.bind_some]
  exact if_neg (Int.not_lt.mpr (Int.natCast_nonneg n))

/-! ## Arrays -/

/-- `fread` of `n` characters. -/
def readBytes (n : Nat) : FileReader (List UInt8) := fun f =>
  if n ≤ f.length then some (f.splitAt n) else none

/-- Bytes are read back. -/
theorem reads_bytes (bytes : List UInt8) : Reads (readBytes bytes.length) bytes bytes := by
  intro rest
  rw [readBytes, if_pos (by simp), List.splitAt_eq, List.take_left, List.drop_left]

/-- `fread` of `n` elements. -/
def readArray {α : Type} (read : FileReader α) : Nat → FileReader (List α)
  | 0, f => some ([], f)
  | n + 1, f => do
    let (x, f) ← read f
    let (xs, f) ← readArray read n f
    return (x :: xs, f)

/-- An array is read back if its elements are. -/
theorem Reads.array {α : Type} {read : FileReader α} {write : α → List UInt8} {xs : List α}
    (h : ∀ x ∈ xs, Reads read (write x) x) :
    Reads (readArray read xs.length) (xs.flatMap write) xs := by
  induction xs with
  | nil => exact fun rest => rfl
  | cons x xs ih =>
    intro rest
    have hrest := ih (fun y hy => h y (List.mem_cons_of_mem _ hy)) rest
    rw [List.flatMap_cons, List.append_assoc, List.length_cons, readArray,
      h x List.mem_cons_self]
    simp only [Option.bind_eq_bind, Option.bind_some, hrest, Option.pure_def]

/-- What holds of every element that can be read holds of the array. -/
theorem forall_of_readArray {α : Type} {read : FileReader α} {P : α → Prop}
    (h : ∀ {f rest x}, read f = some (x, rest) → P x) {n : Nat} {f rest : List UInt8}
    {xs : List α} (hread : readArray read n f = some (xs, rest)) : ∀ x ∈ xs, P x := by
  induction n generalizing f xs with
  | zero =>
    obtain ⟨rfl, -⟩ := Prod.mk.inj (Option.some.inj hread)
    exact fun x hx => absurd hx List.not_mem_nil
  | succ n ih =>
    simp only [readArray, Option.bind_eq_bind, Option.bind_eq_some_iff, Option.pure_def,
      Option.some.injEq, Prod.mk.injEq] at hread
    obtain ⟨⟨x, f₁⟩, hfirst, ⟨ys, f₂⟩, hrest, rfl, rfl⟩ := hread
    intro y hy
    rcases List.mem_cons.mp hy with rfl | hy
    · exact h hfirst
    · exact ih hrest y hy

/-- An array of elements that take `size` bytes each takes that many times its length. -/
theorem length_of_readArray {α : Type} {read : FileReader α} {size : Nat}
    (h : ∀ {f rest x}, read f = some (x, rest) → f.length = size + rest.length) {n : Nat}
    {f rest : List UInt8} {xs : List α} (hread : readArray read n f = some (xs, rest)) :
    f.length = size * n + rest.length := by
  induction n generalizing f xs with
  | zero =>
    obtain ⟨-, rfl⟩ := Prod.mk.inj (Option.some.inj hread)
    rw [Nat.mul_zero, Nat.zero_add]
  | succ n ih =>
    simp only [readArray, Option.bind_eq_bind, Option.bind_eq_some_iff, Option.pure_def,
      Option.some.injEq, Prod.mk.injEq] at hread
    obtain ⟨⟨x, f₁⟩, hfirst, ⟨ys, f₂⟩, hrest, -, rfl⟩ := hread
    rw [h hfirst, ih hrest, Nat.mul_succ]
    omega

end BinaryFile
