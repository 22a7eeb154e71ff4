import R4.ForStd.BinaryFile
import R4.ForStd.CString
import R4.ForStd.Codec

/-!
# The format of Qt's data streams

How a `QDataStream` writes integers, byte arrays, strings and lists: integers are big-endian, and
everything else has its size in front. An integer that is cut off is 0, a container that is cut
off is empty, and the rest of the device is used up.

## Key results

- `reads_int`, `reads_uint`, `reads_longlong`, `reads_bytes`: what was written is read back
- `consumes_list`: a list is read forwards if its elements are
-/

namespace QtStream

open BinaryFile

/-- `qint32`. -/
def int : Codec Int where
  write n := (writeInt n).reverse
  read
    | b₃ :: b₂ :: b₁ :: b₀ :: rest => (intOfBytes b₀ b₁ b₂ b₃, rest)
    | _ => (0, [])

/-- `quint32`. -/
def uint : Codec UInt32 where
  write n := int.write n.toNat
  read s := (UInt32.ofNat ((int.read s).1 % 2 ^ 32).toNat, (int.read s).2)

/-- `qint64`. -/
def longlong : Codec Int where
  write n := int.write (n / 2 ^ 32) ++ int.write n
  read s :=
    if s.length < 8 then (0, [])
    else
      let (high, s) := int.read s
      let (low, s) := int.read s
      (high * 2 ^ 32 + low % 2 ^ 32, s)

/-- `QByteArray`. A size with all bits set is a null array. -/
def bytes : Codec (List UInt8) where
  write b := uint.write (UInt32.ofNat b.length) ++ b
  read s :=
    let (size, s) := uint.read s
    if size.toNat = 2 ^ 32 - 1 then ([], s)
    else if size.toNat ≤ s.length then (s.take size.toNat, s.drop size.toNat)
    else ([], [])

/-- `QString`: two bytes for each character. -/
def string : Codec StdString where
  write text :=
    bytes.write (text.flatMap fun c => [UInt8.ofNat (c.toNat / 2 ^ 8), UInt8.ofNat c.toNat])
  read s :=
    let (encoded, s) := bytes.read s
    (characters encoded, s)
where
  /-- The characters of two bytes each. -/
  characters : List UInt8 → StdString
    | high :: low :: rest => Char.ofNat (high.toNat * 2 ^ 8 + low.toNat) :: characters rest
    | _ => []

/-- The loop over the elements of a list stops at the end of the device. -/
def readElements {α : Type} (c : Codec α) : Nat → List UInt8 → List α × List UInt8
  | 0, s => ([], s)
  | n + 1, s =>
    let (x, s) := c.read s
    if s = [] then ([x], [])
    else
      let (xs, s) := readElements c n s
      (x :: xs, s)

/-- `QList`. -/
def list {α : Type} (c : Codec α) : Codec (List α) where
  write xs := uint.write (UInt32.ofNat xs.length) ++ xs.flatMap c.write
  read s :=
    let (count, s) := uint.read s
    readElements c count.toNat s

/-- `QPair`. -/
def pair {α β : Type} (c : Codec α) (d : Codec β) : Codec (α × β) where
  write p := c.write p.1 ++ d.write p.2
  read s :=
    let (x, s) := c.read s
    let (y, s) := d.read s
    ((x, y), s)

/-- `QVariant`, as far as it is an `int` or nothing: the type, whether it is null, the value. The
    value of an invalid variant is a null string. -/
def variant : Codec (Option Int) where
  write
    | some n => int.write 2 ++ 0 :: int.write n
    | none => int.write 0 ++ 1 :: uint.write (UInt32.ofNat (2 ^ 32 - 1))
  read s :=
    let (type, s) := int.read s
    if type = 2 then
      let (n, s) := int.read s.tail
      (some n, s)
    else
      let (_, s) := string.read s.tail
      (none, s)

/-- Two halves, and nothing if eight bytes are missing. -/
theorem longlong_read (s : List UInt8) : longlong.read s =
    if s.length < 8 then (0, [])
    else ((int.read s).1 * 2 ^ 32 + (int.read (int.read s).2).1 % 2 ^ 32,
      (int.read (int.read s).2).2) := rfl

/-- A size and that many bytes. Nothing is left of a stream that is too short. -/
theorem bytes_read (s : List UInt8) : bytes.read s =
    if (uint.read s).1.toNat = 2 ^ 32 - 1 then ([], (uint.read s).2)
    else if (uint.read s).1.toNat ≤ (uint.read s).2.length then
      ((uint.read s).2.take (uint.read s).1.toNat, (uint.read s).2.drop (uint.read s).1.toNat)
    else ([], []) := rfl

/-- One after the other. -/
theorem pair_read {α β : Type} (c : Codec α) (d : Codec β) (s : List UInt8) :
    (pair c d).read s =
      (((c.read s).1, (d.read (c.read s).2).1), (d.read (c.read s).2).2) := rfl

/-- The type, a byte that is skipped, and the value. -/
theorem variant_read (s : List UInt8) : variant.read s =
    if (int.read s).1 = 2 then
      (some (int.read (int.read s).2.tail).1, (int.read (int.read s).2.tail).2)
    else (none, (string.read (int.read s).2.tail).2) := rfl

/-! ## What was written is read back -/

/-- An `int` in its range is read back. -/
theorem reads_int {n : Int} (h : IsInt n) : int.Reads n := by
  intro rest
  exact congrArg (fun p : Option (Int × List UInt8) => p.getD (0, [])) (reads_writeInt h rest)

/-- An unsigned integer is read back. -/
theorem reads_uint (n : UInt32) : uint.Reads n := by
  intro rest
  have hlt := n.toNat_lt
  have hbytes : writeInt (n.toNat : Int) = writeInt (n.toNat - 2 ^ 32 : Int) := by
    have hmod : (n.toNat : Int) % 2 ^ 32 = (n.toNat - 2 ^ 32 : Int) % 2 ^ 32 := by omega
    rw [writeInt, hmod]
    rfl
  -- the bytes are those of an `int` that is equal modulo `2 ^ 32`
  obtain ⟨m, hm, hwrite, hmod⟩ : ∃ m, IsInt m ∧ writeInt (n.toNat : Int) = writeInt m ∧
      (m % 2 ^ 32).toNat = n.toNat := by
    by_cases hsmall : n.toNat < 2 ^ 31
    · exact ⟨n.toNat, ⟨by omega, by omega⟩, rfl, by omega⟩
    · exact ⟨n.toNat - 2 ^ 32, ⟨by omega, by omega⟩, hbytes, by omega⟩
  have hread : int.read (uint.write n ++ rest) = (m, rest) := by
    show int.read ((writeInt _).reverse ++ rest) = _
    rw [hwrite]
    exact reads_int hm rest
  show (UInt32.ofNat ((int.read (uint.write n ++ rest)).1 % 2 ^ 32).toNat,
    (int.read (uint.write n ++ rest)).2) = _
  rw [hread, hmod, UInt32.ofNat_toNat]

/-- Bytes are read back if their number is not the mark of the null array. -/
theorem reads_bytes {b : List UInt8} (h : b.length < 2 ^ 32 - 1) : bytes.Reads b := by
  intro rest
  have hsize : (UInt32.ofNat b.length).toNat = b.length := by
    rw [UInt32.toNat_ofNat', Nat.mod_eq_of_lt (by omega)]
  show (bytes.read (uint.write (UInt32.ofNat b.length) ++ b ++ rest)) = _
  rw [bytes_read, List.append_assoc, reads_uint]
  dsimp only
  rw [hsize, if_neg (by omega), if_pos (by simp), List.take_left, List.drop_left]

/-- A `qint64` in its range is read back. -/
theorem reads_longlong {n : Int} (hlow : -2 ^ 63 ≤ n) (hhigh : n < 2 ^ 63) : longlong.Reads n := by
  intro rest
  -- the low half is written as the `int` with the same bits
  obtain ⟨m, hm, hwrite, hmod⟩ : ∃ m, IsInt m ∧ writeInt n = writeInt m ∧
      m % 2 ^ 32 = n % 2 ^ 32 := by
    refine ⟨(n + 2 ^ 31) % 2 ^ 32 - 2 ^ 31, ⟨by omega, by omega⟩, ?_, by omega⟩
    have hsame : n % 2 ^ 32 = ((n + 2 ^ 31) % 2 ^ 32 - 2 ^ 31) % 2 ^ 32 := by omega
    rw [writeInt, hsame]
    rfl
  -- the high half is in the range of an `int`
  have hfirst := reads_int (n := n / 2 ^ 32) ⟨by omega, by omega⟩
  -- both halves are there
  have hlength : ¬(int.write (n / 2 ^ 32) ++ int.write n ++ rest).length < 8 := by
    simp [int, writeInt]
  show longlong.read (int.write (n / 2 ^ 32) ++ int.write n ++ rest) = _
  rw [longlong_read, if_neg hlength, List.append_assoc, hfirst]
  dsimp only
  -- the low half is read as that `int`, whose bits are those of the number
  rw [show int.write n = int.write m from congrArg List.reverse hwrite, reads_int hm rest]
  dsimp only
  rw [hmod, Prod.mk.injEq]
  exact ⟨by omega, rfl⟩

/-- A pair is read back if its parts are. -/
theorem reads_pair {α β : Type} {c : Codec α} {d : Codec β} {x : α} {y : β} (hx : c.Reads x)
    (hy : d.Reads y) : (pair c d).Reads (x, y) := by
  intro rest
  show (pair c d).read (c.write x ++ d.write y ++ rest) = _
  rw [pair_read, List.append_assoc, hx]
  dsimp only
  rw [hy]

/-- A text is read back if each of its characters has two bytes. -/
theorem reads_string {text : StdString} (hwide : ∀ c ∈ text, c.toNat < 2 ^ 16)
    (hlength : text.length < 2 ^ 31 - 1) : string.Reads text := by
  intro rest
  -- two bytes are put together to the character
  have hcharacters : string.characters (text.flatMap fun c =>
      [UInt8.ofNat (c.toNat / 2 ^ 8), UInt8.ofNat c.toNat]) = text := by
    clear hlength
    induction text with
    | nil => rfl
    | cons c text ih =>
      have hc := hwide c List.mem_cons_self
      have hvalue : (UInt8.ofNat (c.toNat / 2 ^ 8)).toNat * 2 ^ 8 + (UInt8.ofNat c.toNat).toNat =
          c.toNat := by
        rw [UInt8.toNat_ofNat', UInt8.toNat_ofNat']
        omega
      rw [List.flatMap_cons, List.cons_append, List.cons_append, List.nil_append,
        string.characters, hvalue, Char.ofNat_toNat, ih fun c hc => hwide c (by simp [hc])]
  -- the size fits, and is not that of the null array
  have hbytes : (text.flatMap fun c =>
      [UInt8.ofNat (c.toNat / 2 ^ 8), UInt8.ofNat c.toNat]).length < 2 ^ 32 - 1 := by
    have htwo : ∀ text : StdString, (text.flatMap fun c =>
        [UInt8.ofNat (c.toNat / 2 ^ 8), UInt8.ofNat c.toNat]).length = 2 * text.length := by
      intro text
      induction text with
      | nil => rfl
      | cons c text ih =>
        rw [List.flatMap_cons, List.length_append, ih, List.length_cons]
        simp only [List.length_cons, List.length_nil]
        omega
    rw [htwo]
    omega
  show (string.characters (bytes.read (bytes.write _ ++ rest)).1,
    (bytes.read (bytes.write _ ++ rest)).2) = _
  rw [reads_bytes hbytes]
  exact congrArg (fun text => (text, rest)) hcharacters

/-- A list is read back if its elements are and each of them is written as something. -/
theorem reads_list {α : Type} {c : Codec α} {xs : List α} (h : ∀ x ∈ xs, c.Reads x)
    (hsome : ∀ x ∈ xs, c.write x ≠ []) (hlength : xs.length < 2 ^ 32) : (list c).Reads xs := by
  intro rest
  have helements : readElements c xs.length (xs.flatMap c.write ++ rest) = (xs, rest) := by
    clear hlength
    induction xs with
    | nil => rfl
    | cons x xs ih =>
      rw [List.flatMap_cons, List.append_assoc, List.length_cons, readElements,
        h x List.mem_cons_self]
      dsimp only
      split
      · -- nothing is left, so this was the last element
        rename_i hend
        obtain ⟨hxs, rfl⟩ := List.append_eq_nil_iff.mp hend
        cases xs with
        | nil => rfl
        | cons y ys =>
          rw [List.flatMap_cons, List.append_eq_nil_iff] at hxs
          exact absurd hxs.1 (hsome y (by simp))
      · rw [ih (fun y hy => h y (List.mem_cons_of_mem _ hy))
          fun y hy => hsome y (List.mem_cons_of_mem _ hy)]
  show readElements c (uint.read (uint.write (UInt32.ofNat xs.length) ++ _ ++ rest)).1.toNat
    (uint.read (uint.write (UInt32.ofNat xs.length) ++ _ ++ rest)).2 = _
  rw [List.append_assoc, reads_uint]
  dsimp only
  rw [UInt32.toNat_ofNat', Nat.mod_eq_of_lt hlength, helements]

/-- An `int` in a variant is read back. -/
theorem reads_variant {n : Int} (h : IsInt n) : variant.Reads (some n) := by
  intro rest
  show variant.read (int.write 2 ++ 0 :: int.write n ++ rest) = _
  rw [variant_read, List.append_assoc, reads_int (by decide)]
  dsimp only
  rw [if_pos rfl, List.cons_append, List.tail_cons, reads_int h]

/-! ## What is read is used up -/

/-- An integer uses up what is there. -/
theorem int_read_lt {s : List UInt8} (h : s ≠ []) : (int.read s).2.length < s.length := by
  unfold int
  dsimp only
  split
  · simp only [List.length_cons]
    omega
  · exact List.length_pos_of_ne_nil h

/-- An `int` does not put bytes back. -/
theorem consumes_int : int.Consumes := by
  intro s
  by_cases h : s = []
  · rw [h]
    exact Nat.le_refl _
  · exact Nat.le_of_lt (int_read_lt h)

theorem consumes_uint : uint.Consumes := consumes_int

/-- A `qint64` does not put bytes back. -/
theorem consumes_longlong : longlong.Consumes := by
  intro s
  rw [longlong_read]
  split
  · exact Nat.zero_le _
  · exact Nat.le_trans (consumes_int _) (consumes_int s)

/-- Bytes are taken from the stream, or all of it is. -/
theorem consumes_bytes : bytes.Consumes := by
  intro s
  have hsize := consumes_uint s
  rw [bytes_read]
  split
  · exact hsize
  · split
    · rw [List.length_drop]
      omega
    · exact Nat.zero_le _

theorem consumes_string : string.Consumes := consumes_bytes

/-- A list does not put bytes back if its elements do not. -/
theorem consumes_list {α : Type} {c : Codec α} (h : c.Consumes) : (list c).Consumes := by
  have helements : ∀ n s, (readElements c n s).2.length ≤ s.length := by
    intro n
    induction n with
    | zero => exact fun s => Nat.le_refl _
    | succ n ih =>
      intro s
      have hfirst := h s
      rw [readElements]
      dsimp only
      split
      · exact Nat.zero_le _
      · exact Nat.le_trans (ih _) hfirst
  exact fun s => Nat.le_trans (helements _ _) (consumes_uint s)

/-- A pair does not put bytes back if its parts do not. -/
theorem consumes_pair {α β : Type} {c : Codec α} {d : Codec β} (hc : c.Consumes)
    (hd : d.Consumes) : (pair c d).Consumes :=
  fun s => Nat.le_trans (hd _) (hc s)

/-- A variant does not put bytes back. -/
theorem consumes_variant : variant.Consumes := by
  intro s
  have htype := consumes_int s
  have htail : (int.read s).2.tail.length ≤ s.length := by
    rw [List.length_tail]
    omega
  rw [variant_read]
  split
  · exact Nat.le_trans (consumes_int _) htail
  · exact Nat.le_trans (consumes_string _) htail

end QtStream
