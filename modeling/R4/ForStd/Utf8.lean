import R4.ForStd.CString

/-!
# UTF-8

Text and its bytes. The decoder is the one that skips what is not UTF-8, as Python's
`decode('utf8', 'ignore')` does.

## Key results

- `decodeIgnore_encode`: text is read back from its bytes
- `mem_encode_ascii`: an ASCII byte occurs in the bytes only as the character
- `byteString_ascii`: ASCII text is the string of its bytes
-/

namespace Utf8

/-- The bytes of a text. -/
def encode (s : StdString) : List UInt8 := s.flatMap String.utf8EncodeChar

/-- The text of some bytes. A byte at which no character starts is skipped, and with it, one
    by one, the continuation bytes behind it. -/
def decodeIgnore : List UInt8 → StdString
  | [] => []
  | b :: rest =>
    match (b :: rest).toByteArray.utf8DecodeChar? 0 with
    | some c => c :: decodeIgnore (rest.drop (c.utf8Size - 1))
    | none => decodeIgnore rest
termination_by bytes => bytes.length
decreasing_by
  · simp only [List.length_drop, List.length_cons]
    omega
  · exact Nat.lt_succ_self _

@[simp] theorem encode_nil : encode [] = [] := rfl

/-- The bytes of two texts, one behind the other. -/
@[simp] theorem encode_append (s t : StdString) : encode (s ++ t) = encode s ++ encode t :=
  List.flatMap_append

/-- The bytes of a character come before those of the rest. -/
theorem encode_cons (c : Char) (s : StdString) :
    encode (c :: s) = String.utf8EncodeChar c ++ encode s := rfl

/-- A character is read off the front. -/
theorem decodeIgnore_char (c : Char) (rest : List UInt8) :
    decodeIgnore (String.utf8EncodeChar c ++ rest) = c :: decodeIgnore rest := by
  have hlength : (String.utf8EncodeChar c).length = c.utf8Size := String.length_utf8EncodeChar c
  have hdecode : (String.utf8EncodeChar c ++ rest).toByteArray.utf8DecodeChar? 0 = some c := by
    rw [List.toByteArray_append]
    exact ByteArray.utf8DecodeChar?_utf8EncodeChar_append
  cases hbytes : String.utf8EncodeChar c with
  | nil =>
    -- a character has a byte at least
    rw [hbytes] at hlength
    exact absurd hlength (Nat.ne_of_lt c.utf8Size_pos)
  | cons b bs =>
    rw [hbytes] at hlength hdecode
    rw [List.cons_append] at hdecode ⊢
    -- the bytes that are skipped are those of the character
    have hdrop : (bs ++ rest).drop (c.utf8Size - 1) = rest := by
      apply List.drop_left'
      rw [← hlength, List.length_cons, Nat.add_sub_cancel]
    rw [decodeIgnore, hdecode]
    dsimp only
    rw [hdrop]

/-- What is encoded is decoded, whatever comes behind it. -/
theorem decodeIgnore_encode_append (s : StdString) (rest : List UInt8) :
    decodeIgnore (encode s ++ rest) = s ++ decodeIgnore rest := by
  induction s with
  | nil => rfl
  | cons c s ih => rw [encode_cons, List.append_assoc, decodeIgnore_char, ih, List.cons_append]

/-- Text is read back from its bytes. -/
theorem decodeIgnore_encode (s : StdString) : decodeIgnore (encode s) = s := by
  have h := decodeIgnore_encode_append s []
  rwa [List.append_nil, decodeIgnore, List.append_nil] at h

/-! ## ASCII -/

/-- The byte of an ASCII character. -/
theorem utf8EncodeChar_ascii {c : Char} (h : c.toNat < 128) :
    String.utf8EncodeChar c = [UInt8.ofNat c.toNat] :=
  if_pos (Nat.le_of_lt_succ h)

private theorem le_toNat_ofNat (n : Nat) {m k : Nat} (hm : 0 < m) (hk : 128 ≤ k)
    (h : m + k ≤ 256) : 128 ≤ (UInt8.ofNat (n % m + k)).toNat := by
  have hlt := Nat.mod_lt n hm
  rw [UInt8.toNat_ofNat', Nat.mod_eq_of_lt (by omega)]
  omega

/-- The bytes of the other characters are not ASCII. -/
theorem le_of_mem_utf8EncodeChar {c : Char} (h : 128 ≤ c.toNat) {b : UInt8}
    (hb : b ∈ String.utf8EncodeChar c) : 128 ≤ b.toNat := by
  have hascii : ¬c.val.toNat ≤ 0x7f := Nat.not_le.mpr h
  simp only [String.utf8EncodeChar, if_neg hascii] at hb
  split at hb
  · simp only [List.mem_cons, List.not_mem_nil, or_false] at hb
    rcases hb with rfl | rfl <;> exact le_toNat_ofNat _ (by decide) (by decide) (by decide)
  · split at hb
    · simp only [List.mem_cons, List.not_mem_nil, or_false] at hb
      rcases hb with rfl | rfl | rfl <;> exact le_toNat_ofNat _ (by decide) (by decide) (by decide)
    · simp only [List.mem_cons, List.not_mem_nil, or_false] at hb
      rcases hb with rfl | rfl | rfl | rfl <;>
        exact le_toNat_ofNat _ (by decide) (by decide) (by decide)

/-- An ASCII byte occurs in the bytes only as the character. -/
theorem mem_encode_ascii {a : Char} (ha : a.toNat < 128) {s : StdString}
    (h : UInt8.ofNat a.toNat ∈ encode s) : a ∈ s := by
  obtain ⟨c, hc, hb⟩ := List.mem_flatMap.mp h
  have htoNat : ∀ {d : Char}, d.toNat < 128 → (UInt8.ofNat d.toNat).toNat = d.toNat := by
    intro d hd
    rw [UInt8.toNat_ofNat', Nat.mod_eq_of_lt (by omega)]
  by_cases hascii : c.toNat < 128
  · rw [utf8EncodeChar_ascii hascii, List.mem_singleton] at hb
    have heq : a.toNat = c.toNat := by rw [← htoNat ha, ← htoNat hascii, hb]
    have hac : a = c := Char.ext (UInt32.toNat_inj.mp heq)
    exact hac ▸ hc
  · have := le_of_mem_utf8EncodeChar (Nat.not_lt.mp hascii) hb
    rw [htoNat ha] at this
    omega

/-! ## Strings of bytes -/

/-- The string that has a character for every byte. -/
def ofBytes (bytes : List UInt8) : StdString := bytes.map fun b => Char.ofNat b.toNat

/-- The bytes of a text, as a string. -/
def byteString (s : StdString) : StdString := ofBytes (encode s)

/-- A text of bytes is as long as the bytes. -/
@[simp] theorem length_byteString (s : StdString) : (byteString s).length = (encode s).length :=
  List.length_map _

/-- Texts of bytes, one behind the other. -/
@[simp] theorem byteString_append (s t : StdString) :
    byteString (s ++ t) = byteString s ++ byteString t := by
  rw [byteString, encode_append, ofBytes, List.map_append]
  rfl

/-- An ASCII character is its own byte. -/
theorem byteString_cons_ascii {c : Char} (h : c.toNat < 128) (s : StdString) :
    byteString (c :: s) = c :: byteString s := by
  have hc : Char.ofNat (UInt8.ofNat c.toNat).toNat = c := by
    rw [UInt8.toNat_ofNat', Nat.mod_eq_of_lt (by omega), Char.ofNat_toNat]
  rw [byteString, encode_cons, utf8EncodeChar_ascii h, List.singleton_append, ofBytes,
    List.map_cons, hc]
  rfl

/-- ASCII text is the string of its bytes. -/
theorem byteString_ascii {s : StdString} (h : ∀ c ∈ s, c.toNat < 128) : byteString s = s := by
  induction s with
  | nil => rfl
  | cons c s ih =>
    rw [byteString_cons_ascii (h c List.mem_cons_self),
      ih fun d hd => h d (List.mem_cons_of_mem _ hd)]

end Utf8
