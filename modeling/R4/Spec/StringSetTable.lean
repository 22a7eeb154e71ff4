import Mathlib.Data.List.TakeWhile
import R4.Native.StringSet

/-!
# The hash table is that of the strings

The table of a set of strings is always the one that is built from its strings, in the order
in which they are stored, in a table of its size: a new string goes behind the others, and
growing builds the table again. So a set that is loaded from a file is the set that was saved.

## Key results

- `rehashFrom_append`: the table of one more string
- `rebuilt_of_built`: the table of a set is that of its strings
- `reads_saveToFile`: a set is read back from its file
-/

namespace R4.StringSet

open BinaryFile

variable {stringHash : List UInt8 → Int}

/-- Every string is terminated. -/
def Terminated (data : List UInt8) : Prop := data = [] ∨ data.getLast? = some 0

/-- The table is the one that is built from the strings. -/
structure Rebuilt (stringHash : List UInt8 → Int) (set : StringSet) : Prop where
  terminated : Terminated set.data
  rehash : rehashAll stringHash { set with
    hashes := List.replicate set.hashes.length (-1) } = some set

/-! ## Strings in the array -/

/-- A string that is appended with its zero byte ends the data. -/
theorem terminated_append (data s : List UInt8) : Terminated (data ++ s ++ [0]) :=
  Or.inr (by simp)

private theorem takeWhile_append_cons {s : List UInt8} (h : (0 : UInt8) ∈ s) :
    ∃ tail, s = (s.takeWhile fun c => c ≠ 0) ++ 0 :: tail := by
  induction s with
  | nil => simp at h
  | cons c s ih =>
    by_cases hc : c = 0
    · exact ⟨s, by simp [hc]⟩
    · obtain ⟨tail, htail⟩ := ih (by simpa [Ne.symm hc] using h)
      refine ⟨tail, ?_⟩
      rw [List.takeWhile_cons_of_pos (by simpa using hc), List.cons_append, ← htail]

/-- The string at a position ends in front of the first null character. -/
theorem cstringAt_eq_some {data str : List UInt8} {pos : Nat} :
    cstringAt data pos = some str ↔
      (∀ c ∈ str, c ≠ 0) ∧ ∃ tail, data.drop pos = str ++ 0 :: tail := by
  unfold cstringAt
  constructor
  · intro h
    split at h
    · rename_i hmem
      obtain rfl := Option.some.inj h
      exact ⟨fun c hc => by simpa using List.mem_takeWhile_imp hc, takeWhile_append_cons hmem⟩
    · simp at h
  · rintro ⟨hstr, tail, hdrop⟩
    rw [hdrop, if_pos (by simp), List.takeWhile_append_of_pos (by simpa using hstr)]
    simp

/-- A string and its zero byte are inside of the data. -/
theorem length_of_cstringAt {data str : List UInt8} {pos : Nat}
    (h : cstringAt data pos = some str) :
    pos + str.length + 1 ≤ data.length := by
  obtain ⟨-, tail, hdrop⟩ := cstringAt_eq_some.mp h
  have hlength := congrArg List.length hdrop
  rw [List.length_drop, List.length_append, List.length_cons] at hlength
  omega

/-- A string that starts in terminated data ends there, also when more is added. -/
theorem cstringAt_append {data : List UInt8} (h : Terminated data) {pos : Nat}
    (hpos : pos < data.length) (more : List UInt8) :
    ∃ str, cstringAt data pos = some str ∧ cstringAt (data ++ more) pos = some str := by
  have hlast : data.getLast? = some 0 := h.resolve_left fun hnil => by simp [hnil] at hpos
  have hmem : (0 : UInt8) ∈ data.drop pos := by
    apply List.mem_of_getLast?
    rw [List.getLast?_drop, if_neg (Nat.not_le.mpr hpos), hlast]
  -- the last character of the data ends the string at the latest
  have hread : cstringAt data pos = some ((data.drop pos).takeWhile fun c => c ≠ 0) := if_pos hmem
  obtain ⟨hstr, tail, hdrop⟩ := cstringAt_eq_some.mp hread
  refine ⟨_, hread, cstringAt_eq_some.mpr ⟨hstr, tail ++ more, ?_⟩⟩
  rw [List.drop_append_of_le_length (Nat.le_of_lt hpos), ← List.cons_append, ← List.append_assoc,
    ← hdrop]

/-- The string that has been added last. -/
theorem cstringAt_last (data : List UInt8) (s : CStr) :
    cstringAt (data ++ s.1 ++ [0]) data.length = some s.1 :=
  cstringAt_eq_some.mpr ⟨s.2, [], by simp⟩

/-! ## Building the table -/

/-- Adding a hash changes neither the data nor the size of the table. -/
theorem addHashNoRehash_frame {hash value : Int} {set set' : StringSet}
    (h : addHashNoRehash hash value set = some set') :
    set'.data = set.data ∧ set'.hashes.length = set.hashes.length := by
  obtain ⟨p, -, rfl⟩ := Option.map_eq_some_iff.mp h
  exact ⟨rfl, List.length_set⟩

/-- Where a value goes does not depend on the strings. -/
theorem addHashNoRehash_setData (hash value : Int) (set : StringSet) (data : List UInt8) :
    addHashNoRehash hash value { set with data := data } =
      (addHashNoRehash hash value set).map fun set => { set with data := data } := by
  rw [addHashNoRehash, addHashNoRehash, Option.map_map]
  rfl

/-- Rehashing does not depend on the data of the set. -/
theorem rehashFrom_setData (strings : List UInt8) (pos : Nat) (set : StringSet)
    (data : List UInt8) :
    rehashFrom stringHash strings pos { set with data := data } =
      (rehashFrom stringHash strings pos set).map fun set => { set with data := data } := by
  induction pos, set using rehashFrom.induct strings with
  | case1 pos set hpos ih =>
    rw [rehashFrom, if_pos hpos, rehashFrom, if_pos hpos]
    cases cstringAt strings pos with
    | none => rfl
    | some str =>
      rw [Option.bind_some, Option.bind_some, addHashNoRehash_setData]
      cases addHashNoRehash (stringHash str) pos set with
      | none => rfl
      | some set₁ => exact ih str set₁
  | case2 pos set hpos => rw [rehashFrom, if_neg hpos, rehashFrom, if_neg hpos, Option.map_some]

/-- Rehashing changes neither the data nor the size of the table. -/
theorem rehashFrom_frame {data : List UInt8} {pos : Nat} {set set' : StringSet}
    (h : rehashFrom stringHash data pos set = some set') :
    set'.data = set.data ∧ set'.hashes.length = set.hashes.length := by
  induction pos, set using rehashFrom.induct data with
  | case1 pos set hpos ih =>
    rw [rehashFrom, if_pos hpos, Option.bind_eq_some_iff] at h
    obtain ⟨str, -, h⟩ := h
    obtain ⟨set₁, hadd, h⟩ := Option.bind_eq_some_iff.mp h
    obtain ⟨hdata, hlength⟩ := addHashNoRehash_frame hadd
    obtain ⟨hdata', hlength'⟩ := ih str set₁ h
    exact ⟨hdata'.trans hdata, hlength'.trans hlength⟩
  | case2 pos set hpos =>
    rw [rehashFrom, if_neg hpos] at h
    obtain rfl := Option.some.inj h
    exact ⟨rfl, rfl⟩

/-- The table of one more string. -/
theorem rehashFrom_append {data : List UInt8} (terminated : Terminated data) (s : CStr) {pos : Nat}
    (hpos : pos ≤ data.length) (set : StringSet) :
    rehashFrom stringHash (data ++ s.1 ++ [0]) pos set =
      (rehashFrom stringHash data pos set).bind
        (addHashNoRehash (stringHash s.1) data.length) := by
  have hlength : (data ++ s.1 ++ [0]).length = data.length + s.1.length + 1 := by
    simp [Nat.add_assoc]
  induction pos, set using rehashFrom.induct data with
  | case1 pos set hlt ih =>
    -- a string that was there before
    obtain ⟨str, hstr, hstr'⟩ := cstringAt_append terminated hlt (s.1 ++ [0])
    rw [← List.append_assoc] at hstr'
    rw [rehashFrom, if_pos (by omega), hstr', rehashFrom, if_pos hlt, hstr, Option.bind_some,
      Option.bind_some]
    cases addHashNoRehash (stringHash str) pos set with
    | none => rfl
    | some set₁ => exact ih str set₁ (length_of_cstringAt hstr)
  | case2 pos set hle =>
    -- the new one
    obtain rfl : pos = data.length := Nat.le_antisymm hpos (Nat.not_lt.mp hle)
    rw [rehashFrom, if_pos (by omega), cstringAt_last, rehashFrom, if_neg hle, Option.bind_some,
      Option.bind_some]
    cases addHashNoRehash (stringHash s.1) data.length set with
    | none => rfl
    | some set₁ => rw [Option.bind_some, rehashFrom, if_neg (by omega)]

/-- Only terminated data has a table. -/
theorem terminated_of_rehashFrom {data : List UInt8} {pos : Nat} {set set' : StringSet}
    (hpos : pos ≤ data.length) (h : rehashFrom stringHash data pos set = some set') :
    data.drop pos = [] ∨ data.getLast? = some 0 := by
  induction pos, set using rehashFrom.induct data with
  | case1 pos set hlt ih =>
    rw [rehashFrom, if_pos hlt, Option.bind_eq_some_iff] at h
    obtain ⟨str, hstr, h⟩ := h
    obtain ⟨set₁, -, h⟩ := Option.bind_eq_some_iff.mp h
    refine Or.inr ?_
    rcases ih str set₁ (length_of_cstringAt hstr) h with hnil | hlast
    · obtain ⟨-, tail, hdrop⟩ := cstringAt_eq_some.mp hstr
      -- nothing is behind the last string, so the data ends with its null character
      have htail : tail = [] := by
        have := congrArg (List.drop (str.length + 1)) hdrop
        rw [List.drop_drop, ← Nat.add_assoc, hnil] at this
        simpa using this.symm
      rw [← List.take_append_drop pos data, hdrop, htail]
      simp
    · exact hlast
  | case2 pos set hle => exact Or.inl (List.drop_eq_nil_of_le (Nat.not_lt.mp hle))

/-! ## Sets that have been built -/

/-- A table into which all strings were put is rebuilt. -/
theorem rebuilt_of_rehashAll {data : List UInt8} {n load : Nat} {set : StringSet}
    (h : rehashAll stringHash ⟨data, List.replicate n (-1), load⟩ = some set) :
    Rebuilt stringHash set := by
  obtain ⟨hdata, hlength⟩ := rehashFrom_frame h
  refine ⟨?_, ?_⟩
  · have := terminated_of_rehashFrom (Nat.zero_le _) h
    rw [List.drop_zero] at this
    rw [hdata]
    exact this
  · rw [hdata, hlength, List.length_replicate]
    exact h

/-- Growing rebuilds the table and keeps the data. -/
theorem Rebuilt.grow {rounds : Nat} {set set' : StringSet} (rebuilt : Rebuilt stringHash set)
    (h : grow stringHash rounds set = some set') :
    Rebuilt stringHash set' ∧ set'.data = set.data := by
  induction rounds generalizing set with
  | zero =>
    -- no rounds are left, and none is needed
    obtain ⟨load, -, h⟩ := Option.bind_eq_some_iff.mp h
    split at h
    · simp at h
    · obtain rfl := Option.some.inj h
      exact ⟨rebuilt, rfl⟩
  | succ rounds ih =>
    obtain ⟨load, -, h⟩ := Option.bind_eq_some_iff.mp h
    split at h
    · -- the table is made larger and rebuilt
      obtain ⟨set₁, hrehash, h⟩ := Option.bind_eq_some_iff.mp h
      obtain ⟨rebuilt', hdata⟩ := ih (rebuilt_of_rehashAll hrehash) h
      exact ⟨rebuilt', hdata.trans (rehashFrom_frame hrehash).1⟩
    · -- it is large enough
      obtain rfl := Option.some.inj h
      exact ⟨rebuilt, rfl⟩

/-- The end of the data is their length. -/
theorem eq_of_endOfData {set : StringSet} {index : Int} (h : set.endOfData = some index) :
    index = set.data.length := by
  unfold endOfData at h
  split at h
  · exact (Option.some.inj h).symm
  · simp at h

/-- A new string goes behind the others in the table as well. -/
theorem Rebuilt.addString {set set' : StringSet} {s : CStr} {index : Int}
    (rebuilt : Rebuilt stringHash set) (h : set.addString stringHash s = some (index, set')) :
    Rebuilt stringHash set' := by
  simp only [StringSet.addString, addStringL, Option.bind_eq_bind, Option.bind_eq_some_iff] at h
  obtain ⟨pos, -, h⟩ := h
  split at h
  · simp only [addHash, Option.bind_eq_some_iff, Option.pure_def, Option.some.injEq,
      Prod.mk.injEq] at h
    obtain ⟨index, hend, set₂, ⟨set₁, hgrow, hadd⟩, -, rfl⟩ := h
    obtain rfl := eq_of_endOfData hend
    obtain ⟨rebuilt₁, hdata₁⟩ := rebuilt.grow hgrow
    obtain ⟨hdata₂, hlength₂⟩ := addHashNoRehash_frame hadd
    refine ⟨terminated_append _ _, ?_⟩
    -- the table may have grown, which builds it from the old strings
    have hold : rehashFrom stringHash set₂.data 0
        ⟨set₁.data, List.replicate set₂.hashes.length (-1), 0⟩ = some set₁ := by
      rw [hdata₂, hlength₂]
      exact rebuilt₁.rehash
    have hnew : addHashNoRehash (stringHash s.1) set₂.data.length set₁ = some set₂ := by
      rw [hdata₂, hdata₁]
      exact hadd
    have hterminated : Terminated set₂.data := by
      rw [hdata₂]
      exact rebuilt₁.terminated
    -- the old strings make the table before, the new one is added to it
    have hsetData := @rehashFrom_setData stringHash set₂.data 0
      ⟨set₁.data, List.replicate set₂.hashes.length (-1), 0⟩ (set₂.data ++ s.1 ++ [0])
    rw [hold, Option.map_some] at hsetData
    rw [rehashAll, rehashFrom_append hterminated s (Nat.zero_le _), hsetData, Option.bind_some,
      addHashNoRehash_setData, hnew, Option.map_some]
  · simp only [Option.pure_def, Option.some.injEq, Prod.mk.injEq] at h
    obtain ⟨-, rfl⟩ := h
    exact rebuilt

/-- The counts are not looked at where the file is only read. -/
theorem loadFromFile_eq_some_of_into {set set' : StringSet} {f rest : List UInt8}
    (h : loadFromFileInto stringHash set f = some (true, set', rest)) :
    loadFromFile stringHash f = some (set', rest) := by
  unfold loadFromFileInto at h
  split at h
  · -- the first length cannot be read
    simp at h
  · rename_i n f₁ hread
    split at h
    · -- it is negative
      simp at h
    · rename_i hn
      split at h
      · -- the bytes are missing
        simp at h
      · rename_i hlength
        dsimp only at h
        split at h
        · -- the number of slots is missing
          simp at h
        · rename_i slots f₂ hslots
          split at h
          · -- it is negative
            simp at h
          · rename_i hpos
            obtain ⟨set₁, hrehash, heq⟩ := Option.map_eq_some_iff.mp h
            simp only [Prod.mk.injEq, true_and] at heq
            obtain ⟨rfl, rfl⟩ := heq
            -- everything can be read, and is what the other loader reads
            have hcount : readCount f = some (n.toNat, f₁) := by
              rw [readCount, hread]
              exact if_neg hn
            have hbytes : readBytes n.toNat f₁ = some (f₁.take n.toNat, f₁.drop n.toNat) := by
              rw [readBytes, if_pos (Nat.not_lt.mp hlength), List.splitAt_eq]
            have hcount' : readCount (f₁.drop n.toNat) = some (slots.toNat, f₂) := by
              rw [readCount, hslots]
              exact if_neg hpos
            simp only [loadFromFile, hcount, hbytes, hcount', Option.bind_eq_bind, Option.bind_some,
              Option.pure_def]
            rw [show rehashAll stringHash ⟨f₁.take n.toNat, List.replicate slots.toNat (-1), 0⟩ =
              some set₁ from hrehash, Option.bind_some]

/-- Sets that are built by the operations. `Returned` says what is known of the results of the
    loads. -/
inductive Built (stringHash : List UInt8 → Int) (Returned : Bool → Prop) : StringSet → Prop where
  | init : Built stringHash Returned StringSet.init
  | addString {set set' : StringSet} {s : CStr} {index : Int}
      (built : Built stringHash Returned set)
      (h : set.addString stringHash s = some (index, set')) : Built stringHash Returned set'
  | loadFromFile {set set' : StringSet} {f rest : List UInt8} {result : Bool}
      (built : Built stringHash Returned set)
      (h : loadFromFileInto stringHash set f = some (result, set', rest))
      (returned : Returned result) : Built stringHash Returned set'

/-- The table of a set is that of its strings, unless a load was cut short. -/
theorem rebuilt_of_built {set : StringSet} (built : Built stringHash (· = true) set) :
    Rebuilt stringHash set := by
  induction built with
  | init =>
    refine ⟨Or.inl rfl, ?_⟩
    rw [rehashAll, rehashFrom, if_neg (by simp [StringSet.init])]
    rfl
  | addString _ h ih => exact ih.addString h
  | loadFromFile _ h returned =>
    -- what the set held before the load does not matter
    obtain rfl := returned
    have h := loadFromFile_eq_some_of_into h
    simp only [StringSet.loadFromFile, Option.bind_eq_bind, Option.bind_eq_some_iff,
      Option.pure_def, Option.some.injEq, Prod.mk.injEq] at h
    obtain ⟨⟨n, f₁⟩, -, ⟨data, f₂⟩, -, ⟨size, f₃⟩, -, set', hrehash, rfl, -⟩ := h
    exact rebuilt_of_rehashAll hrehash

/-- What is loaded from the file of a set is its data, with a new table of the same size. -/
theorem loadFromFile_saveToFile {set : StringSet} (hdata : set.data.length < 2 ^ 31)
    (hhashes : set.hashes.length < 2 ^ 31) (rest : List UInt8) :
    StringSet.loadFromFile stringHash (set.saveToFile ++ rest) =
      (rehashAll stringHash ⟨set.data, List.replicate set.hashes.length (-1), 0⟩).map
        fun set => (set, rest) := by
  simp only [StringSet.loadFromFile, saveToFile, List.append_assoc, reads_count hdata _,
    Option.bind_eq_bind, Option.bind_some, reads_bytes set.data _, reads_count hhashes _,
    Option.pure_def, Option.map_eq_bind]
  rfl

/-- A set is read back from its file, table and all. -/
theorem reads_saveToFile {set : StringSet} (built : Built stringHash (· = true) set)
    (hdata : set.data.length < 2 ^ 31) (hhashes : set.hashes.length < 2 ^ 31) :
    Reads (StringSet.loadFromFile stringHash) set.saveToFile set := by
  intro rest
  have hrehash : rehashAll stringHash ⟨set.data, List.replicate set.hashes.length (-1), 0⟩ =
      some set := (rebuilt_of_built built).rehash
  rw [loadFromFile_saveToFile hdata hhashes, hrehash, Option.map_some]

end R4.StringSet
