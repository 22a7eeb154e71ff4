import R4.ForStd.Interning
import R4.ForStd.LinearProbing
import R4.Spec.StringSetTable

/-!
# The invariant of a set of strings

The array holds complete strings, and the hash table holds the position of each of them where
it can be found from the slot of its hash, and nothing else. At least one slot is free, unless
there are no slots and no strings. This is all that the operations need: they return, and they
keep it.

## Key results

- `Holds.addHashNoRehash`: a new position goes into a free slot
- `holds_rehashAll`: the table of strings that fit into it
- `findStringL_spec`: a string is found exactly if it is there
- `addStringL_spec`: a string is added unless it is there
-/

namespace R4

/-- The characters of a string and its null character. -/
def CStr.size (s : CStr) : Nat := s.1.length + 1

/-- A string takes a byte at least, that of its end. -/
theorem CStr.size_pos (s : CStr) : 0 < s.size := Nat.succ_pos _

namespace StringSet

open LinearProbing Interning

variable {stringHash : List UInt8 → Int}

/-! ## Strings in the array -/

/-- Strings one after the other, each with its null character. -/
def encode (strings : List CStr) : List UInt8 := strings.flatMap fun s => s.1 ++ [0]

/-- The strings of two lists, one behind the other. -/
theorem encode_append (strings more : List CStr) :
    encode (strings ++ more) = encode strings ++ encode more := List.flatMap_append

/-- A string is followed by a zero byte. -/
theorem encode_cons (s : CStr) (strings : List CStr) :
    encode (s :: strings) = s.1 ++ 0 :: encode strings := by
  rw [encode, List.flatMap_cons, List.append_assoc]
  rfl

/-- One string and its zero byte. -/
@[simp] theorem encode_singleton (s : CStr) : encode [s] = s.1 ++ [0] := encode_cons s []

/-- The strings take their sizes together. -/
theorem length_encode (strings : List CStr) :
    (encode strings).length = (strings.map CStr.size).sum := by
  induction strings with
  | nil => rfl
  | cons s strings ih =>
    rw [encode_cons, List.length_append, List.length_cons, ih, List.map_cons, List.sum_cons,
      CStr.size]
    omega

/-- The end of the strings is the offset of the next one. -/
theorem length_encode_eq_offset (strings : List CStr) :
    (encode strings).length = offset CStr.size strings strings.length := by
  rw [length_encode, offset_length]

/-- One null character for each string. -/
theorem count_encode (strings : List CStr) : (encode strings).count 0 = strings.length := by
  induction strings with
  | nil => rfl
  | cons s strings ih =>
    have hhead : s.1.count 0 = 0 := List.count_eq_zero.mpr fun h => s.2 0 h rfl
    rw [encode_cons, List.count_append, hhead, List.count_cons_self, ih, List.length_cons]
    omega

/-- A string is read at its position. -/
theorem cstringAt_encode {strings : List CStr} {i : Nat} {s : CStr} (h : strings[i]? = some s) :
    cstringAt (encode strings) (offset CStr.size strings i) = some s.1 := by
  obtain ⟨hi, hget⟩ := List.getElem?_eq_some_iff.mp h
  have hsplit : encode strings =
      encode (strings.take i) ++ (s.1 ++ 0 :: encode (strings.drop (i + 1))) := by
    have htail : encode (strings.drop i) = s.1 ++ 0 :: encode (strings.drop (i + 1)) := by
      rw [List.drop_eq_getElem_cons hi, hget, encode_cons]
    rw [← htail, ← encode_append, List.take_append_drop]
  have hoffset : offset CStr.size strings i = (encode (strings.take i)).length :=
    (length_encode _).symm
  refine cstringAt_eq_some.mpr ⟨s.2, encode (strings.drop (i + 1)), ?_⟩
  rw [hoffset, hsplit, List.drop_left]

/-- Strings end with a zero byte. -/
theorem terminated_encode (strings : List CStr) : Terminated (encode strings) := by
  rcases List.eq_nil_or_concat strings with rfl | ⟨init, last, rfl⟩
  · exact Or.inl rfl
  · rw [List.concat_eq_append, encode_append, encode_singleton, ← List.append_assoc]
    exact terminated_append _ _

/-- Terminated data holds complete strings. -/
theorem exists_encode {data : List UInt8} (h : Terminated data) :
    ∃ strings, data = encode strings := by
  induction hn : data.length using Nat.strongRecOn generalizing data with
  | ind n ih =>
    by_cases hnil : data = []
    · exact ⟨[], by rw [hnil]; rfl⟩
    · -- the first string ends in front of the first null character
      have hlast : data.getLast? = some 0 := h.resolve_left hnil
      obtain ⟨str, hstr⟩ : ∃ str, cstringAt data 0 = some str :=
        ⟨_, if_pos (List.mem_of_getLast? hlast)⟩
      obtain ⟨hzero, tail, hdata⟩ := cstringAt_eq_some.mp hstr
      rw [List.drop_zero] at hdata
      have htail : Terminated tail := by
        cases tail with
        | nil => exact Or.inl rfl
        | cons c rest =>
          rw [hdata, List.getLast?_append_cons, List.getLast?_cons_cons] at hlast
          exact Or.inr hlast
      obtain ⟨strings, hstrings⟩ := ih tail.length (by simp [← hn, hdata]; omega) htail rfl
      rw [hdata, hstrings]
      exact ⟨_, (encode_cons ⟨str, hzero⟩ strings).symm⟩

/-! ## The table -/

/-- The table holds the positions of the strings, each where it can be found. -/
structure Holds (stringHash : List UInt8 → Int) (strings : List CStr) (set : StringSet) :
    Prop where
  stored : ∀ {i : Nat} {s : CStr}, strings[i]? = some s →
    Stored (-1) set.hashes (slot (stringHash s.1) set.hashes.length)
      (offset CStr.size strings i : Int)
  occupied : ∀ v ∈ set.hashes, v ≠ -1 →
    ∃ (i : Nat) (s : CStr), strings[i]? = some s ∧ v = offset CStr.size strings i
  load : set.hashTableLoad = strings.length
  room : set.hashes.count (-1) + strings.length = set.hashes.length

/-- The table invariant, for the strings that the array holds. -/
structure Represents (stringHash : List UInt8 → Int) (strings : List CStr) (set : StringSet) : Prop
    extends Holds stringHash strings set where
  data : set.data = encode strings
  free : set.hashes = [] ∨ -1 ∈ set.hashes
  slots : set.hashes.length ≠ 1

/-- A table of free slots holds nothing. -/
theorem holds_free (stringHash : List UInt8 → Int) (data : List UInt8) (n : Nat) :
    Holds stringHash [] ⟨data, List.replicate n (-1), 0⟩ where
  stored := by simp
  occupied := by
    intro v hv hne
    exact absurd (List.eq_of_mem_replicate hv) hne
  load := rfl
  room := by simp

/-- An empty set represents no strings. -/
theorem represents_init (stringHash : List UInt8 → Int) : Represents stringHash [] init where
  toHolds := holds_free stringHash [] 0
  data := rfl
  free := Or.inl rfl
  slots := by simp [init]

/-- A home slot is in the table. -/
theorem slot_lt {size : Nat} (h : 0 < size) (hash : Int) : slot hash size < size :=
  Nat.mod_lt _ h

/-- The next slot is that of the next probe. -/
theorem nextSlot_probe {size : Nat} (h : 0 < size) (home i : Nat) :
    nextSlot size (probe size home i) = probe size home (i + 1) := (probe_succ h).symm

/-- The loop of `addHashNoRehash` stops at the first free slot. -/
theorem freeSlot_eq_some {hashes : List Int} {home i : Nat} (hpos : 0 < hashes.length)
    (hfree : hashes[probe hashes.length home i]? = some (-1))
    (hused : ∀ j < i, hashes[probe hashes.length home j]? ≠ some (-1)) {left k : Nat}
    (hk : k ≤ i) (hleft : i < k + left) :
    freeSlot hashes left (probe hashes.length home k) = some (probe hashes.length home i) := by
  induction left generalizing k with
  | zero => omega
  | succ left ih =>
    by_cases heq : k = i
    · subst heq
      simp [freeSlot, hfree]
    · have hlt := probe_lt hpos home k
      have hvalue : hashes[probe hashes.length home k] ≠ -1 := by
        have := hused k (by omega)
        rwa [List.getElem?_eq_getElem hlt, ne_eq, Option.some.injEq] at this
      simp only [freeSlot, List.getElem?_eq_getElem hlt, Option.bind_eq_bind, Option.bind_some,
        if_neg hvalue, nextSlot_probe hpos]
      exact ih (by omega) (by omega)

/-- A new position goes into a free slot. -/
theorem Holds.addHashNoRehash {strings : List CStr} {set : StringSet}
    (holds : Holds stringHash strings set) (hfree : -1 ∈ set.hashes) (s : CStr) :
    ∃ set', set.addHashNoRehash (stringHash s.1) (offset CStr.size strings strings.length) =
      some set' ∧ Holds stringHash (strings ++ [s]) set' := by
  -- there is a free slot
  obtain ⟨p, hp, hget⟩ := List.mem_iff_getElem.mp hfree
  have hsize : 0 < set.hashes.length := by omega
  generalize hhome : slot (stringHash s.1) set.hashes.length = home
  -- the first free slot from the home of the string
  obtain ⟨i, hi, hstop, hused⟩ := exists_first (P := fun q => set.hashes[q]? = some (-1)) home hp
    (by rw [List.getElem?_eq_getElem hp, hget])
  have hstart : probe set.hashes.length home 0 = slot (stringHash s.1) set.hashes.length := by
    rw [← hhome, probe_zero (slot_lt hsize _)]
  -- the string is put there
  have hslot := freeSlot_eq_some hsize hstop hused (Nat.zero_le i)
    (show i < 0 + set.hashes.length by omega)
  have hvalue : ∀ n : Nat, (n : Int) ≠ -1 := fun n => by omega
  -- a string is one of the old ones, or the new one behind them
  have hlast : ∀ {j t}, (strings ++ [s])[j]? = some t →
      strings[j]? = some t ∧ offset CStr.size (strings ++ [s]) j = offset CStr.size strings j ∨
      t = s ∧ offset CStr.size (strings ++ [s]) j = offset CStr.size strings strings.length := by
    intro j t ht
    by_cases hj : j < strings.length
    · rw [List.getElem?_append_left hj] at ht
      exact Or.inl ⟨ht, offset_append (Nat.le_of_lt hj) [s]⟩
    · have hlt := (List.getElem?_eq_some_iff.mp ht).1
      simp only [List.length_append, List.length_singleton] at hlt
      obtain rfl : j = strings.length := by omega
      rw [List.getElem?_concat_length, Option.some.injEq] at ht
      exact Or.inr ⟨ht.symm, offset_append (Nat.le_refl _) [s]⟩
  refine ⟨_, by rw [StringSet.addHashNoRehash, ← hstart, hslot, Option.map_some], ?_⟩
  refine { stored := ?_, occupied := ?_, load := ?_, room := ?_ }
  · -- every string is found at its slot
    intro j t ht
    rw [List.length_set]
    rcases hlast ht with ⟨hold, hoffset⟩ | ⟨rfl, hoffset⟩
    · rw [hoffset]
      exact (holds.stored hold).set (hvalue _) hstop (hvalue _)
    · rw [hoffset]
      exact stored_set ⟨i, hi, by rw [hhome], by rwa [hhome]⟩ hstop (hvalue _)
  · -- every slot that is used is that of a string
    intro v hv hne
    rcases List.mem_or_eq_of_mem_set hv with hold | rfl
    · obtain ⟨j, t, ht, rfl⟩ := holds.occupied v hold hne
      have hj := (List.getElem?_eq_some_iff.mp ht).1
      exact ⟨j, t, by rw [List.getElem?_append_left hj, ht],
        by rw [offset_append (Nat.le_of_lt hj)]⟩
    · exact ⟨strings.length, s, by simp, by rw [offset_append (Nat.le_refl _)]⟩
  · -- one more slot is used
    simp [holds.load]
  · -- one less is free
    have hcount := count_set_free hstop (hvalue (offset CStr.size strings strings.length))
    have hroom := holds.room
    simp only [List.length_append, List.length_singleton, List.length_set]
    omega

/-! ## Building the table -/

/-- There is a free slot as long as there are fewer strings than slots. -/
theorem Holds.exists_free {strings : List CStr} {set : StringSet}
    (holds : Holds stringHash strings set) (h : strings.length < set.hashes.length) :
    -1 ∈ set.hashes := by
  have hroom := holds.room
  exact List.count_pos_iff.mp (by omega)

/-- Rehashing puts all strings that are left into the table. -/
theorem holds_rehashFrom {pre post : List CStr} {set : StringSet}
    (holds : Holds stringHash pre set) (h : pre.length + post.length ≤ set.hashes.length) :
    ∃ set', rehashFrom stringHash (encode (pre ++ post)) (encode pre).length set = some set' ∧
      Holds stringHash (pre ++ post) set' := by
  induction post generalizing pre set with
  | nil =>
    rw [List.append_nil, rehashFrom, if_neg (Nat.lt_irrefl _)]
    exact ⟨set, rfl, holds⟩
  | cons s post ih =>
    rw [List.length_cons] at h
    -- the next string starts where the first ones end
    have hs : (pre ++ s :: post)[pre.length]? = some s := by simp
    have hoffset : offset CStr.size (pre ++ s :: post) pre.length = (encode pre).length := by
      rw [offset_append (Nat.le_refl _), length_encode_eq_offset]
    have hstr := cstringAt_encode hs
    rw [hoffset] at hstr
    -- the string behind it starts where it ends
    have hnext : (encode pre).length + s.1.length + 1 = (encode (pre ++ [s])).length := by
      rw [encode_append, encode_singleton, List.length_append, List.length_append,
        List.length_singleton, Nat.add_assoc]
    -- there is a free slot for it
    obtain ⟨set₁, hadd, holds₁⟩ := holds.addHashNoRehash (holds.exists_free (by omega)) s
    rw [← length_encode_eq_offset] at hadd
    have hframe := (addHashNoRehash_frame hadd).2
    obtain ⟨set', hrest, holds'⟩ := ih holds₁
      (by rw [hframe, List.length_append, List.length_singleton]; omega)
    rw [List.append_assoc, List.singleton_append] at hrest holds'
    refine ⟨set', ?_, holds'⟩
    have hlt := length_of_cstringAt hstr
    rw [rehashFrom, if_pos (by omega), hstr, Option.bind_some, hadd, Option.bind_some, hnext]
    exact hrest

variable (stringHash) in
/-- The table of strings that fit into it. -/
theorem holds_rehashAll {strings : List CStr} {n : Nat} (h : strings.length ≤ n) (load : Nat) :
    ∃ set', rehashAll stringHash ⟨encode strings, List.replicate n (-1), load⟩ = some set' ∧
      Holds stringHash strings set' ∧ set'.data = encode strings ∧ set'.hashes.length = n := by
  obtain ⟨set', hrehash, holds⟩ := holds_rehashFrom (holds_free stringHash (encode strings) n)
    (show [].length + strings.length ≤ _ by simpa using h)
  obtain ⟨hdata, hlength⟩ := rehashFrom_frame hrehash
  exact ⟨set', hrehash, holds, hdata, by simpa using hlength⟩

/-! ## Finding a string -/

/-- The loop of `findStringL` stops at the first slot that is free or has the string. -/
theorem findFrom_eq_some {set : StringSet} {s : List UInt8} {home i : Nat} {value : Int}
    (hpos : 0 < set.hashes.length)
    (hvalue : set.hashes[probe set.hashes.length home i]? = some value)
    (hstop : value = -1 ∨ set.getString value = some s)
    (hbefore : ∀ j < i, ∃ v t, set.hashes[probe set.hashes.length home j]? = some v ∧ v ≠ -1 ∧
      set.getString v = some t ∧ s ≠ t) {left k : Nat} (hk : k ≤ i) (hleft : i < k + left) :
    set.findFrom s left (probe set.hashes.length home k) = some value := by
  induction left generalizing k with
  | zero => omega
  | succ left ih =>
    -- the search has come to the slot, and ends there
    by_cases heq : k = i
    · subst heq
      rcases hstop with rfl | hstring
      · simp [findFrom, hvalue]
      · simp only [findFrom, hvalue, Option.bind_eq_bind, Option.bind_some, hstring, if_true]
        split
        · rename_i hfree
          rw [hfree]
        · rfl
    · -- the slot has another string, so the search goes on
      obtain ⟨v, t, hv, hused, hstring, hne⟩ := hbefore k (by omega)
      simp only [findFrom, hv, Option.bind_eq_bind, Option.bind_some, if_neg hused, hstring,
        if_neg hne, nextSlot_probe hpos]
      exact ih (by omega) (by omega)

/-- The index of one of the strings that are equal to `s`, or -1. -/
def Denotes (strings : List CStr) (s : CStr) (index : Int) : Prop :=
  index = -1 ∧ s ∉ strings ∨
    ∃ i : Nat, strings[i]? = some s ∧ index = offset CStr.size strings i

/-- A string is found at its offset. -/
theorem Represents.getString {strings : List CStr} {set : StringSet}
    (represents : Represents stringHash strings set) {i : Nat} {s : CStr}
    (h : strings[i]? = some s) : set.getString (offset CStr.size strings i) = some s.1 := by
  rw [StringSet.getString, if_neg (by omega), represents.data, Int.toNat_natCast]
  exact cstringAt_encode h

/-- A string is found exactly if it is there. -/
theorem findStringL_spec {strings : List CStr} {set : StringSet}
    (represents : Represents stringHash strings set) (s : CStr) :
    ∃ index, set.findStringL s.1 (stringHash s.1) = some index ∧ Denotes strings s index := by
  rcases represents.free with hempty | hfree
  · -- no slots, so no strings
    have hroom := represents.room
    rw [hempty] at hroom
    have hnil : strings = [] := List.eq_nil_of_length_eq_zero (by simpa using hroom)
    exact ⟨-1, by rw [findStringL, hempty]; rfl, Or.inl ⟨rfl, by simp [hnil]⟩⟩
  · obtain ⟨p, hp, hget⟩ := List.mem_iff_getElem.mp hfree
    have hsize : 0 < set.hashes.length := by omega
    generalize hhome : slot (stringHash s.1) set.hashes.length = home
    have hstart : probe set.hashes.length home 0 = home := by
      rw [← hhome, probe_zero (slot_lt hsize _)]
    -- the first slot that is free or has the string
    obtain ⟨i, hi, hstop, hbefore⟩ := exists_first
      (P := fun q => set.hashes[q]? = some (-1) ∨
        ∃ m : Nat, strings[m]? = some s ∧ set.hashes[q]? = some (offset CStr.size strings m : Int))
      home hp (Or.inl (by rw [List.getElem?_eq_getElem hp, hget]))
    have hskip : ∀ j < i, ∃ v t, set.hashes[probe set.hashes.length home j]? = some v ∧ v ≠ -1 ∧
        set.getString v = some t ∧ s.1 ≠ t := by
      intro j hj
      have hv := List.getElem?_eq_getElem (probe_lt hsize home j)
      obtain ⟨hused, hother⟩ := not_or.mp (hbefore j hj)
      rw [hv, Option.some.injEq] at hused
      obtain ⟨m, t, ht, hoffset⟩ := represents.occupied _ (List.getElem_mem _) hused
      refine ⟨_, t.1, hv, hused, by rw [hoffset]; exact represents.getString ht, fun heq => ?_⟩
      exact hother ⟨m, by rw [ht, Subtype.ext heq], by rw [hv, hoffset]⟩
    have hfind : ∀ {value}, set.hashes[probe set.hashes.length home i]? = some value →
        value = -1 ∨ set.getString value = some s.1 →
        set.findStringL s.1 (stringHash s.1) = some value := by
      intro value hvalue hstop
      rw [findStringL, if_neg (by omega), hhome]
      have := findFrom_eq_some hsize hvalue hstop hskip (Nat.zero_le i)
        (show i < 0 + set.hashes.length by omega)
      rwa [hstart] at this
    rcases hstop with hstop | ⟨m, hm, hstop⟩
    · refine ⟨-1, hfind hstop (Or.inl rfl), Or.inl ⟨rfl, fun hmem => ?_⟩⟩
      -- the string would have been found from its home
      obtain ⟨m, hm⟩ := List.mem_iff_getElem?.mp hmem
      obtain ⟨q, hq, i', hi', rfl, hused⟩ := represents.stored hm
      rw [hhome] at hq hused
      rcases Nat.lt_trichotomy i i' with hlt | rfl | hlt
      · exact hused i hlt hstop
      · have := Option.some.inj (hstop.symm.trans hq)
        omega
      · exact hbefore i' hlt (Or.inr ⟨m, hm, hq⟩)
    · exact ⟨_, hfind hstop (Or.inr (represents.getString hm)), Or.inr ⟨m, hm, rfl⟩⟩

/-! ## Adding a string -/

/-- Growing keeps the strings and leaves a free slot. -/
theorem grow_spec {strings : List CStr} {set : StringSet} (rounds : Nat)
    (represents : Represents stringHash strings set) (hload : strings.length < 2 ^ 30) :
    ∃ set', grow stringHash (rounds + 1) set = some set' ∧ Represents stringHash strings set' ∧
      strings.length * 2 < set'.hashes.length := by
  have hdouble : ∀ {set : StringSet}, Holds stringHash strings set →
      set.doubleLoad = some (strings.length * 2) := by
    intro set holds
    rw [doubleLoad, holds.load, if_pos (by omega)]
  by_cases hfull : strings.length * 2 ≥ set.hashes.length
  · -- one round makes enough slots
    have hfits : strings.length ≤ set.hashes.length := by
      have hroom := represents.room
      omega
    obtain ⟨set', hrehash, holds, hdata, hlength⟩ := holds_rehashAll stringHash
      (show strings.length ≤ set.hashes.length * 2 + 3 by omega) set.hashTableLoad
    have henough : ¬strings.length * 2 ≥ set'.hashes.length := by omega
    have hfree := holds.exists_free (show strings.length < set'.hashes.length by omega)
    refine ⟨set', ?_, ⟨holds, hdata, Or.inr hfree, by omega⟩, by omega⟩
    simp only [grow, hdouble represents.toHolds, Option.bind_eq_bind, Option.bind_some,
      if_pos hfull, represents.data, hrehash]
    cases rounds <;> simp only [grow, hdouble holds, Option.bind_eq_bind, Option.bind_some,
      if_neg henough]
  · refine ⟨set, ?_, represents, by omega⟩
    simp only [grow, hdouble represents.toHolds, Option.bind_eq_bind, Option.bind_some,
      if_neg hfull]

/-- What `int` variables hold while `s` is added fits. -/
def Fits (strings : List CStr) (s : CStr) : Prop :=
  s ∉ strings → strings.length < 2 ^ 30 ∧ (encode strings).length < 2 ^ 31

/-- A string is added unless it is there. -/
theorem addStringL_spec {strings : List CStr} {set : StringSet}
    (represents : Represents stringHash strings set) {s : CStr} (fits : Fits strings s) :
    ∃ index set', set.addString stringHash s = some (index, set') ∧
      Represents stringHash (intern strings s) set' ∧ index ≠ -1 ∧
      Denotes (intern strings s) s index := by
  obtain ⟨index, hfind, hindex⟩ := findStringL_spec represents s
  simp only [addString, addStringL, hfind, Option.bind_eq_bind, Option.bind_some]
  rcases hindex with ⟨rfl, hnew⟩ | ⟨i, hi, rfl⟩
  · obtain ⟨hload, hlength⟩ := fits hnew
    have hend : set.endOfData = some (offset CStr.size strings strings.length : Int) := by
      rw [endOfData, represents.data, if_pos hlength, length_encode_eq_offset]
    obtain ⟨set₁, hgrow, represents₁, hhalf⟩ :=
      grow_spec (set.hashTableLoad + set.data.length) represents hload
    obtain ⟨set₂, hadd, holds⟩ :=
      represents₁.addHashNoRehash (represents₁.exists_free (by omega)) s
    obtain ⟨hdata, hsize⟩ := addHashNoRehash_frame hadd
    rw [represents₁.data] at hdata
    have hslots := represents₁.slots
    -- the table was less than half full, so one more string leaves a free slot
    have hfree := holds.exists_free (by rw [List.length_append, List.length_singleton]; omega)
    have hintern : intern strings s = strings ++ [s] := if_neg hnew
    rw [if_pos rfl, hend, Option.bind_some, addHash, hgrow, Option.bind_some, hadd,
      Option.bind_some, hintern]
    refine ⟨_, _, rfl, ⟨⟨holds.stored, holds.occupied, holds.load, holds.room⟩, ?_, Or.inr hfree,
      by dsimp only; omega⟩, by omega, Or.inr ⟨strings.length, by simp, ?_⟩⟩
    · rw [encode_append, encode_singleton, hdata, List.append_assoc]
    · rw [offset_append (Nat.le_refl _)]
  · have hmem : s ∈ strings := List.mem_of_getElem? hi
    rw [if_neg (by omega), intern, if_pos hmem]
    exact ⟨_, _, rfl, represents, by omega, Or.inr ⟨i, hi, rfl⟩⟩

end StringSet

end R4
