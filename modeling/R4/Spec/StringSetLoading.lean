import R4.Spec.StringInterning

/-!
# Loading a set of strings

`loadFromFile` reads two counts, of the characters and of the slots of the hash table, and looks
at neither of them. The strings have to be terminated and to leave a free slot; a table with one
slot is free only until a string is added.

## Key results

- `loadFromFile_eq_some_of_into`: a set that is loaded is read from the file
- `slotsSuit_of_invariant`: what has to hold of the data and the slots
- `load_is_safe_iff`: the files that are loaded safely
-/

namespace R4.StringSet

open BinaryFile Interning

/-- The table invariant: the data consists of complete strings, and the hash table contains the
    position of each of them and is not full. -/
def TableInvariant (stringHash : List UInt8 → Int) (set : StringSet) : Prop :=
  ∃ strings, set.data = encode strings ∧ Holds stringHash strings set ∧
    (set.hashes = [] ∨ -1 ∈ set.hashes)

/-- The bytes that the calls may add. -/
def addedBytes (calls : List Call) : Nat :=
  (calls.map fun
    | .addString s => s.size
    | .findString _ => 0
    | .containsString _ => 0).sum

/-- Every sequence of calls returns, as long as the values of `int` variables fit. -/
def CallsReturn (stringHash : List UInt8 → Int) (set : StringSet) : Prop :=
  ∀ calls : List Call, set.data.length + addedBytes calls < 2 ^ 31 →
    set.hashTableLoad + calls.length ≤ 2 ^ 30 → Nonempty (Run stringHash set calls)

/-- `loadFromFile` returns false, or true with a set that can be used. -/
def LoadsSafely (stringHash : List UInt8 → Int) (set : StringSet) (f : List UInt8) : Prop :=
  (∃ set' rest, loadFromFileInto stringHash set f = some (false, set', rest)) ∨
  ∃ set' rest, loadFromFileInto stringHash set f = some (true, set', rest) ∧
    TableInvariant stringHash set' ∧ CallsReturn stringHash set'

/-- The number of slots suits the data. -/
def SlotsSuit (data : List UInt8) (slots : Int) : Prop :=
  Terminated data ∧ (data = [] ∧ slots = 0 ∨ (data.count 0 : Int) < slots ∧ slots ≠ 1)

/-- A count that can be read is not negative, and when everything can be read the number of slots
    suits the data. -/
def WellFormedFile (f : List UInt8) : Prop :=
  ∀ n f₁, readInt f = some (n, f₁) → 0 ≤ n ∧
    (n.toNat ≤ f₁.length → ∀ slots f₂, readInt (f₁.drop n.toNat) = some (slots, f₂) →
      SlotsSuit (f₁.take n.toNat) slots)

variable {stringHash : List UInt8 → Int}

/-! ## Calls on a loaded set -/

/-- What is added takes up its bytes, and one call adds one string. -/
theorem length_stringsAfter_le (strings : List CStr) (calls : List Call) :
    (encode (stringsAfter strings calls)).length ≤ (encode strings).length + addedBytes calls ∧
      (stringsAfter strings calls).length ≤ strings.length + calls.length := by
  induction calls generalizing strings with
  | nil => simp [stringsAfter]
  | cons call calls ih =>
    have hrest := ih (call.strings strings)
    -- one call adds one string at most
    have hfirst : (encode (call.strings strings)).length ≤
        (encode strings).length + addedBytes [call] ∧
        (call.strings strings).length ≤ strings.length + 1 := by
      cases call with
      | addString s =>
        simp only [Call.strings, intern]
        -- the string is there already
        split
        · simp
        · -- it is appended
          simp [encode_append, addedBytes, CStr.size]
      | findString s => simp [Call.strings]
      | containsString s => simp [Call.strings]
    have hsum : addedBytes (call :: calls) = addedBytes [call] + addedBytes calls := by
      simp [addedBytes]
    rw [show stringsAfter strings (call :: calls) = stringsAfter (call.strings strings) calls from
      rfl, List.length_cons, hsum]
    omega

/-- What is added with one more string is at most what is added in all. -/
theorem addedBytes_take_add_size {calls : List Call} {k : Nat} {s : CStr}
    (h : calls[k]? = some (.addString s)) :
    addedBytes (calls.take k) + s.size ≤ addedBytes calls := by
  obtain ⟨hk, hget⟩ := List.getElem?_eq_some_iff.mp h
  have hsplit : calls = calls.take k ++ .addString s :: calls.drop (k + 1) := by
    rw [← hget, ← List.drop_eq_getElem_cons hk, List.take_append_drop]
  conv_rhs => rw [hsplit]
  simp [addedBytes]

/-- With more than one slot, the calls on a set that is represented return. -/
theorem callsReturn_of_represents {strings : List CStr} {set : StringSet}
    (represents : Represents stringHash strings set) : CallsReturn stringHash set := by
  intro calls hbytes hcalls
  apply exists_run represents
  intro k call hcall
  cases call with
  -- only adding strings can fail
  | findString s => trivial
  | containsString s => trivial
  | addString s =>
    intro hnew
    -- what is added up to this call leaves room for the string
    have hlt := (List.getElem?_eq_some_iff.mp hcall).1
    have hsize := addedBytes_take_add_size hcall
    obtain ⟨hlength, hcount⟩ := length_stringsAfter_le strings (calls.take k)
    rw [← represents.data] at hlength
    rw [List.length_take, ← represents.load] at hcount
    have := s.size_pos
    constructor <;> omega

/-- In the only slot a string is added, and then another one is searched for without end. -/
theorem not_callsReturn_of_slot {set : StringSet} (hdata : set.data = [])
    (hhashes : set.hashes = [-1]) (hload : set.hashTableLoad = 0) :
    ¬CallsReturn stringHash set := by
  intro hcalls
  obtain ⟨data, hashes, load⟩ := set
  obtain ⟨rfl, rfl, rfl⟩ : data = [] ∧ hashes = [-1] ∧ load = 0 := ⟨hdata, hhashes, hload⟩
  obtain ⟨run⟩ := hcalls [.addString ⟨[], by simp⟩, .findString ⟨[97], by simp⟩] (by decide)
    (by decide)
  have hadd := run.step (k := 0) rfl
  have hfind := run.step (k := 1) rfl
  have hslot : ∀ hash, slot hash 1 = 0 := fun hash => Nat.mod_one _
  rw [run.start] at hadd
  simp [Call.perform, addString, addStringL, findStringL, findFrom, hslot, endOfData, addHash,
    grow, doubleLoad, addHashNoRehash, freeSlot] at hadd
  rw [← hadd.2] at hfind
  simp [Call.perform, findString, findStringL, findFrom, hslot, getString, cstringAt] at hfind

/-! ## Loading -/

variable (stringHash) in
/-- What happens when both counts and the characters can be read. -/
theorem loadFromFileInto_of_read (set : StringSet) {f f₁ f₂ : List UInt8} {n slots : Int}
    (hread : readInt f = some (n, f₁)) (hn : 0 ≤ n) (hlength : n.toNat ≤ f₁.length)
    (hslots : readInt (f₁.drop n.toNat) = some (slots, f₂)) :
    loadFromFileInto stringHash set f =
      if slots < 0 then none
      else (rehashAll stringHash ⟨f₁.take n.toNat, List.replicate slots.toNat (-1),
        set.hashTableLoad⟩).map fun set => (true, set, f₂) := by
  simp only [loadFromFileInto, hread, if_neg (Int.not_lt.mpr hn), if_neg (Nat.not_lt.mpr hlength),
    hslots]

variable (stringHash) in
/-- Data that suits the slots is loaded. -/
theorem represents_rehashAll {data : List UInt8} {slots : Int} (suit : SlotsSuit data slots)
    (load : Nat) : 0 ≤ slots ∧ ∃ strings set', data = encode strings ∧
      rehashAll stringHash ⟨data, List.replicate slots.toNat (-1), load⟩ = some set' ∧
      Represents stringHash strings set' := by
  obtain ⟨hterminated, hslots⟩ := suit
  obtain ⟨strings, rfl⟩ := exists_encode hterminated
  rw [count_encode] at hslots
  have hcount : strings.length = 0 ∧ slots = 0 ∨ (strings.length : Int) < slots ∧ slots ≠ 1 := by
    rcases hslots with ⟨hnil, hzero⟩ | hmore
    · exact Or.inl ⟨by rw [← count_encode, hnil]; rfl, hzero⟩
    · exact Or.inr hmore
  obtain ⟨set', hrehash, holds, hdata, hlength⟩ := holds_rehashAll stringHash
    (show strings.length ≤ slots.toNat by omega) load
  refine ⟨by omega, strings, set', rfl, hrehash, holds, hdata, ?_, by omega⟩
  rcases hcount with ⟨-, rfl⟩ | hmore
  · exact Or.inl (List.eq_nil_of_length_eq_zero hlength)
  · exact Or.inr (holds.exists_free (by omega))

/-- A set that satisfies the table invariant and whose calls return has been loaded from data that
    suits the slots. -/
theorem slotsSuit_of_invariant {set : StringSet} (hinvariant : TableInvariant stringHash set)
    (hcalls : CallsReturn stringHash set) : SlotsSuit set.data set.hashes.length := by
  obtain ⟨strings, hdata, holds, hfree⟩ := hinvariant
  have hroom := holds.room
  refine ⟨hdata ▸ terminated_encode strings, ?_⟩
  rw [hdata, count_encode]
  rcases hfree with hempty | hfree
  · rw [hempty] at hroom ⊢
    have hnil : strings = [] := List.eq_nil_of_length_eq_zero (by simpa using hroom)
    exact Or.inl ⟨by rw [hnil]; rfl, rfl⟩
  · have hpos := List.count_pos_iff.mpr hfree
    refine Or.inr ⟨by omega, fun hone => ?_⟩
    -- a table with one slot that is free
    have hlength : strings.length = 0 := by omega
    have hhashes : set.hashes = [-1] := by
      rw [List.mem_iff_getElem] at hfree
      obtain ⟨i, hi, hget⟩ := hfree
      exact List.ext_getElem (by simp; omega) fun j hj hj' => by
        obtain ⟨rfl, rfl⟩ : i = 0 ∧ j = 0 := by omega
        rw [hget]
        rfl
    exact not_callsReturn_of_slot
      (by rw [hdata, List.eq_nil_of_length_eq_zero hlength]; rfl) hhashes
      (by rw [holds.load, hlength]) hcalls

/-- A file is not loaded safely unless it is well-formed. -/
theorem wellFormedFile_of_loadsSafely {set : StringSet} {f : List UInt8}
    (hsafe : LoadsSafely stringHash set f) : WellFormedFile f := by
  intro n f₁ hread
  -- a negative length does not return
  have hn : 0 ≤ n := by
    by_contra hneg
    have hnone : loadFromFileInto stringHash set f = none := by
      simp only [loadFromFileInto, hread, if_pos (Int.not_le.mp hneg)]
    simp [LoadsSafely, hnone] at hsafe
  refine ⟨hn, fun hlength slots f₂ hslots => ?_⟩
  have heq := loadFromFileInto_of_read stringHash set hread hn hlength hslots
  -- a negative number of slots does not either
  by_cases hneg : slots < 0
  · rw [if_pos hneg] at heq
    simp [LoadsSafely, heq] at hsafe
  · -- the file is loaded into a set that is in order, so its slots suit its strings
    rw [if_neg hneg] at heq
    rcases hsafe with ⟨set', rest, hfalse⟩ | ⟨set', rest, htrue, hinvariant, hcalls⟩
    · rw [heq] at hfalse
      simp at hfalse
    · rw [heq] at htrue
      obtain ⟨set₁, hrehash, hpair⟩ := Option.map_eq_some_iff.mp htrue
      simp only [Prod.mk.injEq, true_and] at hpair
      obtain ⟨rfl, -⟩ := hpair
      obtain ⟨hdata, hsize⟩ := rehashFrom_frame hrehash
      have hsuit := slotsSuit_of_invariant hinvariant hcalls
      rw [hdata, hsize, List.length_replicate, Int.toNat_of_nonneg (Int.not_lt.mp hneg)] at hsuit
      exact hsuit

/-- A well-formed file is loaded safely. -/
theorem loadsSafely_of_wellFormedFile {f : List UInt8} (hfile : WellFormedFile f)
    (set : StringSet) : LoadsSafely stringHash set f := by
  unfold LoadsSafely
  cases hread : readInt f with
  -- the file ends in the first length
  | none => exact Or.inl ⟨set, [], by simp only [loadFromFileInto, hread]⟩
  | some read =>
    obtain ⟨n, f₁⟩ := read
    obtain ⟨hn, hsuit⟩ := hfile n f₁ hread
    -- the bytes are there
    by_cases hlength : n.toNat ≤ f₁.length
    · cases hslots : readInt (f₁.drop n.toNat) with
      | none =>
        -- the file ends in the number of slots
        refine Or.inl ⟨{ set with data := f₁.take n.toNat }, [], ?_⟩
        simp only [loadFromFileInto, hread, if_neg (Int.not_lt.mpr hn),
          if_neg (Nat.not_lt.mpr hlength), hslots]
      | some read' =>
        -- the table is rebuilt from the strings
        obtain ⟨slots, f₂⟩ := read'
        obtain ⟨hpos, strings, set', -, hrehash, represents⟩ :=
          represents_rehashAll stringHash (hsuit hlength slots f₂ hslots) set.hashTableLoad
        refine Or.inr ⟨set', f₂, ?_, ⟨strings, represents.data, represents.toHolds,
          represents.free⟩, callsReturn_of_represents represents⟩
        rw [loadFromFileInto_of_read stringHash set hread hn hlength hslots,
          if_neg (Int.not_lt.mpr hpos), hrehash, Option.map_some]
    · -- the file ends in the bytes
      refine Or.inl ⟨{ set with data := f₁ ++ (resize set.data n.toNat).drop f₁.length }, [], ?_⟩
      simp only [loadFromFileInto, hread, if_neg (Int.not_lt.mpr hn),
        if_pos (Nat.not_le.mp hlength)]

/-- A file is loaded safely exactly if the counts that can be read are not negative and, when
    everything can be read, the strings are terminated and leave a free slot, other than the only
    one; without strings there may also be no slots. -/
theorem load_is_safe_iff (stringHash : List UInt8 → Int) (set : StringSet) (f : List UInt8) :
    LoadsSafely stringHash set f ↔ WellFormedFile f := by
  constructor
  · exact wellFormedFile_of_loadsSafely
  · exact fun hfile => loadsSafely_of_wellFormedFile hfile set

/-- With one string and no slots, the slot of the string is computed modulo zero. -/
theorem load_divides_by_zero : ¬∀ stringHash set f, LoadsSafely stringHash set f := by
  intro h
  have hfile := wellFormedFile_of_loadsSafely (h (fun _ => 7) init [1, 0, 0, 0, 0, 0, 0, 0, 0])
  obtain ⟨-, hslots⟩ := (hfile 1 [0, 0, 0, 0, 0] rfl).2 (by decide) 0 [] rfl
  simp at hslots

end R4.StringSet
