import R4.ForStd.List
import R4.Spec.StringSetInvariant

/-!
# A set of strings interns

A set of strings is a list of distinct strings to which strings are added at the end: the index
of a string is where it starts. A sequence of calls is followed in this list; the set represents
the list after every call.

## Key results

- `perform_spec`: a call returns and says what the list says
- `exists_run`: a sequence of calls returns
- `string_set_interns`: what a sequence of calls returns, for every hash function
-/

namespace R4.StringSet

open Interning

/-- A call of the interface. -/
inductive Call where
  | addString (s : CStr)
  | findString (s : CStr)
  | containsString (s : CStr)
deriving DecidableEq

/-- What a call returns. -/
inductive Answer where
  | index (pos : Int)
  | contains (found : Bool)
deriving DecidableEq

/-- The call is made. -/
def Call.perform (stringHash : List UInt8 → Int) (set : StringSet) :
    Call → Option (Answer × StringSet)
  | .addString s => (set.addString stringHash s).map fun (pos, set) => (.index pos, set)
  | .findString s => (set.findString stringHash s).map fun pos => (.index pos, set)
  | .containsString s => (set.containsString stringHash s).map fun found => (.contains found, set)

/-- A sequence of calls that all return: what they return and the states between them. -/
structure Run (stringHash : List UInt8 → Int) (set : StringSet) (calls : List Call) where
  states : Nat → StringSet
  answers : Nat → Answer
  start : states 0 = set
  step : ∀ {k call}, calls[k]? = some call →
    call.perform stringHash (states k) = some (answers k, states (k + 1))

/-- The strings that are there after a call. -/
def Call.strings (strings : List CStr) : Call → List CStr
  | .addString s => intern strings s
  | .findString _ => strings
  | .containsString _ => strings

/-- The strings that are there after some calls. -/
def stringsAfter (strings : List CStr) (calls : List Call) : List CStr :=
  calls.foldl Call.strings strings

/-- The distinct strings that are added. -/
def addedStrings (calls : List Call) : List CStr := stringsAfter [] calls

variable {stringHash : List UInt8 → Int}

/-! ## One call -/

/-- What is returned, for the strings that are there after the call. -/
def Call.Returns (strings : List CStr) (answer : Answer) : Call → Prop
  | .addString s => ∃ index, answer = .index index ∧ index ≠ -1 ∧ Denotes strings s index
  | .findString s => ∃ index, answer = .index index ∧ Denotes strings s index
  | .containsString s => answer = .contains (decide (s ∈ strings))

/-- The values of `int` variables fit during the call. -/
def Call.Fits (strings : List CStr) : Call → Prop
  | .addString s => StringSet.Fits strings s
  | .findString _ => True
  | .containsString _ => True

/-- -1 says that the string is not there. -/
theorem Denotes.eq_neg_one_iff {strings : List CStr} {s : CStr} {index : Int}
    (h : Denotes strings s index) : index = -1 ↔ s ∉ strings := by
  rcases h with ⟨rfl, hnew⟩ | ⟨i, hi, rfl⟩
  · exact iff_of_true rfl hnew
  · exact iff_of_false (by omega) fun hnew => hnew (List.mem_of_getElem? hi)

/-- A call returns and says what the list says. -/
theorem perform_spec {strings : List CStr} {set : StringSet}
    (represents : Represents stringHash strings set) {call : Call} (fits : call.Fits strings) :
    ∃ answer set', call.perform stringHash set = some (answer, set') ∧
      Represents stringHash (call.strings strings) set' ∧
      call.Returns (call.strings strings) answer := by
  cases call with
  | addString s =>
    -- the string is interned, and the index is its offset
    obtain ⟨index, set', hadd, represents', hne, hindex⟩ := addStringL_spec represents fits
    refine ⟨.index index, set', ?_, represents', index, rfl, hne, hindex⟩
    rw [Call.perform, hadd, Option.map_some]
  | findString s =>
    -- finding changes nothing
    obtain ⟨index, hfind, hindex⟩ := findStringL_spec represents s
    refine ⟨.index index, set, ?_, represents, index, rfl, hindex⟩
    rw [Call.perform, findString, hfind, Option.map_some]
  | containsString s =>
    -- a string is contained if it has an index
    obtain ⟨index, hfind, hindex⟩ := findStringL_spec represents s
    refine ⟨.contains (decide (s ∈ strings)), set, ?_, represents, rfl⟩
    rw [Call.perform, containsString, findString, hfind, Option.map_some, Option.map_some]
    simp [hindex.eq_neg_one_iff]

/-! ## A sequence of calls -/

/-- If every call returns and keeps what is needed, then all of them return. -/
theorem exists_run_of_step {set : StringSet} {calls : List Call} {P : Nat → StringSet → Prop}
    (hinit : P 0 set)
    (hstep : ∀ {k call set}, calls[k]? = some call → P k set →
      ∃ answer set', call.perform stringHash set = some (answer, set') ∧ P (k + 1) set') :
    Nonempty (Run stringHash set calls) := by
  -- what the call at `k` makes of the state in front of it
  let next : Nat → StringSet → Answer × StringSet := fun k set =>
    (calls[k]?.bind fun call => call.perform stringHash set).getD (.contains false, set)
  let states : Nat → StringSet := Nat.rec set fun k set => (next k set).2
  have hnext : ∀ {k call}, calls[k]? = some call → P k (states k) →
      call.perform stringHash (states k) =
        some ((next k (states k)).1, states (k + 1)) ∧ P (k + 1) (states (k + 1)) := by
    intro k call hcall hP
    obtain ⟨answer, set', hperform, hP'⟩ := hstep hcall hP
    have heq : next k (states k) = (answer, set') := by
      simp only [next, hcall, Option.bind_some, hperform, Option.getD_some]
    have hstate : states (k + 1) = set' := congrArg Prod.snd heq
    rw [hstate, heq]
    exact ⟨hperform, hP'⟩
  have hall : ∀ k, k ≤ calls.length → P k (states k) := by
    intro k
    induction k with
    | zero => exact fun _ => hinit
    | succ k ih =>
      intro hk
      exact (hnext (List.getElem?_eq_getElem hk) (ih (Nat.le_of_lt hk))).2
  refine ⟨⟨states, fun k => (next k (states k)).1, rfl, fun {k call} hcall => ?_⟩⟩
  exact (hnext hcall (hall k (Nat.le_of_lt (List.getElem?_eq_some_iff.mp hcall).1))).1

/-- The strings after one more call. -/
theorem stringsAfter_take_succ {strings : List CStr} {calls : List Call} {k : Nat} {call : Call}
    (h : calls[k]? = some call) :
    stringsAfter strings (calls.take (k + 1)) =
      call.strings (stringsAfter strings (calls.take k)) := by
  simp [stringsAfter, List.take_add_one, h]

/-- All calls fit, each for the strings that are there before it. -/
def AllFit (strings : List CStr) (calls : List Call) : Prop :=
  ∀ (k : Nat) (call : Call), calls[k]? = some call →
    call.Fits (stringsAfter strings (calls.take k))

/-- A sequence of calls returns. -/
theorem exists_run {strings : List CStr} {set : StringSet}
    (represents : Represents stringHash strings set) {calls : List Call}
    (fits : AllFit strings calls) : Nonempty (Run stringHash set calls) := by
  apply exists_run_of_step
    (P := fun k set => Represents stringHash (stringsAfter strings (calls.take k)) set)
  · exact represents
  · intro k call set hcall represents
    obtain ⟨answer, set', hperform, represents', -⟩ := perform_spec represents (fits k call hcall)
    exact ⟨answer, set', hperform, by rwa [stringsAfter_take_succ hcall]⟩

/-- The set represents the strings after every call, and the calls say what the list says. -/
theorem Run.spec {strings : List CStr} {set : StringSet} {calls : List Call}
    (run : Run stringHash set calls) (represents : Represents stringHash strings set)
    (fits : AllFit strings calls) :
    (∀ k, k ≤ calls.length →
      Represents stringHash (stringsAfter strings (calls.take k)) (run.states k)) ∧
    ∀ {k : Nat} {call : Call}, calls[k]? = some call →
      call.Returns (stringsAfter strings (calls.take (k + 1))) (run.answers k) := by
  -- each call takes a set that represents the strings so far to one that represents those after it
  have hstep : ∀ {k : Nat} {call : Call}, calls[k]? = some call →
      Represents stringHash (stringsAfter strings (calls.take k)) (run.states k) →
      Represents stringHash (stringsAfter strings (calls.take (k + 1))) (run.states (k + 1)) ∧
        call.Returns (stringsAfter strings (calls.take (k + 1))) (run.answers k) := by
    intro k call hcall represents
    obtain ⟨answer, set', hperform, represents', hreturns⟩ :=
      perform_spec represents (fits k call hcall)
    obtain ⟨rfl, rfl⟩ := Prod.mk.inj (Option.some.inj ((run.step hcall).symm.trans hperform))
    rw [stringsAfter_take_succ hcall]
    exact ⟨represents', hreturns⟩
  have hall : ∀ k, k ≤ calls.length →
      Represents stringHash (stringsAfter strings (calls.take k)) (run.states k) := by
    -- by induction every set of the run does
    intro k
    induction k with
    | zero =>
      rw [run.start]
      exact fun _ => represents
    | succ k ih =>
      intro hk
      exact (hstep (List.getElem?_eq_getElem hk) (ih (Nat.le_of_lt hk))).1
  refine ⟨hall, fun {k call} hcall => ?_⟩
  exact (hstep hcall (hall k (Nat.le_of_lt (List.getElem?_eq_some_iff.mp hcall).1))).2

/-! ## The strings after some calls -/

/-- A call keeps the strings that are there. -/
theorem prefix_strings (strings : List CStr) (call : Call) : strings <+: call.strings strings := by
  cases call with
  | addString s => exact prefix_intern strings s
  | findString s => exact List.prefix_rfl
  | containsString s => exact List.prefix_rfl

/-- So do several calls. -/
theorem prefix_stringsAfter (strings : List CStr) (calls : List Call) :
    strings <+: stringsAfter strings calls := by
  induction calls generalizing strings with
  | nil => exact List.prefix_rfl
  | cons call calls ih => exact (prefix_strings strings call).trans (ih _)

/-- The strings after a call are there after later calls. -/
theorem stringsAfter_prefix (strings : List CStr) (calls : List Call) {j k : Nat} (h : j ≤ k) :
    stringsAfter strings (calls.take j) <+: stringsAfter strings (calls.take k) := by
  have hsplit : calls.take k = calls.take j ++ (calls.drop j).take (k - j) := by
    rw [← List.take_add, Nat.add_sub_cancel' h]
  rw [hsplit]
  conv_rhs => rw [stringsAfter, List.foldl_append]
  exact prefix_stringsAfter _ _

/-- No string is there twice. -/
theorem nodup_stringsAfter {strings : List CStr} (h : strings.Nodup) (calls : List Call) :
    (stringsAfter strings calls).Nodup := by
  induction calls generalizing strings with
  | nil => exact h
  | cons call calls ih =>
    apply ih
    cases call with
    | addString s => exact nodup_intern h s
    | findString s => exact h
    | containsString s => exact h

/-- A string is there if it was or if it has been added. -/
theorem mem_stringsAfter_iff {strings : List CStr} {calls : List Call} {s : CStr} :
    s ∈ stringsAfter strings calls ↔ s ∈ strings ∨ .addString s ∈ calls := by
  induction calls generalizing strings with
  | nil => simp [stringsAfter]
  | cons call calls ih =>
    rw [show stringsAfter strings (call :: calls) = stringsAfter (call.strings strings) calls from
      rfl, ih, List.mem_cons]
    cases call with
    | addString t => simp [Call.strings, or_assoc]
    | findString t => simp [Call.strings]
    | containsString t => simp [Call.strings]

/-- A string is there if and only if it has been added. -/
theorem mem_stringsAfter_take_iff {calls : List Call} {s : CStr} {k : Nat} :
    s ∈ stringsAfter [] (calls.take k) ↔ ∃ j < k, calls[j]? = some (.addString s) := by
  rw [mem_stringsAfter_iff, List.mem_take_iff_getElem]
  constructor
  · rintro (hnil | ⟨j, hj, hcall⟩)
    · simp at hnil
    · exact ⟨j, by omega, by rw [List.getElem?_eq_getElem (by omega), hcall]⟩
  · rintro ⟨j, hj, hcall⟩
    obtain ⟨hlt, hget⟩ := List.getElem?_eq_some_iff.mp hcall
    exact Or.inr ⟨j, by omega, hget⟩

/-! ## Strings of less than a gigabyte -/

/-- At most one of distinct strings is empty. -/
theorem length_le_of_nodup {strings : List CStr} (h : strings.Nodup) :
    strings.length ≤ (strings.map fun s => s.1.length).sum + 1 ∧
      ((∀ s ∈ strings, s.1 ≠ []) → strings.length ≤ (strings.map fun s => s.1.length).sum) := by
  induction strings with
  | nil => simp
  | cons s strings ih =>
    obtain ⟨hs, hrest⟩ := List.nodup_cons.mp h
    obtain ⟨hall, hnonempty⟩ := ih hrest
    rw [List.map_cons, List.sum_cons, List.length_cons]
    by_cases hempty : s.1 = []
    · -- the others are not empty
      have hothers := hnonempty fun t ht hnil => hs (by rwa [Subtype.ext (hempty.trans hnil.symm)])
      refine ⟨by omega, fun h => absurd hempty (h s List.mem_cons_self)⟩
    · have hpos := List.length_pos_iff.mpr hempty
      exact ⟨by omega, fun h => by
        have := hnonempty fun t ht => h t (List.mem_cons_of_mem _ ht)
        omega⟩

/-- Strings take their characters and a byte for each. -/
theorem length_encode_eq (strings : List CStr) :
    (encode strings).length = (strings.map fun s => s.1.length).sum + strings.length := by
  rw [length_encode]
  induction strings with
  | nil => rfl
  | cons s strings ih =>
    simp only [List.map_cons, List.sum_cons, ih, List.length_cons, CStr.size]
    omega

/-- Strings of less than a gigabyte are fewer than 2^30 and start below 2^31. -/
theorem offset_lt_of_bytes {strings : List CStr} (hnodup : strings.Nodup)
    (hbytes : (strings.map fun s => s.1.length).sum < 2 ^ 30) {i : Nat} {s : CStr}
    (h : strings[i]? = some s) : i < 2 ^ 30 ∧ offset CStr.size strings i < 2 ^ 31 := by
  obtain ⟨hi, hget⟩ := List.getElem?_eq_some_iff.mp h
  have hsplit : strings = strings.take i ++ s :: strings.drop (i + 1) := by
    rw [← hget, ← List.drop_eq_getElem_cons hi, List.take_append_drop]
  have hoffset : offset CStr.size strings i = (encode (strings.take i)).length :=
    (length_encode _).symm
  have hlength : (strings.take i).length = i := List.length_take_of_le (Nat.le_of_lt hi)
  have hencode := length_encode_eq (strings.take i)
  rw [hsplit] at hnodup
  rw [hsplit, List.map_append, List.map_cons, List.sum_append, List.sum_cons] at hbytes
  obtain ⟨hbefore, -, hdisjoint⟩ := List.nodup_append.mp hnodup
  obtain ⟨hall, hnonempty⟩ := length_le_of_nodup hbefore
  by_cases hempty : s.1 = []
  · -- the strings in front of an empty one are not empty
    have hothers := hnonempty fun t ht hnil =>
      hdisjoint t ht s List.mem_cons_self (Subtype.ext (hnil.trans hempty.symm))
    omega
  · have hpos := List.length_pos_iff.mpr hempty
    omega

/-- So the values of `int` variables fit. -/
theorem allFit_of_bytes {calls : List Call}
    (h : ((addedStrings calls).map fun s => s.1.length).sum < 2 ^ 30) : AllFit [] calls := by
  intro k call hcall
  cases call with
  | findString s => trivial
  | containsString s => trivial
  | addString s =>
    intro hnew
    -- the new string is behind the others in the end as well
    have hlast : stringsAfter [] (calls.take (k + 1)) =
        stringsAfter [] (calls.take k) ++ [s] := by
      rw [stringsAfter_take_succ hcall]
      exact if_neg hnew
    have hextends := stringsAfter_prefix [] calls
      (show k + 1 ≤ calls.length from (List.getElem?_eq_some_iff.mp hcall).1)
    rw [List.take_length, hlast] at hextends
    have hget := List.getElem?_of_prefix hextends (List.getElem?_concat_length ..)
    obtain ⟨hcount, hoffset⟩ := offset_lt_of_bytes (nodup_stringsAfter List.nodup_nil calls) h hget
    obtain ⟨more, hmore⟩ := hextends
    rw [← hmore, List.append_assoc, offset_append (Nat.le_refl _)] at hoffset
    exact ⟨hcount, by rwa [length_encode_eq_offset]⟩

/-! ## Interning -/

/-- The index of a string among distinct strings. -/
theorem Denotes.eq_indexOf {strings : List CStr} (hnodup : strings.Nodup) {s : CStr} {index : Int}
    (h : Denotes strings s index) : index = indexOf CStr.size strings s := by
  rcases h with ⟨rfl, hnew⟩ | ⟨i, hi, rfl⟩
  · exact (indexOf_of_not_mem _ hnew).symm
  · rw [indexOf_of_mem _ (List.mem_of_getElem? hi)]
    obtain ⟨hlt, rfl⟩ := List.getElem?_eq_some_iff.mp hi
    rw [hnodup.idxOf_getElem]

/-- What a sequence of calls returns. Strings that are added with less than a gigabyte of data
    get an index that denotes them from then on, equal strings the same one and distinct strings
    distinct ones; a string is found, at its index, exactly if it has been added; and all calls
    return, since the table has a free slot or no slots. -/
theorem string_set_interns (stringHash : List UInt8 → Int) (calls : List Call)
    (hbytes : ((addedStrings calls).map fun s => s.1.length).sum < 2 ^ 30) :
    Nonempty (Run stringHash init calls) ∧ ∀ run : Run stringHash init calls,
      (∀ i s, calls[i]? = some (.addString s) → ∃ index,
        run.answers i = .index index ∧ 0 ≤ index ∧ index < 2 ^ 31 ∧
        ∀ k, i < k → k ≤ calls.length → (run.states k).getString index = some s.1) ∧
      (∀ i j s t index index', calls[i]? = some (.addString s) →
        calls[j]? = some (.addString t) → run.answers i = .index index →
        run.answers j = .index index' → (index = index' ↔ s = t)) ∧
      (∀ i s, calls[i]? = some (.findString s) → ∃ index, run.answers i = .index index ∧
        (∀ j < i, calls[j]? = some (.addString s) → run.answers j = .index index) ∧
        ((∀ j < i, calls[j]? ≠ some (.addString s)) → index = -1)) ∧
      (∀ i s, calls[i]? = some (.containsString s) → ∃ found, run.answers i = .contains found ∧
        (found = true ↔ ∃ j < i, calls[j]? = some (.addString s))) ∧
      ∀ k, k ≤ calls.length →
        -1 ∈ (run.states k).hashes ∨ (run.states k).hashes = [] ∧ (run.states k).data = [] := by
  have fits := allFit_of_bytes hbytes
  have represents := represents_init stringHash
  refine ⟨exists_run represents fits, fun run => ?_⟩
  obtain ⟨hstates, hanswers⟩ := run.spec represents fits
  have hnodup : ∀ k, (stringsAfter [] (calls.take k)).Nodup := fun k =>
    nodup_stringsAfter List.nodup_nil _
  -- the index of a string that has been added, at any later time
  have hadded : ∀ {i s}, calls[i]? = some (.addString s) → ∀ k, i < k →
      run.answers i = .index (indexOf CStr.size (stringsAfter [] (calls.take k)) s) ∧
      s ∈ stringsAfter [] (calls.take k) := by
    intro i s hcall k hk
    obtain ⟨index, hanswer, -, hindex⟩ := hanswers hcall
    have hmem := mem_stringsAfter_take_iff.mpr ⟨i, Nat.lt_succ_self i, hcall⟩
    have hextends := stringsAfter_prefix [] calls hk
    rw [hanswer, hindex.eq_indexOf (hnodup _), indexOf_of_prefix hextends hmem]
    exact ⟨rfl, hextends.subset hmem⟩
  have hlength : ∀ {i call}, calls[i]? = some call → i < calls.length := fun hcall =>
    (List.getElem?_eq_some_iff.mp hcall).1
  refine ⟨?_, ?_, ?_, ?_, ?_⟩
  · intro i s hcall
    obtain ⟨hanswer, hmem⟩ := hadded hcall (i + 1) (Nat.lt_succ_self i)
    refine ⟨_, hanswer, ?_, ?_, fun k hk hle => ?_⟩
    · rw [indexOf_of_mem _ hmem]
      omega
    · have hextends := stringsAfter_prefix [] calls (hlength hcall)
      rw [List.take_length] at hextends
      rw [← indexOf_of_prefix hextends hmem, indexOf_of_mem _ (hextends.subset hmem)]
      have hget := List.getElem?_idxOf (hextends.subset hmem)
      have := (offset_lt_of_bytes (nodup_stringsAfter List.nodup_nil calls) hbytes hget).2
      omega
    · obtain ⟨hlater, hmem'⟩ := hadded hcall k hk
      rw [hanswer, Answer.index.injEq] at hlater
      rw [hlater, indexOf_of_mem _ hmem']
      exact (hstates k hle).getString (List.getElem?_idxOf hmem')
  · intro i j s t index index' hs ht hindex hindex'
    -- both are there after the later of the two calls
    obtain ⟨hanswer, hmem⟩ := hadded hs (max i j + 1) (by omega)
    obtain ⟨hanswer', hmem'⟩ := hadded ht (max i j + 1) (by omega)
    rw [hindex, Answer.index.injEq] at hanswer
    rw [hindex', Answer.index.injEq] at hanswer'
    rw [hanswer, hanswer']
    exact indexOf_inj CStr.size_pos hmem hmem'
  · intro i s hcall
    obtain ⟨index, hanswer, hindex⟩ := hanswers hcall
    have hsame : stringsAfter [] (calls.take (i + 1)) = stringsAfter [] (calls.take i) :=
      stringsAfter_take_succ hcall
    rw [hsame] at hindex
    refine ⟨index, hanswer, fun j hj hadd => ?_, fun hnone => ?_⟩
    · rw [(hadded hadd i hj).1, hindex.eq_indexOf (hnodup i)]
    · rw [hindex.eq_neg_one_iff, mem_stringsAfter_take_iff]
      rintro ⟨j, hj, hadd⟩
      exact hnone j hj hadd
  · intro i s hcall
    have hsame : stringsAfter [] (calls.take (i + 1)) = stringsAfter [] (calls.take i) :=
      stringsAfter_take_succ hcall
    refine ⟨_, hanswers hcall, ?_⟩
    rw [hsame, decide_eq_true_iff, mem_stringsAfter_take_iff]
  · intro k hk
    have represents := hstates k hk
    rcases represents.free with hempty | hfree
    · have hroom := represents.room
      rw [hempty] at hroom
      have hnil : stringsAfter [] (calls.take k) = [] :=
        List.eq_nil_of_length_eq_zero (by simpa using hroom)
      exact Or.inr ⟨hempty, by rw [represents.data, hnil]; rfl⟩
    · exact Or.inl hfree

/-- Three strings that all have the same negative hash. -/
theorem string_set_interns_of_words :
    let calls : List Call := [.addString ⟨[97], by simp⟩, .addString ⟨[], by simp⟩,
      .addString ⟨[97], by simp⟩, .findString ⟨[98], by simp⟩]
    Nonempty (Run (fun _ => -3) init calls) ∧ ∀ run : Run (fun _ => -3) init calls,
      ∃ index, run.answers 2 = .index index ∧ (run.states 4).getString index = some [97] := by
  intro calls
  obtain ⟨hreturn, hrun⟩ := string_set_interns (fun _ => -3) calls (by decide)
  refine ⟨hreturn, fun run => ?_⟩
  obtain ⟨index, hanswer, -, -, hget⟩ := (hrun run).1 2 ⟨[97], by simp⟩ rfl
  exact ⟨index, hanswer, hget 4 (by decide) (by decide)⟩

end R4.StringSet
