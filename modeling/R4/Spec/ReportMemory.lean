import R4.Native.ReportMemory

/-!
# What the heap comparison drops

Entries of the reordered run that mention an event action which the original run does not show are
an artefact, and should be dropped before the comparison. The comprehension that drops them tests
the variable of an earlier loop, whose value is the last key: if that one is ignorable everything
is dropped, and otherwise nothing.

## Key results

- `memory2_of_getLast`: what is kept depends on the last entry
- `compareMemories_perm`: the comparison itself does not depend on the order of the entries
- `exact_iff`: when the right entries are dropped
-/

namespace R4.ReportReader

open Python (Dict)

/-- The texts of the entries of `m2` whose key is not ignored. -/
def keptEntries (m1 m2 : Memory) : List StdString :=
  (m2.items.filter fun entry => entry.1 ∉ ignoreMemory2Keys m1 m2).map
    (anonEntry (knownIds m1 m2))

/-- The results are the same, as sets. -/
structure SameSets (c c' : MemoryComparison) : Prop where
  equal : c.equal = c'.equal
  originalDiff : ∀ x, x ∈ c.originalDiff ↔ x ∈ c'.originalDiff
  reorderedDiff : ∀ x, x ∈ c.reorderedDiff ↔ x ∈ c'.reorderedDiff
  originalDiffKeys : ∀ x, x ∈ c.originalDiffKeys ↔ x ∈ c'.originalDiffKeys
  reorderedDiffKeys : ∀ x, x ∈ c.reorderedDiffKeys ↔ x ∈ c'.reorderedDiffKeys

/-- The maps are equal if the texts of the original run are those of the entries that are kept,
    and the result does not depend on the order in which the maps were filled. -/
def Exact (m1 m2 : Memory) : Prop :=
  ((abstractMemoryEqual m1 m2).equal = true ↔
      ∀ text, text ∈ memory1 m1 m2 ↔ text ∈ keptEntries m1 m2) ∧
    ∀ m1' m2' : Memory, m1.items.Perm m1'.items → m2.items.Perm m2'.items →
      SameSets (abstractMemoryEqual m1 m2) (abstractMemoryEqual m1' m2')

/-! ## What is kept -/

variable {m1 m2 m1' m2' : Memory}

/-- The key of an entry is ignored if the entry is ignorable. -/
theorem mem_ignoreMemory2Keys_iff {entry : StdString × MemoryValue} (h : entry ∈ m2.items) :
    entry.1 ∈ ignoreMemory2Keys m1 m2 ↔ ignorable m1 m2 entry = true := by
  rw [ignoreMemory2Keys, List.mem_map]
  constructor
  · rintro ⟨entry', hmem, hkey⟩
    obtain ⟨hmem, hignorable⟩ := List.mem_filter.mp hmem
    -- there is one entry for a key
    rwa [← List.inj_on_of_nodup_map m2.nodup hmem h hkey]
  · exact fun hignorable => ⟨entry, List.mem_filter.mpr ⟨h, hignorable⟩, rfl⟩

/-- The last entry decides whether all entries are kept or none. -/
theorem memory2_of_getLast {entry : StdString × MemoryValue}
    (h : m2.items.getLast? = some entry) :
    memory2 m1 m2 = if ignorable m1 m2 entry then [] else
      m2.items.map (anonEntry (knownIds m1 m2)) := by
  have hmem := List.mem_of_getLast? h
  rw [memory2, List.getLast?_map, h]
  dsimp only [Option.map_some, Option.all_some]
  split
  · rename_i hignorable
    rw [decide_eq_false (not_not.mpr ((mem_ignoreMemory2Keys_iff hmem).mpr hignorable)),
      List.filter_false, List.map_nil]
  · rename_i hignorable
    rw [decide_eq_true (mt (mem_ignoreMemory2Keys_iff hmem).mp hignorable), List.filter_true]

/-- If the entries are all ignorable, or none is, the right ones are kept. -/
theorem memory2_eq_keptEntries
    (h : (∀ entry ∈ m2.items, ignorable m1 m2 entry = false) ∨
      ∀ entry ∈ m2.items, ignorable m1 m2 entry = true) :
    memory2 m1 m2 = keptEntries m1 m2 := by
  cases hlast : m2.items.getLast? with
  | none =>
    -- the second memory is empty
    have hnil := List.getLast?_eq_none_iff.mp hlast
    simp [memory2, keptEntries, hnil]
  | some last =>
    have hmem := List.mem_of_getLast? hlast
    rw [memory2_of_getLast hlast, keptEntries]
    -- the last entry decides for all of them
    rcases h with h | h
    · -- nothing can be ignored, and everything is kept
      rw [h last hmem, if_neg Bool.false_ne_true, List.filter_eq_self.mpr fun entry he => ?_]
      rw [decide_eq_true_eq, mem_ignoreMemory2Keys_iff he, h entry he]
      exact Bool.false_ne_true
    · -- everything can be ignored, and nothing is kept
      rw [h last hmem, if_pos rfl, List.filter_eq_nil_iff.mpr fun entry he => ?_, List.map_nil]
      rw [decide_eq_true_eq, not_not, mem_ignoreMemory2Keys_iff he]
      exact h entry he

/-! ## The order of the entries -/

/-- The known ids do not depend on the order of the memory. -/
theorem knownIds_perm (h1 : m1.items.Perm m1'.items) (h2 : m2.items.Perm m2'.items) :
    (knownIds m1 m2).Perm (knownIds m1' m2') :=
  ((h1.map _).filterMap _).append ((h2.map _).filterMap _)

/-- Nor does the entry of the anonymous ids. -/
theorem anonEntry_perm (h1 : m1.items.Perm m1'.items) (h2 : m2.items.Perm m2'.items) :
    anonEntry (knownIds m1 m2) = anonEntry (knownIds m1' m2') := by
  funext entry
  rw [anonEntry, anonEntry]
  cases entry.2 with
  | text s => simp only [anon, (knownIds_perm h1 h2).mem_iff]
  | count n => rfl

/-- Nor does the first memory. -/
theorem memory1_perm (h1 : m1.items.Perm m1'.items) (h2 : m2.items.Perm m2'.items) :
    (memory1 m1 m2).Perm (memory1 m1' m2') := by
  rw [memory1, memory1, anonEntry_perm h1 h2]
  exact h1.map _

/-- Nor does what can be ignored. -/
theorem ignorable_perm (h1 : m1.items.Perm m1'.items) (h2 : m2.items.Perm m2'.items) :
    ignorable m1 m2 = ignorable m1' m2' := by
  funext entry
  simp only [ignorable, anonEntry_perm h1 h2, (memory1_perm h1 h2).mem_iff]

/-- Nor do the keys that are ignored. -/
theorem ignoreMemory2Keys_perm (h1 : m1.items.Perm m1'.items) (h2 : m2.items.Perm m2'.items) :
    (ignoreMemory2Keys m1 m2).Perm (ignoreMemory2Keys m1' m2') := by
  rw [ignoreMemory2Keys, ignoreMemory2Keys, ignorable_perm h1 h2]
  exact (h2.filter _).map _

/-- Nor do the entries that are kept. -/
theorem keptEntries_perm (h1 : m1.items.Perm m1'.items) (h2 : m2.items.Perm m2'.items) :
    (keptEntries m1 m2).Perm (keptEntries m1' m2') := by
  rw [keptEntries, keptEntries, anonEntry_perm h1 h2]
  simp only [(ignoreMemory2Keys_perm h1 h2).mem_iff]
  exact (h2.filter _).map _

/-- The comparison with the same texts has the same result, as sets. -/
theorem compareMemories_perm (h1 : m1.items.Perm m1'.items) (h2 : m2.items.Perm m2'.items)
    {texts texts' : List StdString} (h : texts.Perm texts') :
    SameSets (compareMemories m1 m2 texts) (compareMemories m1' m2' texts') where
  equal := by
    simp only [compareMemories, List.subset_def, (memory1_perm h1 h2).mem_iff, h.mem_iff]
  originalDiff x := by
    simp only [compareMemories, List.mem_filter, (memory1_perm h1 h2).mem_iff, h.mem_iff]
  reorderedDiff x := by
    simp only [compareMemories, List.mem_filter, (memory1_perm h1 h2).mem_iff, h.mem_iff]
  originalDiffKeys x := by
    simp only [compareMemories, List.mem_map, List.mem_filter, h1.mem_iff, anonEntry_perm h1 h2,
      h.mem_iff]
  reorderedDiffKeys x := by
    simp only [compareMemories, List.mem_map, List.mem_filter, h2.mem_iff, anonEntry_perm h1 h2,
      (memory1_perm h1 h2).mem_iff, (ignoreMemory2Keys_perm h1 h2).mem_iff]

/-! ## The comparison -/

/-- With an entry that is moved to the end, everything is kept or nothing. -/
theorem exists_perm_memory2 (m1 : Memory) {entry : StdString × MemoryValue}
    (h : entry ∈ m2.items) :
    ∃ m2' : Memory, m2.items.Perm m2'.items ∧
      memory2 m1 m2' = if ignorable m1 m2 entry then [] else
        m2'.items.map (anonEntry (knownIds m1 m2)) := by
  have hperm : m2.items.Perm ((m2.delete entry.1).items ++ [entry]) :=
    (Dict.items_perm (Dict.get?_eq_some_iff.mpr h)).trans (List.perm_append_singleton ..).symm
  refine ⟨m2.reorder hperm, hperm, ?_⟩
  have hlast : (m2.reorder hperm).items.getLast? = some entry := List.getLast?_concat
  have hsame : m2.items.Perm (m2.reorder hperm).items := hperm
  rw [memory2_of_getLast hlast, ← ignorable_perm (List.Perm.refl _) hsame,
    ← anonEntry_perm (List.Perm.refl _) hsame]

/-- The comparison drops the right entries, in whatever order the maps were filled, if none of
    the entries of the reordered run is ignorable or all of them are, and only then. -/
theorem exact_iff (m1 m2 : Memory) :
    Exact m1 m2 ↔ (∀ entry ∈ m2.items, ignorable m1 m2 entry = false) ∨
      ∀ entry ∈ m2.items, ignorable m1 m2 entry = true := by
  constructor
  · rintro ⟨-, horder⟩
    by_contra h
    rw [not_or] at h
    obtain ⟨hsome, hnot⟩ := h
    push Not at hsome hnot
    obtain ⟨entry, hentry, hignorable⟩ := hsome
    obtain ⟨other, hother, hkept⟩ := hnot
    rw [ne_eq, Bool.not_eq_false] at hignorable
    -- with the ignorable entry at the end nothing is kept, with the other one everything
    obtain ⟨m2a, hperma, hnone⟩ := exists_perm_memory2 m1 hentry
    obtain ⟨m2b, hpermb, hall⟩ := exists_perm_memory2 m1 hother
    rw [if_pos hignorable] at hnone
    rw [if_neg hkept] at hall
    have hdiff := (horder m1 m2a (List.Perm.refl _) hperma).reorderedDiff
      (anonEntry (knownIds m1 m2) entry)
    have hdiff' := (horder m1 m2b (List.Perm.refl _) hpermb).reorderedDiff
      (anonEntry (knownIds m1 m2) entry)
    simp only [abstractMemoryEqual, compareMemories, hnone, hall, List.filter_nil,
      List.not_mem_nil, iff_false] at hdiff hdiff'
    have hnew : anonEntry (knownIds m1 m2) entry ∉ memory1 m1 m2b := by
      rw [← (memory1_perm (List.Perm.refl _) hpermb).mem_iff]
      simp only [ignorable, Bool.and_eq_true, decide_eq_true_eq] at hignorable
      exact hignorable.2
    refine hdiff (hdiff'.mpr (List.mem_filter.mpr ⟨?_, by simpa using hnew⟩))
    exact List.mem_map_of_mem (hpermb.mem_iff.mp hentry)
  · intro h
    have hmemory2 := memory2_eq_keptEntries h
    refine ⟨?_, fun m1' m2' h1 h2 => ?_⟩
    · rw [abstractMemoryEqual, hmemory2, compareMemories, decide_eq_true_eq]
      exact ⟨fun h text => ⟨fun ht => h.1 ht, fun ht => h.2 ht⟩,
        fun h => ⟨fun text => (h text).mp, fun text => (h text).mpr⟩⟩
    · have h' : (∀ entry ∈ m2'.items, ignorable m1' m2' entry = false) ∨
          ∀ entry ∈ m2'.items, ignorable m1' m2' entry = true := by
        simpa only [← ignorable_perm h1 h2, h2.mem_iff] using h
      rw [abstractMemoryEqual, abstractMemoryEqual, hmemory2, memory2_eq_keptEntries h']
      exact compareMemories_perm h1 h2 (keptEntries_perm h1 h2)

/-- One variable, with the value that it has in both runs. -/
def originalMemory : Memory := ⟨[("x".toList, .text "1".toList)], by simp⟩

/-- The same, and an event action that only the reordered run shows. -/
def reorderedMemory : Memory :=
  ⟨[("event action 5".toList, .count 1), ("x".toList, .text "1".toList)], by simp⟩

/-- The variable is the last entry, so the event action is not dropped, and the maps differ. -/
theorem ignorable_entry_not_dropped :
    (abstractMemoryEqual originalMemory reorderedMemory).equal = false ∧
      keptEntries originalMemory reorderedMemory = memory1 originalMemory reorderedMemory ∧
      ¬ Exact originalMemory reorderedMemory := by
  have hequal : (abstractMemoryEqual originalMemory reorderedMemory).equal = false := by
    decide +kernel
  have hkept : keptEntries originalMemory reorderedMemory =
      memory1 originalMemory reorderedMemory := by decide +kernel
  refine ⟨hequal, hkept, fun ⟨hright, _⟩ => ?_⟩
  rw [hequal, hkept] at hright
  exact Bool.false_ne_true (hright.mpr fun _ => Iff.rfl)

end R4.ReportReader
