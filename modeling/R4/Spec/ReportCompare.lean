import R4.Native.ReportCompare

/-!
# What the comparison of a race says

The differences that a report shows are cut out of the two lists, and put together they are these
lists again. Their distances are 0 if there is no difference, whatever the heuristics of
`SequenceMatcher` do, so a race is called equal exactly if the page looks the same, in its source
and on the screen, and there are the same warnings in the same order.

## Key results

- `isDiff_diff`: the pieces of a difference, and its distance
- `markFirstUnequal_spec`: only the first change is marked
- `compareRace_spec`: what is shown of two runs, and when they are equal
-/

namespace R4.ReportReader

open Python (Dict Opcode Tag slice)
open Python.SequenceMatcher

variable {X : Type}

/-! ## Differences -/

/-- The hashes by which items are compared. -/
def Comparer.hashes (c : Comparer X) (items : List ZipItem) : List Int :=
  items.map fun item => c.hash item.hashItems

/-- What is shown of a difference: the pieces make up the lists, those that are not changed are
    the same, and the distance tells whether there is anything that is changed. -/
structure IsDiff (c : Comparer X) (xs ys : List ZipItem) (d : Diff) : Prop where
  base : d.human.flatMap HumanOpcode.base = xs
  race : d.human.flatMap HumanOpcode.race = ys
  equal : ∀ o ∈ d.human, o.tag = .equal → c.hashes o.base = c.hashes o.race
  distance : d.distance = 0 ↔ c.hashes xs = c.hashes ys

/-- A slice of mapped elements. -/
theorem map_slice {α β : Type} (f : α → β) (xs : List α) (i j : Nat) :
    (slice xs i j).map f = slice (xs.map f) i j := by
  rw [slice, slice, List.map_drop, List.map_take]

/-- A distance is zero if and only if all steps are equal. -/
theorem distance_eq_zero_iff (d : Diff) : d.distance = 0 ↔ ∀ o ∈ d.opcodes, o.tag = .equal := by
  simp [Diff.distance, List.countP_eq_zero]

/-- Something has changed if and only if the distance is not zero. -/
theorem any_changed_iff (d : Diff) :
    (d.opcodes.any fun o => o.tag ≠ .equal) = true ↔ d.distance ≠ 0 := by
  rw [Ne, distance_eq_zero_iff]
  simp

/-- `diff` gives a difference. -/
theorem isDiff_diff (c : Comparer X) (base race : List ZipItem) :
    IsDiff c base race (diff c base race) where
  base := by
    rw [diff, List.flatMap_map]
    exact flatMap_first _ _ (List.length_map _).symm
  race := by
    rw [diff, List.flatMap_map]
    exact flatMap_second _ _ (List.length_map _).symm
  equal o ho htag := by
    obtain ⟨opcode, hopcode, rfl⟩ := List.mem_map.mp ho
    have hstep := (tiles_getOpcodes (c.hashes base) (c.hashes race)).step hopcode
    rw [Comparer.hashes, Comparer.hashes, map_slice, map_slice]
    cases hstep with
    | equal _ _ heq => exact heq
    | replace | delete | insert => simp at htag
  distance := by
    rw [distance_eq_zero_iff]
    exact forall_equal_iff

/-- Marking the first step that is not equal changes no step. -/
theorem markFirstUnequal_fst (seen : Bool) (opcodes : List HumanOpcode) :
    (markFirstUnequal seen opcodes).map Prod.fst = opcodes := by
  induction opcodes generalizing seen with
  | nil => rfl
  | cons o rest ih => rw [markFirstUnequal, List.map_cons, ih]

/-- What changes something is marked, unless something before it does. -/
theorem markFirstUnequal_snd (seen : Bool) {before rest : List HumanOpcode} {o : HumanOpcode} :
    ((markFirstUnequal seen (before ++ o :: rest))[before.length]?).map Prod.snd =
      some (!seen && o.tag ≠ .equal && before.all fun o => o.tag = .equal) := by
  induction before generalizing seen with
  | nil => simp [markFirstUnequal]
  | cons first before ih =>
    rw [List.cons_append, markFirstUnequal, List.length_cons, List.getElem?_cons_succ, ih]
    cases seen <;> simp [Bool.and_comm, Bool.and_assoc]

/-! ## The comparison -/

/-- The lists of warnings that are compared. -/
def comparedErrors (base race : RaceContent) : List ZipItem × List ZipItem :=
  removeNewEventAction (base.errors.map .report) (race.errors.map .report)

/-- The merged schedules that are compared. -/
def comparedZip (base race : RaceContent) : List ZipItem × List ZipItem :=
  removeNewEventAction base.zipErrorsSchedule race.zipErrorsSchedule

/-- The pages and the screenshots are the same, and so are the errors, but for a last one about a
    new event action, and the exceptions. -/
def Equal (c : Comparer X) (baseData raceData : RaceData RaceContent) : Prop :=
  baseData.content.htmlState = raceData.content.htmlState ∧
    (c.compareImages baseData.handle raceData.handle).1 = "normal".toList ∧
    c.isZero (c.compareImages baseData.handle raceData.handle).2 = true ∧
    c.hashes (comparedErrors baseData.content raceData.content).1 =
      c.hashes (comparedErrors baseData.content raceData.content).2 ∧
    c.hashes (baseData.content.exceptions.map .report) =
      c.hashes (raceData.content.exceptions.map .report)

/-- What the comparison shows of two runs, and when it calls them equal. -/
structure Shows (c : Comparer X) (baseData raceData : RaceData RaceContent)
    (comparison : Comparison (Distances X)) (diffs : RaceDiffs) : Prop where
  errors : IsDiff c (comparedErrors baseData.content raceData.content).1
    (comparedErrors baseData.content raceData.content).2 diffs.errorsDiff
  exceptions : IsDiff c (baseData.content.exceptions.map .report)
    (raceData.content.exceptions.map .report) diffs.exceptionsDiff
  zip : ∃ d, IsDiff c (comparedZip baseData.content raceData.content).1
      (comparedZip baseData.content raceData.content).2 d ∧
    diffs.zipDiffHuman.map Prod.fst = d.human ∧ (diffs.zipDiffHasUnequal = true ↔ d.distance ≠ 0)
  /-- of the steps between the merged schedules only the first that changes something is marked -/
  firstUnequal : ∀ before o rest, diffs.zipDiffHuman.map Prod.fst = before ++ o :: rest →
    (diffs.zipDiffHuman[before.length]?).map Prod.snd =
      some (o.tag ≠ .equal && before.all fun o => o.tag = .equal)
  distances : comparison.distances.errorsDiffDistance = diffs.errorsDiff.distance ∧
    comparison.distances.exceptionsDiffDistance = diffs.exceptionsDiff.distance
  isEqual : comparison.isEqual = true ↔ Equal c baseData raceData

/-- An image is `EXACT` if and only if it was compared as a whole and does not differ. -/
theorem cimageHuman_eq_exact_iff {c : Comparer X} {type : StdString} {distance : X} :
    cimageHuman c type distance = "EXACT".toList ↔
      type = "normal".toList ∧ c.isZero distance = true := by
  unfold cimageHuman
  split
  · rename_i htype
    split
    · rename_i hzero
      exact iff_of_true rfl ⟨htype, hzero⟩
    · rename_i hzero
      exact iff_of_false (by decide) fun h => hzero h.2
  · rename_i htype
    refine iff_of_false ?_ fun h => htype h.1
    split
    · decide
    · decide

/-- Two runs are equal if and only if all four comparisons say so. -/
theorem isEqual_iff {html visual : Bool} {errors exceptions : Nat} :
    (html && visual && errors == 0 && exceptions == 0) = true ↔
      html = true ∧ visual = true ∧ errors = 0 ∧ exceptions = 0 := by
  simp [and_assoc]

/-- When two runs are called equal. -/
theorem compareRace_isEqual {c : Comparer X} {erClassificationDetails : StdString}
    {baseData raceData : RaceData RaceContent} {result : Comparison (Distances X) × RaceDiffs}
    (h : compareRace c erClassificationDetails baseData raceData = some result) :
    result.1.isEqual = true ↔ Equal c baseData raceData := by
  obtain ⟨verdict, -, rfl⟩ := Option.map_eq_some_iff.mp h
  have herrors := isDiff_diff c (comparedErrors baseData.content raceData.content).1
    (comparedErrors baseData.content raceData.content).2
  have hexceptions := isDiff_diff c (baseData.content.exceptions.map .report)
    (raceData.content.exceptions.map .report)
  refine isEqual_iff.trans (and_congr beq_iff_eq ?_)
  exact (and_congr (beq_iff_eq.trans cimageHuman_eq_exact_iff)
    (and_congr herrors.distance hexceptions.distance)).trans and_assoc

/-- What the comparison shows is right: the pieces of every difference make up the two lists of
    items, a piece that is not changed is the same in both, and the distance is 0 only if the
    lists are the same; and two runs are equal if their pages and screenshots are and the same
    warnings and exceptions were collected in the same order, but for a last warning about a new
    event action that both have. -/
theorem compareRace_spec {c : Comparer X} {erClassificationDetails : StdString}
    {baseData raceData : RaceData RaceContent} {comparison : Comparison (Distances X)}
    {diffs : RaceDiffs}
    (h : compareRace c erClassificationDetails baseData raceData = some (comparison, diffs)) :
    Shows c baseData raceData comparison diffs := by
  have hequal := compareRace_isEqual h
  obtain ⟨verdict, -, heq⟩ := Option.map_eq_some_iff.mp h
  obtain ⟨rfl, rfl⟩ := Prod.mk.inj heq
  have hzip := isDiff_diff c (comparedZip baseData.content raceData.content).1
    (comparedZip baseData.content raceData.content).2
  refine ⟨isDiff_diff c _ _, isDiff_diff c _ _, ⟨_, hzip, markFirstUnequal_fst _ _, ?_⟩, ?_,
    ⟨rfl, rfl⟩, hequal⟩
  · exact any_changed_iff _
  · intro before o rest hsplit
    dsimp only at hsplit ⊢
    rw [markFirstUnequal_fst] at hsplit
    rw [hsplit, markFirstUnequal_snd]
    rfl

/-- A comparer for which all screenshots are the same, and a hash of the texts. -/
def plainComparer : Comparer Nat where
  hash items := items.foldl (fun h item => item.2.foldl (fun h c => 31 * h + c.toNat) (31 * h)) 7
  compareImages _ _ := ("normal".toList, 0)
  isZero distance := distance == 0
  getAbstractMemory _ _ _ := Dict.empty
  hasMemoryStats _ _ := false

/-- A run that ends with a warning about a new event action. -/
def endsWithNewEvent (handle eventAction : String) : RaceData RaceContent where
  handle := handle.toList
  origin := none
  result := "FINISHED".toList
  content :=
    { errors := [(.error, ⟨"4".toList, "Network".toList, "Request".toList, "a".toList⟩),
        (.error, ⟨"5".toList, "Scheduler".toList, "New event action observed".toList,
          eventAction.toList⟩)]
      exceptions := []
      zipErrorsSchedule := []
      htmlState := "12".toList
      raceFirst := .unset
      raceSecond := .unset
      outputRaceFirst := none
      outputRaceSecond := none
      newEvents := []
      numNewEvents := 0
      numSkippedEvents := 0 }

/-- Two runs that differ in the new event action are equal. -/
theorem compareRace_spec_of_newEvents :
    ∃ comparison diffs, compareRace plainComparer [] (endsWithNewEvent "base" "3-A()")
        (endsWithNewEvent "race1" "3-B()") = some (comparison, diffs) ∧
      comparison.isEqual = true ∧
      Shows plainComparer (endsWithNewEvent "base" "3-A()") (endsWithNewEvent "race1" "3-B()")
        comparison diffs := by
  have hrun : (compareRace plainComparer [] (endsWithNewEvent "base" "3-A()")
      (endsWithNewEvent "race1" "3-B()")).map (fun result => result.1.isEqual) = some true := by
    decide +kernel
  obtain ⟨⟨comparison, diffs⟩, hresult, hequal⟩ := Option.map_eq_some_iff.mp hrun
  exact ⟨comparison, diffs, hresult, hequal, compareRace_spec hresult⟩

end R4.ReportReader
