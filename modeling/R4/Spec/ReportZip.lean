import R4.Native.ReportZip

/-!
# The schedule with its errors

Merging the errors and exceptions of a run into its schedule loses none of them and invents none,
also where an id is repeated or has no event action: the buckets hold everything but the markers,
and every bucket is emitted once.

## Key results

- `zipSchedule_perm`: what the loop over the schedule takes out of the buckets
- `zipSchedule_eq`: what it emits if the ids are distinct
- `zip_conserves`: the merged schedule
-/

namespace R4.ReportReader

open Python (Dict)

variable {schedule : List ScheduleRow} {errors exceptions : List (ErrorType × ErrorRecord)}

/-- Everything that is to be merged. -/
def zipItems (schedule : List ScheduleRow) (errors exceptions : List (ErrorType × ErrorRecord)) :
    List ZipItem :=
  schedule.map .row ++ errors.map .report ++ exceptions.map .report

/-! ## The buckets -/

/-- A bucket has the items with its id, those of the schedule first. -/
theorem bucket_zipBuckets (id : StdString) :
    (zipBuckets schedule errors exceptions).bucket id =
      (zipItems schedule errors exceptions).filter fun x => x.eventActionId = some id := by
  rw [zipBuckets, Dict.bucket_addAll, Dict.bucket_addAll, Dict.bucket_addAll, zipItems,
    List.filter_append, List.filter_append]
  rfl

/-- The buckets have everything but the markers. -/
theorem contents_zipBuckets : (zipBuckets schedule errors exceptions).contents.Perm
    ((zipItems schedule errors exceptions).filter fun x => x.eventActionId.isSome) := by
  rw [zipBuckets, zipItems, List.filter_append, List.filter_append]
  refine (Dict.contents_addAll ..).trans (List.Perm.append_right _ ?_)
  refine (Dict.contents_addAll ..).trans (List.Perm.append_right _ ?_)
  exact Dict.contents_addAll ..

/-! ## The loop over the schedule -/

/-- The loop takes buckets out of the dictionary and adds the markers. -/
theorem zipSchedule_perm (rows : List ScheduleRow) (buckets : Dict StdString (List ZipItem)) :
    ((zipSchedule rows buckets).1 ++ (zipSchedule rows buckets).2.contents).Perm
      ((rows.filter fun row => row.eventActionId.isNone).map .row ++ buckets.contents) := by
  induction rows generalizing buckets with
  | nil => exact List.Perm.refl _
  | cons row rows ih =>
    rw [zipSchedule]
    cases hid : row.eventActionId with
    | none =>
      -- a row without an id stands for itself
      rw [List.filter_cons_of_pos (by simp [hid])]
      exact (ih buckets).cons _
    | some id =>
      -- a row with an id stands for its bucket
      rw [List.filter_cons_of_neg (by simp [hid])]
      dsimp only
      -- the bucket has been used before
      cases hget : buckets.get? id with
      | none => exact ih buckets
      | some bucket =>
        -- what is in the bucket goes from the buckets to the schedule
        have hbucket : buckets.bucket id = bucket := by rw [Dict.bucket, hget, Option.getD_some]
        have hcontents := buckets.contents_perm id
        rw [hbucket] at hcontents
        dsimp only
        rw [List.append_assoc]
        refine ((ih _).append_left bucket).trans ?_
        exact List.perm_append_comm_assoc .. |>.trans (hcontents.symm.append_left _)

/-- The buckets of the ids in the schedule are gone. -/
theorem bucket_zipSchedule (rows : List ScheduleRow) (buckets : Dict StdString (List ZipItem))
    (id : StdString) : (zipSchedule rows buckets).2.bucket id =
      if some id ∈ rows.map ScheduleRow.eventActionId then [] else buckets.bucket id := by
  induction rows generalizing buckets with
  | nil => rfl
  | cons row rows ih =>
    rw [zipSchedule, List.map_cons]
    -- a row without an id changes no bucket
    cases hid : row.eventActionId with
    | none =>
      dsimp only
      rw [ih]
      simp
    | some id' =>
      dsimp only
      cases hget : buckets.get? id' with
      | none =>
        -- a bucket that is not there is empty
        dsimp only
        rw [ih]
        by_cases h : id = id'
        · subst h
          have hnil : buckets.bucket id = [] := by rw [Dict.bucket, hget, Option.getD_none]
          rw [hnil, ite_self, ite_self]
        · simp [h]
      | some bucket =>
        -- a bucket that is used is deleted
        dsimp only
        rw [ih, Dict.bucket_delete]
        by_cases h : id = id'
        · simp [h]
        · simp [h]

/-- If no id is repeated, every row is replaced by its bucket. -/
theorem zipSchedule_eq {rows : List ScheduleRow}
    (h : (rows.filterMap ScheduleRow.eventActionId).Nodup)
    (buckets : Dict StdString (List ZipItem)) :
    (zipSchedule rows buckets).1 = rows.flatMap fun row =>
      match row.eventActionId with
      | none => [.row row]
      | some id => buckets.bucket id := by
  induction rows generalizing buckets with
  | nil => rfl
  | cons row rows ih =>
    rw [zipSchedule, List.flatMap_cons]
    cases hid : row.eventActionId with
    | none =>
      rw [List.filterMap_cons_none hid] at h
      dsimp only
      rw [ih h]
      rfl
    | some id =>
      rw [List.filterMap_cons_some hid] at h
      obtain ⟨hfresh, hnodup⟩ := List.nodup_cons.mp h
      dsimp only
      cases hget : buckets.get? id with
      | none =>
        dsimp only
        rw [ih hnodup, Dict.bucket, hget]
        rfl
      | some bucket =>
        dsimp only
        rw [ih hnodup, Dict.bucket, hget, Option.getD_some]
        refine congrArg (bucket ++ ·) (List.flatMap_congr fun row' hrow' => ?_)
        -- the buckets of the other rows are still there
        cases hid' : row'.eventActionId with
        | none => rfl
        | some id' =>
          dsimp only
          rw [Dict.bucket_delete, if_neg]
          rintro rfl
          exact hfresh (List.mem_filterMap.mpr ⟨row', hrow', hid'⟩)

/-! ## The merged schedule -/

/-- The rows of the schedule among the items. -/
def ZipItem.asRow : ZipItem → Option ScheduleRow
  | .row r => some r
  | .report _ => none

/-- The entries with the id of a row, in their order. -/
def reportedWith (row : ScheduleRow) (entries : List (ErrorType × ErrorRecord)) :
    List (ErrorType × ErrorRecord) :=
  entries.filter fun entry => row.eventActionId = some entry.2.eventActionId

/-- A row and what is reported with its id: the errors, and then the exceptions. -/
def withReports (errors exceptions : List (ErrorType × ErrorRecord)) (row : ScheduleRow) :
    List ZipItem :=
  .row row :: (reportedWith row errors ++ reportedWith row exceptions).map .report

/-- The row of an id that is not repeated. -/
theorem filter_eventActionId {rows : List ScheduleRow}
    (h : (rows.filterMap ScheduleRow.eventActionId).Nodup) {row : ScheduleRow} (hrow : row ∈ rows)
    {id : StdString} (hid : row.eventActionId = some id) :
    rows.filter (fun row => row.eventActionId = some id) = [row] := by
  induction rows with
  | nil => exact absurd hrow List.not_mem_nil
  | cons row' rows ih =>
    -- the ids of the rows behind this one differ from its id
    have hrest : ∀ {row}, row ∈ rows → row.eventActionId = some id →
        (rows.filterMap ScheduleRow.eventActionId).Nodup ∧
          row'.eventActionId ≠ some id := by
      intro row hrow hid
      cases hid' : row'.eventActionId with
      | none =>
        -- a row without an id
        rw [List.filterMap_cons_none hid'] at h
        exact ⟨h, by simp⟩
      | some id' =>
        -- a row with an id of its own
        rw [List.filterMap_cons_some hid'] at h
        obtain ⟨hfresh, hnodup⟩ := List.nodup_cons.mp h
        refine ⟨hnodup, ?_⟩
        rintro heq
        obtain rfl := Option.some.inj heq
        exact hfresh (List.mem_filterMap.mpr ⟨row, hrow, hid⟩)
    -- the row is this one, and none of the others has its id
    rcases List.mem_cons.mp hrow with rfl | hrow
    · rw [List.filter_cons_of_pos (by simpa using hid)]
      refine congrArg (row :: ·) (List.filter_eq_nil_iff.mpr fun other hother hother' => ?_)
      exact (hrest hother (by simpa using hother')).2 hid
    · -- the row is one of the others
      obtain ⟨hnodup, hne⟩ := hrest hrow hid
      rw [List.filter_cons_of_neg (by simpa using hne)]
      exact ih hnodup hrow

/-- The bucket of a row whose id is not repeated. -/
theorem bucket_of_row (h : (schedule.filterMap ScheduleRow.eventActionId).Nodup)
    {row : ScheduleRow} (hrow : row ∈ schedule) {id : StdString}
    (hid : row.eventActionId = some id) :
    (zipBuckets schedule errors exceptions).bucket id = withReports errors exceptions row := by
  -- the reports with this id are those of the row
  have hreported : ∀ entries : List (ErrorType × ErrorRecord),
      (entries.map ZipItem.report).filter (fun x => x.eventActionId = some id) =
        (reportedWith row entries).map .report := by
    intro entries
    rw [List.filter_map, reportedWith]
    refine congrArg (List.map _) (List.filter_congr fun entry _ => ?_)
    simp [hid, eq_comm]
  -- the row is the only one with this id
  have hrows : (schedule.map ZipItem.row).filter (fun x => x.eventActionId = some id) =
      [.row row] := by
    rw [List.filter_map]
    exact congrArg (List.map ZipItem.row) (filter_eventActionId h hrow hid)
  rw [bucket_zipBuckets, zipItems, List.filter_append, List.filter_append, hrows, hreported,
    hreported, withReports, List.map_append, List.append_assoc]
  rfl

/-- The markers are what is in no bucket. -/
theorem filter_isNone_zipItems :
    (zipItems schedule errors exceptions).filter (fun x => x.eventActionId.isNone) =
      (schedule.filter fun row => row.eventActionId.isNone).map .row := by
  have hreport : ∀ entries : List (ErrorType × ErrorRecord),
      (entries.map ZipItem.report).filter (fun x => x.eventActionId.isNone) = [] := by
    intro entries
    rw [List.filter_map, List.filter_eq_nil_iff.mpr fun _ _ => by simp, List.map_nil]
  rw [zipItems, List.filter_append, List.filter_append, hreport, hreport, List.filter_map,
    List.append_nil, List.append_nil]
  rfl

/-- If no id is repeated, the loop emits every row with what is reported with its id. -/
theorem zipSchedule_zipBuckets (h : (schedule.filterMap ScheduleRow.eventActionId).Nodup)
    (errors exceptions : List (ErrorType × ErrorRecord)) :
    (zipSchedule schedule (zipBuckets schedule errors exceptions)).1 =
      schedule.flatMap (withReports errors exceptions) := by
  rw [zipSchedule_eq h]
  refine List.flatMap_congr fun row hrow => ?_
  cases hid : row.eventActionId with
  | none => simp [withReports, reportedWith, hid]
  | some id => exact bucket_of_row h hrow hid

/-- What is left in the buckets is reported with an id that the schedule has not. -/
theorem report_of_mem_contents {item : ZipItem}
    (h : item ∈ (zipSchedule schedule (zipBuckets schedule errors exceptions)).2.contents) :
    ∃ entry, item = .report entry ∧
      ∀ row ∈ schedule, row.eventActionId ≠ some entry.2.eventActionId := by
  obtain ⟨id, hitem⟩ := Dict.mem_contents_iff.mp h
  rw [bucket_zipSchedule] at hitem
  -- the bucket of a row is empty at the end
  split at hitem
  · exact absurd hitem List.not_mem_nil
  · rename_i hid
    rw [bucket_zipBuckets, List.mem_filter, decide_eq_true_eq] at hitem
    obtain ⟨hmem, hitemId⟩ := hitem
    cases item with
    | row row =>
      -- a row is in the bucket of its own id, which is used
      have hrow : row ∈ schedule := by simpa [zipItems] using hmem
      exact absurd (List.mem_map.mpr ⟨row, hrow, hitemId⟩) hid
    | report entry =>
      -- a report is left if no row has its id
      refine ⟨entry, rfl, fun row hrow heq => hid (List.mem_map.mpr ⟨row, hrow, ?_⟩)⟩
      rw [heq, ← hitemId, ZipItem.eventActionId_report]

/-- A row with its reports is one row. -/
theorem filterMap_asRow_withReports (row : ScheduleRow) :
    (withReports errors exceptions row).filterMap ZipItem.asRow = [row] := by
  rw [withReports, List.filterMap_cons_some (f := ZipItem.asRow) (b := row) rfl,
    List.filterMap_map]
  exact congrArg (row :: ·) (List.filterMap_eq_nil_iff.mpr fun entry _ => rfl)

/-- Merging the errors into the schedule loses nothing, and invents nothing. If no event action
    id is repeated in the schedule, it keeps the order of the schedule; an error or exception
    whose id is in the schedule stands behind the event action and before the next row, errors
    before exceptions and each in their order; and only the others stand at the end. -/
theorem zip_conserves (schedule : List ScheduleRow)
    (errors exceptions : List (ErrorType × ErrorRecord)) :
    (zipErrorsSchedule schedule errors exceptions).Perm
        (zipItems schedule errors exceptions) ∧
      ((schedule.filterMap ScheduleRow.eventActionId).Nodup →
        (zipErrorsSchedule schedule errors exceptions).filterMap ZipItem.asRow = schedule ∧
        ∃ others, zipErrorsSchedule schedule errors exceptions =
            schedule.flatMap (withReports errors exceptions) ++ others ∧
          ∀ item ∈ others, ∃ entry, item = .report entry ∧
            ∀ row ∈ schedule, row.eventActionId ≠ some entry.2.eventActionId) := by
  have hzip : zipErrorsSchedule schedule errors exceptions =
      (zipSchedule schedule (zipBuckets schedule errors exceptions)).1 ++
        (zipSchedule schedule (zipBuckets schedule errors exceptions)).2.contents := rfl
  constructor
  · -- the markers, and everything else
    rw [hzip]
    refine (zipSchedule_perm ..).trans ((contents_zipBuckets.append_left _).trans ?_)
    rw [← filter_isNone_zipItems]
    simp only [← Option.not_isNone]
    exact List.filter_append_perm ..
  · intro hnodup
    have hrows := zipSchedule_zipBuckets hnodup errors exceptions
    refine ⟨?_, _, by rw [hzip, hrows], fun item hitem => report_of_mem_contents hitem⟩
    have hnone : (zipSchedule schedule (zipBuckets schedule errors exceptions)).2.contents.filterMap
        ZipItem.asRow = [] := by
      refine List.filterMap_eq_nil_iff.mpr fun item hitem => ?_
      obtain ⟨entry, rfl, -⟩ := report_of_mem_contents hitem
      rfl
    rw [hzip, hrows, List.filterMap_append, hnone, List.append_nil, List.filterMap_flatMap]
    simp only [filterMap_asRow_withReports, List.flatMap_singleton']

/-- Two event actions behind a marker, with an error and an exception of the first, and an error
    of no event action. -/
theorem zip_conserves_of_reports :
    let record (id : String) : ErrorRecord := ⟨id.toList, [], [], []⟩
    let schedule : List ScheduleRow :=
      [⟨none, "<change>".toList⟩, ⟨some "1".toList, []⟩, ⟨some "2".toList, []⟩]
    ∃ others, zipErrorsSchedule schedule [(.error, record "7"), (.error, record "1")]
        [(.exception, record "1")] =
      schedule.flatMap (withReports [(.error, record "7"), (.error, record "1")]
        [(.exception, record "1")]) ++ others := by
  intro record schedule
  obtain ⟨others, hzip, -⟩ := ((zip_conserves schedule
    [(.error, record "7"), (.error, record "1")] [(.exception, record "1")]).2 (by decide)).2
  exact ⟨others, hzip⟩

end R4.ReportReader
