import R4.ForStd.PythonDict
import R4.Native.ReportSchedule

/-!
# Errors in the schedule of a report

`parse_race` (`utils/batch-report/report.py`), as far as it merges the errors and the exceptions
of a run into its schedule. They are sorted into buckets by the id of the event action, and the
bucket of an event action takes its place in the schedule.
-/

namespace R4.ReportReader

open Python (Dict)

/-- An item of the merged schedule: a row of the schedule, or an error or exception. -/
inductive ZipItem where
  | row (row : ScheduleRow)
  | report (entry : ErrorType × ErrorRecord)
deriving DecidableEq

namespace ZipItem

/-- `s['event_action_id']`; `none` is the -1 of a marker. -/
def eventActionId : ZipItem → Option StdString
  | .row r => r.eventActionId
  | .report entry => some entry.2.eventActionId

@[simp] theorem eventActionId_row (r : ScheduleRow) : (row r).eventActionId = r.eventActionId := rfl

@[simp] theorem eventActionId_report (entry : ErrorType × ErrorRecord) :
    (report entry).eventActionId = some entry.2.eventActionId := rfl

end ZipItem

/-- `buckets`, after the loops over the schedule, the errors and the exceptions. -/
def zipBuckets (schedule : List ScheduleRow) (errors exceptions : List (ErrorType × ErrorRecord)) :
    Dict StdString (List ZipItem) :=
  let buckets := Dict.addAll ZipItem.eventActionId .empty (schedule.map .row)
  let buckets := Dict.addAll ZipItem.eventActionId buckets (errors.map .report)
  Dict.addAll ZipItem.eventActionId buckets (exceptions.map .report)

/-- The second loop over the schedule: what it appends, and the buckets that are left. -/
def zipSchedule : List ScheduleRow → Dict StdString (List ZipItem) →
    List ZipItem × Dict StdString (List ZipItem)
  | [], buckets => ([], buckets)
  | s :: schedule, buckets =>
    match s.eventActionId with
    | none =>
      let (zip, buckets) := zipSchedule schedule buckets
      (.row s :: zip, buckets)
    | some eventActionId =>
      match buckets.get? eventActionId with
      -- the `KeyError` is caught
      | none => zipSchedule schedule buckets
      | some bucket =>
        let (zip, buckets) := zipSchedule schedule (buckets.delete eventActionId)
        (bucket ++ zip, buckets)

/-- `zip_errors_schedule`. -/
def zipErrorsSchedule (schedule : List ScheduleRow)
    (errors exceptions : List (ErrorType × ErrorRecord)) : List ZipItem :=
  let (zip, buckets) := zipSchedule schedule (zipBuckets schedule errors exceptions)
  zip ++ buckets.values.flatten

end R4.ReportReader
