import R4.Native.ReportReader

/-!
# The schedule of a report

`parse_race` (`utils/batch-report/report.py`), as far as it reads the schedules of a run. The
schedule that was asked for, `new_schedule.data`, names the two racing event actions by a marker
in front of each. The schedule that was run has no markers, so they are put back into the rows
that are shown.
-/

namespace R4.ReportReader

/-- A row of the schedule. The id of a marker is -1, here `none`, and no text. -/
structure ScheduleRow where
  eventActionId : Option StdString
  eventActionDescriptor : StdString
deriving DecidableEq

/-- `raceFirst` and `raceSecond`: the empty text, `None` behind a marker, or the event action that
    follows it. -/
inductive Race where
  | unset
  | awaited
  | event (eventActionId descriptor : StdString)
deriving DecidableEq

/-- The state of the loop over `new_schedule.data`. -/
structure RaceScan where
  raceFirst : Race
  raceFirstIndex : Int
  raceSecond : Race
  raceSecondIndex : Int
  index : Nat
deriving DecidableEq

namespace RaceScan

/-- The state before the loop. -/
def init : RaceScan := ⟨.unset, -1, .unset, -1, 0⟩

/-- A line with a marker: the next line is to be saved. -/
def marker (s : RaceScan) (line : StdString) : RaceScan :=
  let s := if contains "<change>" line then { s with raceFirst := .awaited } else s
  if contains "<relax>" line then { s with raceSecond := .awaited } else s

/-- A line with an event action: the races that are awaited are this one. -/
def event (s : RaceScan) (eventActionId descriptor : StdString) : RaceScan :=
  let s :=
    if s.raceFirst = .awaited then
      { s with raceFirst := .event eventActionId descriptor, raceFirstIndex := s.index }
    else s
  if s.raceSecond = .awaited then
    { s with raceSecond := .event eventActionId descriptor, raceSecondIndex := s.index }
  else s

/-- The body of the loop; `none` is a `ValueError`. -/
def line (s : RaceScan) (line : StdString) : Option RaceScan :=
  if line = [] then some s
  else
    let next :=
      if contains "<relax>" line ∨ contains "<change>" line then some (s.marker line)
      else
        match Python.split1 ';' line with
        | [eventActionId, descriptor] => some (s.event eventActionId descriptor)
        | _ => none
    -- the index counts the markers too
    next.map fun s => { s with index := s.index + 1 }

end RaceScan

/-- The loop over `new_schedule.data`. -/
def scanRaces (s : RaceScan) (lines : List (List UInt8)) : Option RaceScan :=
  lines.foldlM (fun s line => s.line (decode line)) s

/-- `output_race_first` and `output_race_second`: if one is missing, both are `None`. -/
def outputRaces (lines : List (List UInt8)) (raceFirstIndex raceSecondIndex : Int) :
    Option (List StdString) × Option (List StdString) :=
  let races := do
    -- subtract 1 for the missing <change> marker
    let first ← Python.index lines (raceFirstIndex - 1)
    -- subtract 2 for <change> and <relax> markers
    let second ← Python.index lines (raceSecondIndex - 2)
    return (Python.split1 ';' (decode first), Python.split1 ';' (decode second))
  (races.map Prod.fst, races.map Prod.snd)

/-- The loop over the output schedule, which puts the markers back; `none` is a `ValueError`. -/
def insertMarkers (raceFirstIndex raceSecondIndex : Int) :
    Nat → List (List UInt8) → Option (List ScheduleRow)
  | _, [] => some []
  | index, bytes :: lines =>
    let line := decode bytes
    if line = [] then insertMarkers raceFirstIndex raceSecondIndex index lines
    else
      let change : List ScheduleRow :=
        if (index : Int) = raceFirstIndex then [⟨none, "<change>".toList⟩] else []
      let relax : List ScheduleRow :=
        if (index : Int) = raceSecondIndex then [⟨none, "<relax>".toList⟩] else []
      match Python.split1 ';' line with
      | [eventActionId, descriptor] =>
        (insertMarkers raceFirstIndex raceSecondIndex (index + 1) lines).map fun rows =>
          change ++ relax ++ ⟨some eventActionId, descriptor⟩ :: rows
      | _ => none

/-- What is read of the two schedules. -/
structure ParsedSchedule where
  schedule : List ScheduleRow
  raceFirst : Race
  raceSecond : Race
  outputRaceFirst : Option (List StdString)
  outputRaceSecond : Option (List StdString)
deriving DecidableEq

/-- `parse_race`, on the contents of `new_schedule.data` and of the output schedule. -/
def parseSchedule (scheduleFile outputScheduleFile : List UInt8) : Option ParsedSchedule := do
  let scan ← scanRaces .init (Python.readlines scheduleFile)
  let lines := Python.readlines outputScheduleFile
  let (outputRaceFirst, outputRaceSecond) :=
    outputRaces lines scan.raceFirstIndex scan.raceSecondIndex
  let schedule ← insertMarkers scan.raceFirstIndex scan.raceSecondIndex 0 lines
  return ⟨schedule, scan.raceFirst, scan.raceSecond, outputRaceFirst, outputRaceSecond⟩

end R4.ReportReader
