import R4.Native.ReplayScheduler
import R4.Native.ReportProcess
import R4.Native.ReportZip

/-!
# The files of a race

`parse_race` (`utils/batch-report/report.py`) as a whole: what is read from the directory of a
run, and what `Replay` prints at its end (`clients/Replay/main.cpp`), from which the result and the
state of the page are taken.
-/

namespace R4.ReportReader

open StdString

/-! ## What a replay prints -/

/-- The last lines of `slSchedulerDone`: the result, and the sum of the hashes of the frames. -/
def closingLines (state : ReplaySchedulerState) (htmlHash : UInt32) : StdString :=
  (match state with
    | .finished => "Schedule executed successfully\nResult: FINISHED\n"
    | .timeout => "Schedule partially executed, timed out before finishing.\nResult: TIMEOUT\n"
    | .error => "Schedule partially executed, could not finish schedule!\nResult: ERROR\n"
    | .running => "Scheduler stopped for an unknown reason.\nResult: ERROR\n").toList ++
  "HTML-hash: ".toList ++ decimal htmlHash.toNat ++ ['\n']

/-! ## What the report reads -/

/-- `re.compile('literal([class]+)').search(s)`: the group of the first match. -/
def search (literal : String) (isInClass : Char → Bool) : StdString → Option StdString
  | [] => none
  | c :: s =>
    let group := ((c :: s).drop literal.length).takeWhile isInClass
    if literal.toList <+: c :: s ∧ group ≠ [] then some group else search literal isInClass s

/-- `[A-Z]`. -/
def isUpper (c : Char) : Bool := 'A' ≤ c && c ≤ 'Z'

/-- The directory of a run. A file that is not there is `none`. Where there are two names for a
    file (`out.errors.log` and `errors.log`, `stdout` and `stdout.txt`, `out.schedule.data` and
    `schedule.data`), it is the one that is opened. -/
structure RunDirectory where
  errors : Option (List UInt8)
  stdout : Option (List UInt8)
  origin : Option (List UInt8)
  newSchedule : Option (List UInt8)
  outputSchedule : Option (List UInt8)

/-- What `parse_race` returns, but for the handle, the origin and the result. -/
structure RaceContent where
  errors : List (ErrorType × ErrorRecord)
  exceptions : List (ErrorType × ErrorRecord)
  zipErrorsSchedule : List ZipItem
  htmlState : StdString
  raceFirst : Race
  raceSecond : Race
  outputRaceFirst : Option (List StdString)
  outputRaceSecond : Option (List StdString)
  newEvents : List StdString
  numNewEvents : Int
  numSkippedEvents : Int

/-- An exception that is not a `RaceParseException`. -/
def orRaise {α : Type} (x : Option α) : Except ParseError α :=
  match x with
  | none => .error .other
  | some a => .ok a

/-- `parse_race`: the origin, the result, and the rest. -/
def parseRaceFiles (files : RunDirectory) :
    Except ParseError (Option StdString × StdString × RaceContent) := do
  let errorsFile ←
    match files.errors with
    | none => throw .raceParseException
    | some bytes => pure bytes
  let (parsed, _) ← orRaise (parseErrors .init errorsFile)
  let stdout := decode (← orRaise files.stdout)
  let result := (search "Result: " isUpper stdout).getD "ERROR".toList
  let htmlState := (search "HTML-hash: " Char.isDigit stdout).getD "ERROR".toList
  let origin := files.origin.map fun bytes => Python.strip (decode bytes)
  let newSchedule ← orRaise files.newSchedule
  let outputSchedule ← orRaise files.outputSchedule
  let schedules ← orRaise (parseSchedule newSchedule outputSchedule)
  return (origin, result,
    { errors := parsed.errors
      exceptions := parsed.exceptions
      zipErrorsSchedule := zipErrorsSchedule schedules.schedule parsed.errors parsed.exceptions
      htmlState
      raceFirst := schedules.raceFirst
      raceSecond := schedules.raceSecond
      outputRaceFirst := schedules.outputRaceFirst
      outputRaceSecond := schedules.outputRaceSecond
      newEvents := parsed.newEvents
      numNewEvents := parsed.numNewEvents
      numSkippedEvents := parsed.numSkippedEvents })

end R4.ReportReader
