import Mathlib.Data.List.Infix
import R4.ForStd.PythonDict
import R4.ForStd.PythonFile
import R4.Native.ActionLog
import R4.Native.Schedule

/-!
# The check of the happens-before arcs

When a run ends, `Record` and `Replay` (`clients/Record/main.cpp`, `clients/Replay/main.cpp`)
write the arcs that were logged to `arcs.log`, next to the schedule of the run.
`utils/checkhb.py` reads both files and complains about every arc between two event actions of
the schedule that does not go downwards in it.
-/

namespace R4

open StdString

/-- The line of an arc in `arcs.log`, without its newline. -/
def arcLine (arc : Arc) : StdString :=
  decimalInt arc.tail ++ " -> ".toList ++ decimalInt arc.head

/-- The loop that writes `arcs.log`. -/
def writeArcs (arcs : List Arc) : StdString := arcs.flatMap fun arc => arcLine arc ++ ['\n']

namespace CheckHB

open Python (Dict)

/-- `'<relax>' in line`. -/
def isRelax (line : StdString) : Bool := "<relax>".toList <:+: line

/-- The loop over the schedule, which fills `idToLine`. A marker for a relaxed replay has no id.
    `none` is a `ValueError`. -/
def loadSchedule : List StdString → Nat → Dict Int Nat → Option (Dict Int Nat)
  | [], _, idToLine => some idToLine
  | line :: lines, linenum, idToLine =>
    -- the number is increased before it is used, so the first line is line 2
    let linenum := linenum + 1
    if isRelax line then loadSchedule lines linenum idToLine
    else
      match Python.split1 ';' line with
      | [idnum, _] =>
        (Python.int idnum).bind fun id => loadSchedule lines linenum (idToLine.set id linenum)
      | _ => none

/-- The complaint that is printed. -/
def notOrdered (tail head : Int) (tailLine headLine : Nat) : StdString :=
  "Error, ".toList ++ decimalInt tail ++ " -> ".toList ++ decimalInt head ++
    " is not ordered, see line ".toList ++ decimal tailLine ++ " and ".toList ++ decimal headLine

/-- The condition on one arc, and what is printed when it fails. -/
def checkArc (idToLine : Dict Int Nat) (tail head : Int) : Option StdString :=
  match idToLine.get? tail, idToLine.get? head with
  | some tailLine, some headLine =>
    if tailLine < headLine then none else some (notOrdered tail head tailLine headLine)
  | _, _ => none

/-- One line of `arcs.log`. -/
def checkLine (idToLine : Dict Int Nat) (line : StdString) : Option (Option StdString) :=
  match Python.split "->".toList line with
  | [tailRaw, headRaw] => do
    let tail ← Python.int (Python.strip tailRaw)
    let head ← Python.int (Python.strip headRaw)
    pure (checkArc idToLine tail head)
  | _ => none

/-- `checkhb.py arcs.log schedule.data`: what it prints. -/
def checkhb (arcs schedule : StdString) : Option (List StdString) := do
  let idToLine ← loadSchedule (Python.textLines schedule) 1 Dict.empty
  let complaints ← (Python.textLines arcs).mapM (checkLine idToLine)
  pure complaints.reduceOption

end CheckHB

end R4
