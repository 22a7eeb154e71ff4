import Mathlib.Data.List.Infix
import R4.ForStd.PythonFile

/-!
# The reader of the warnings

`parse_race` (`utils/batch-report/report.py`), as far as it reads the file of warnings of a
run and sorts them into errors and exceptions.
-/

namespace R4.ReportReader

/-- What is read of one warning. The id stays text. -/
structure ErrorRecord where
  eventActionId : StdString
  module : StdString
  description : StdString
  details : StdString
deriving DecidableEq

/-- The type of an entry. -/
inductive ErrorType where
  | error
  | exception
deriving DecidableEq, Repr

/-- The lists and counters that the loop fills. `records` is not stored by the source: it
    collects the records in the order in which they are read. -/
structure ParsedErrors where
  errors : List (ErrorType × ErrorRecord)
  exceptions : List (ErrorType × ErrorRecord)
  newEvents : List StdString
  numNewEvents : Int
  numSkippedEvents : Int
  records : List ErrorRecord

/-- The state before the loop. -/
def ParsedErrors.init : ParsedErrors := ⟨[], [], [], 0, 0, []⟩

/-- `needle in text`. -/
def contains (needle : String) (text : StdString) : Bool := needle.toList <:+: text

/-- Whether the details name an exception of the language. -/
def namesException (details : StdString) : Bool :=
  ["EvalError", "RangeError", "ReferenceError", "SyntaxError", "TypeError", "URIError"].any
    fun indicator => contains indicator details

/-- The list to which the record belongs; `none` is the `continue` in the loop. -/
def errorType (r : ErrorRecord) : Option ErrorType :=
  if contains "JavaScript_Interpreter" r.module then
    if contains "An exception occured" r.description ∧ namesException r.details then
      some .exception
    else some .error
  else if contains "console.log" r.module then
    if contains "ERROR" r.description ∧ namesException r.details then some .exception
    else none
  else some .error

/-- The body of the loop, once the record has been read. -/
def ParsedErrors.add (p : ParsedErrors) (r : ErrorRecord) : ParsedErrors :=
  let p := { p with records := p.records ++ [r] }
  match errorType r with
  | none => p
  | some type =>
    let p :=
      if contains "Non-executed event action" r.description then
        { p with newEvents := p.newEvents ++ [r.details], numNewEvents := p.numNewEvents + 1 }
      else p
    let skipped (description : String) : Bool :=
      contains "JavaScript_Interpreter" r.module && contains description r.description
    let p :=
      if skipped "Event action skipped after timeout." then
        { p with numSkippedEvents := p.numSkippedEvents + 1 }
      else p
    let p :=
      if skipped "Event action executed from pending schedule." then
        { p with numSkippedEvents := p.numSkippedEvents - 1 }
      else p
    match type with
    | .error => { p with errors := p.errors ++ [(type, r)] }
    | .exception => { p with exceptions := p.exceptions ++ [(type, r)] }

/-- `decode('utf8', 'ignore')`. -/
def decode (bytes : List UInt8) : StdString := Utf8.decodeIgnore bytes

/-- What the loop reads in one iteration: the record and the rest of the file, or nothing at
    the end. The outer `none` is a `ValueError`. -/
def readRecord (fp : List UInt8) : Option (Option (ErrorRecord × List UInt8)) :=
  let (line, fp) := Python.readline fp
  let header := decode line
  if header = [] then some none
  else
    match header.splitOn ';' with
    | [eventActionId, module, description, length] =>
      (Python.int length).map fun length =>
        if length = 0 then some (⟨eventActionId, module, description, []⟩, fp)
        else
          let (details, fp) := Python.read length fp
          some (⟨eventActionId, module, description, decode details⟩, fp)
    | _ => none

/-- Every record takes at least its header from the file. -/
theorem readRecord_length {fp rest : List UInt8} {r : ErrorRecord}
    (h : readRecord fp = some (some (r, rest))) : rest.length < fp.length := by
  -- a line that has a text takes something from the file
  have hline : (Python.readline fp).2.length < fp.length ∨ decode (Python.readline fp).1 = [] := by
    have happend := congrArg List.length (Python.readline_append fp)
    rw [List.length_append] at happend
    cases hnil : (Python.readline fp).1 with
    | nil =>
      right
      rw [decode, Utf8.decodeIgnore]
    | cons b line =>
      rw [hnil, List.length_cons] at happend
      left
      omega
  unfold readRecord at h
  dsimp only at h
  -- the file is at its end
  split at h
  · simp at h
  · rename_i hheader
    have hline := hline.resolve_right hheader
    split at h
    · rename_i length _
      obtain ⟨n, -, h⟩ := Option.map_eq_some_iff.mp h
      -- without details only the line is taken
      split at h
      · obtain rfl := (Prod.mk.inj (Option.some.inj h)).2
        exact hline
      · -- with details more is taken
        obtain rfl := (Prod.mk.inj (Option.some.inj h)).2
        exact Nat.lt_of_le_of_lt (Python.read_length_le n _) hline
    · simp at h

/-- The loop: the lists and counters at its end, and what is left of the file. -/
def parseErrors (p : ParsedErrors) (fp : List UInt8) : Option (ParsedErrors × List UInt8) :=
  match _h : readRecord fp with
  | none => none
  | some none => some (p, (Python.readline fp).2)
  | some (some (r, rest)) => parseErrors (p.add r) rest
termination_by fp.length
decreasing_by exact readRecord_length _h

end R4.ReportReader
