import R4.ForStd.PythonDict
import R4.Native.ReportReader

/-!
# The heap comparison of a report

`anon` and `abstract_memory_equal` (`utils/batch-report/report.py`): the memory of the two racing
event actions in the original and in the reordered run. Addresses and ids differ between runs, so
they are replaced in both, and what is compared is the set of the `location=value` texts.
-/

namespace R4.ReportReader

open Python (Dict)

/-- A value of a memory map: the text that was logged, or a count of accesses. -/
inductive MemoryValue where
  | text (s : StdString)
  | count (n : Int)
deriving DecidableEq

/-- `str(value)`. -/
def MemoryValue.str : MemoryValue → StdString
  | .text s => s
  | .count n => StdString.decimalInt n

/-- A memory map, from locations to values. -/
abbrev Memory := Dict StdString MemoryValue

/-! ## Anonymous texts -/

/-- The length of a match of `literal[class]+` at the front of the text. -/
def matchRun (literal : String) (isInClass : Char → Bool) (s : StdString) : Option Nat :=
  if literal.toList <+: s then
    let run := (s.drop literal.length).takeWhile isInClass
    if run = [] then none else some (literal.length + run.length)
  else none

/-- The length of a match of `\[.*\]` at the front of the text: up to the last bracket of the
    line. -/
def matchBrackets : StdString → Option Nat
  | '[' :: s =>
    let line := s.takeWhile (· ≠ '\n')
    if ']' ∈ line then some (1 + (line.reverse.dropWhile (· ≠ ']')).length) else none
  | _ => none

/-- `[abcdef0-9]`. -/
def isHexDigit (c : Char) : Bool := c.isDigit || "abcdef".toList.contains c

/-- The length of a match of `RE_value_with_memory` at the front of the text: the first
    alternative that matches. -/
def matchValue (s : StdString) : Option Nat :=
  (matchBrackets s).or <|
  (matchRun "event action " Char.isDigit s).or <|
  (matchRun "IO_" Char.isDigit s).or <|
  (matchRun ":0x" (fun c => isHexDigit c || c == '-') s).or <|
  (matchRun ":" Char.isDigit s).or <|
  (matchRun "0x" isHexDigit s).or <|
  matchRun "x_x" Char.isDigit s

/-- The characters behind the `skip` next ones, with every match replaced. -/
def subValues : Nat → StdString → StdString
  | _, [] => []
  | skip + 1, _ :: s => subValues skip s
  | 0, c :: s =>
    match matchValue (c :: s) with
    | some length => "[??]".toList ++ subValues (length - 1) s
    | none => c :: subValues 0 s

/-- `RE_value_with_memory.sub('[??]', s)`. -/
def anonText (s : StdString) : StdString := subValues 0 s

example : anonText "a[0][1]:0x1f-2 0xg :0xg event action 12".toList =
    "a[??][??] 0xg [??]xg [??]".toList := by decide +kernel

/-- `anon(value, known_ids)`. -/
def anon (value : MemoryValue) (knownIds : List StdString) : StdString :=
  match value with
  | .text s => if s ∈ knownIds then "ID".toList else anonText s
  -- a number is none of the ids, which are text
  | .count _ => anonText value.str

/-- `'%s=%s' % (anon(location), anon(value, known_ids))`. -/
def anonEntry (knownIds : List StdString) (entry : StdString × MemoryValue) : StdString :=
  anon (.text entry.1) [] ++ '=' :: anon entry.2 knownIds

/-! ## The comparison -/

/-- `get_known_ids`: what follows the first colon in the locations of timers. -/
def getKnownIds (mem : Memory) : List StdString :=
  (mem.items.map Prod.fst).filterMap fun k =>
    if contains "Timer:" k then (k.splitOn ':')[1]? else none

/-- `known_ids`. -/
def knownIds (m1 m2 : Memory) : List StdString := getKnownIds m1 ++ getKnownIds m2

/-- `memory1`. -/
def memory1 (m1 m2 : Memory) : List StdString := m1.items.map (anonEntry (knownIds m1 m2))

/-- The condition on the entries of `m2` whose keys are ignored. -/
def ignorable (m1 m2 : Memory) (entry : StdString × MemoryValue) : Bool :=
  contains "event action" entry.1 && !contains "-1" entry.1 &&
    anonEntry (knownIds m1 m2) entry ∉ memory1 m1 m2

/-- `ignore_memory2_keys`. -/
def ignoreMemory2Keys (m1 m2 : Memory) : List StdString :=
  (m2.items.filter (ignorable m1 m2)).map Prod.fst

/-- `memory2`. The condition of the comprehension is about `k`, the variable of the loop before
    it, and not about `location`. -/
def memory2 (m1 m2 : Memory) : List StdString :=
  let k := (m2.items.map Prod.fst).getLast?
  (m2.items.filter fun _ => k.all fun k => k ∉ ignoreMemory2Keys m1 m2).map
    (anonEntry (knownIds m1 m2))

/-- What is returned, under the names that the caller gives it. -/
structure MemoryComparison where
  equal : Bool
  originalDiff : List StdString
  reorderedDiff : List StdString
  originalDiffKeys : List StdString
  reorderedDiffKeys : List StdString
deriving DecidableEq

/-- The tuple at the end, for a list `memory2`. -/
def compareMemories (m1 m2 : Memory) (memory2 : List StdString) : MemoryComparison where
  equal := decide (memory1 m1 m2 ⊆ memory2 ∧ memory2 ⊆ memory1 m1 m2)
  originalDiff := (memory1 m1 m2).filter (· ∉ memory2)
  reorderedDiff := memory2.filter (· ∉ memory1 m1 m2)
  originalDiffKeys :=
    (m1.items.filter fun entry => anonEntry (knownIds m1 m2) entry ∉ memory2).map Prod.fst
  reorderedDiffKeys := (m2.items.filter fun entry =>
    decide (entry.1 ∉ ignoreMemory2Keys m1 m2) &&
      anonEntry (knownIds m1 m2) entry ∉ memory1 m1 m2).map Prod.fst

/-- `abstract_memory_equal`. -/
def abstractMemoryEqual (m1 m2 : Memory) : MemoryComparison :=
  compareMemories m1 m2 (memory2 m1 m2)

end R4.ReportReader
