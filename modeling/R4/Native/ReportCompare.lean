import R4.ForStd.SequenceMatcher
import R4.Native.ReportMemory
import R4.Native.ReportRace

/-!
# The comparison of a race with its base

`compare_race` (`utils/batch-report/report.py`): the warnings of the reordered run and of the
original one are compared as sequences, the memory of the two racing event actions as a set, and
the race is classified.

What the comparison takes from outside is a parameter: the hash of a tuple of strings, by which
dictionaries are compared, the comparison of two screenshots, and the files that EventRacer writes
about the memory of event actions.
-/

namespace R4.ReportReader

open Python (Dict Opcode Tag slice)

/-- What `compare_race` takes from outside. A distance (`X`) is a floating point number. -/
structure Comparer (X : Type) where
  /-- `hash(tuple(sorted(items)))` -/
  hash : List (StdString × StdString) → Int
  /-- `generate_comparison_file`, or what it left behind: the type of the match, the distance -/
  compareImages : StdString → StdString → StdString × X
  /-- `distance == 0` -/
  isZero : X → Bool
  /-- `get_abstract_memory`, for the directory of a run and the ids of two event actions -/
  getAbstractMemory : StdString → StdString → StdString → Memory
  /-- whether `get_memory_stats` knows a location -/
  hasMemoryStats : StdString → StdString → Bool

variable {X : Type}

/-! ## Differences -/

/-- The properties of a warning that are not ignored, sorted by their names. -/
def ErrorRecord.hashItems (r : ErrorRecord) : List (StdString × StdString) :=
  [("description".toList, r.description), ("details".toList, r.details),
    ("module".toList, r.module)]

/-- The properties of an item that are not ignored, sorted by their names. -/
def ZipItem.hashItems : ZipItem → List (StdString × StdString)
  | .row r => [("event_action_descriptor".toList, r.eventActionDescriptor)]
  | .report entry => entry.2.hashItems

/-- Whether the item is an error about a new event action. -/
def ZipItem.isNewEventAction : ZipItem → Bool
  | .row _ => false
  | .report entry =>
    entry.1 == .error && contains "event action observed" entry.2.description

/-- `remove_new_event_action`. -/
def removeNewEventAction (baseList raceList : List ZipItem) : List ZipItem × List ZipItem :=
  match baseList.getLast?, raceList.getLast? with
  | some base, some race =>
    if base.isNewEventAction && race.isNewEventAction then (baseList.dropLast, raceList.dropLast)
    else (baseList, raceList)
  | _, _ => (baseList, raceList)

/-- An entry of `opcodes_human`: the pieces of the two lists, and what happens to them. -/
structure HumanOpcode where
  base : List ZipItem
  tag : Tag
  race : List ZipItem
deriving DecidableEq

/-- A difference of two lists. -/
structure Diff where
  opcodes : List Opcode
  human : List HumanOpcode

/-- The steps from one list to the other. Items are the same if they have the same hash. -/
def diff (c : Comparer X) (base race : List ZipItem) : Diff :=
  let hashes (items : List ZipItem) : List Int := items.map fun item => c.hash item.hashItems
  let opcodes := Python.SequenceMatcher.getOpcodes (hashes base) (hashes race)
  ⟨opcodes, opcodes.map fun o => ⟨slice base o.i1 o.i2, o.tag, slice race o.j1 o.j2⟩⟩

/-- `errors_distance` and `exceptions_distance`. -/
def Diff.distance (d : Diff) : Nat := d.opcodes.countP fun o => o.tag ≠ .equal

/-- Marks the first step that changes something, unless one has been seen. -/
def markFirstUnequal (unequalSeen : Bool) : List HumanOpcode → List (HumanOpcode × Bool)
  | [] => []
  | o :: rest =>
    let firstUnequal := !unequalSeen && o.tag ≠ .equal
    (o, firstUnequal) :: markFirstUnequal (unequalSeen || o.tag ≠ .equal) rest

/-- `exceptions_set_comparison`. -/
def exceptionsSetComparison (base race : List (ErrorType × ErrorRecord)) : Bool :=
  let texts (exceptions : List (ErrorType × ErrorRecord)) : List StdString :=
    exceptions.map fun e => e.2.description ++ e.2.details
  decide (texts base ⊆ texts race ∧ texts race ⊆ texts base)

/-- `cimage_human`. -/
def cimageHuman (c : Comparer X) (type : StdString) (distance : X) : StdString :=
  if type = "normal".toList then
    if c.isZero distance then "EXACT".toList else "DIFFER".toList
  else if type = "subimage".toList then "SUBSET".toList
  else "ERROR".toList

/-! ## Classification -/

/-- `classification` and `classification_details`. -/
structure Verdict where
  classification : String
  details : StdString
deriving DecidableEq

/-- Adds a tag to the details. -/
def Verdict.flag (v : Verdict) (condition : Bool) (tag : String) : Verdict :=
  if condition then { v with details := v.details ++ tag.toList ++ [' '] } else v

/-- Sets the classification, and adds a tag to the details. -/
def Verdict.set (v : Verdict) (condition : Bool) (classification tag : String) : Verdict :=
  if condition then
    { classification, details := v.details ++ tag.toList ++ [' '] }
  else v

/-- What the classification looks at. -/
structure Evidence where
  visualStateMatch : Bool
  htmlStateMatch : Bool
  /-- the memory is equal -/
  equal : Bool
  exceptionsSetComparison : Bool
  erClassificationDetails : StdString
  errors : List (ErrorType × ErrorRecord)
  newEvents : List StdString
  /-- none of the locations that differ is in the memory statistics -/
  hit : Bool

/-- An event action of the race is skipped, and what is next is of this type. -/
def Evidence.skipsBefore (e : Evidence) (next : String) : Bool :=
  e.errors.any fun error => contains "skipped" error.2.description && contains next error.2.details

/-- The classification, from `# Flags` on. -/
def classify (e : Evidence) : Verdict :=
  let er (tag : String) : Bool := contains tag e.erClassificationDetails
  let v : Verdict := ⟨"NORMAL", []⟩
  let v := v.flag (e.visualStateMatch && e.htmlStateMatch && !e.equal) "R4_HEAP_MISMATCH"
  -- high triggers
  let v := v.set (!e.exceptionsSetComparison) "HIGH" "R4_EXCEPTIONS"
  let v := v.set (!e.visualStateMatch && !e.htmlStateMatch) "HIGH" "R4_DOM_AND_RENDER_MISMATCH"
  let v := v.set (er "initialization race") "HIGH" "ER_INITIALIZATION_RACE"
  let v := v.set (er "readyStateChange race") "HIGH" "ER_READYSTATECHANGE_RACE"
  let v := v.set (e.skipsBefore "NEXT -> 3-Network" || e.newEvents.any (contains "3-Network"))
    "HIGH" "R4_NETWORK_MISMATCH"
  -- low triggers
  let v := v.set (er "LATE_EVENT_ATTACH") "LOW" "ER_LATE_EVENT_ATTACH"
  let v := v.set (er "COOKIE_OR_CLASSNAME") "LOW" "R4_EVENTS_COMMUTE"
  let v := v.set (er "RACE_WITH_UNLOAD") "LOW" "ER_RACE_WITH_UNLOAD"
  -- ad-hoc synchronisation with a timer
  let delayed := e.skipsBefore "NEXT -> 1-DOMTimer" && e.visualStateMatch &&
    e.exceptionsSetComparison
  let v := v.set delayed "LOW" "R4_DOM_TIMER_AD_HOC_SYNC[DELAY]"
  let v := v.set (!delayed && e.newEvents.any fun event =>
    contains "1-DOMTimer" event && !contains "1-DOMTimer(-" event)
    "LOW" "R4_DOM_TIMER_AD_HOC_SYNC[EARLY]"
  -- the event actions commute
  v.set (e.equal || (v.classification == "HIGH" && e.hit)) "LOW" "R4_EVENTS_COMMUTE"

/-! ## The comparison -/

/-- `id, descriptor = race`, for what is unpacked of `raceFirst` and `raceSecond`. -/
def Race.unpack : Race → Option (StdString × StdString)
  | .event eventActionId descriptor => some (eventActionId, descriptor)
  | .unset | .awaited => none

/-- The same for a line of the output schedule. -/
def unpackLine : List StdString → Option (StdString × StdString)
  | [eventActionId, descriptor] => some (eventActionId, descriptor)
  | _ => none

/-- What the summary of a race takes over. -/
structure Distances (X : Type) where
  errorsDiffDistance : Nat
  scheduleDistance : Int
  exceptionsDiffDistance : Nat
  htmlStateMatch : Bool
  visualStateMatchHuman : StdString
  visualStateMatchDistance : X

/-- The rest of what `compare_race` returns. -/
structure RaceDiffs where
  exceptionsDiff : Diff
  errorsDiff : Diff
  zipDiffHuman : List (HumanOpcode × Bool)
  zipDiffHasUnequal : Bool

/-- The two memories that are compared; `none` is a `ValueError` or `TypeError`. -/
def compareMemory (c : Comparer X) (baseData raceData : RaceData RaceContent)
    (outputRaceFirst outputRaceSecond : List StdString) : Option MemoryComparison := do
  -- the original run has the two event actions the other way round
  let second ← raceData.content.raceSecond.unpack
  let first ← raceData.content.raceFirst.unpack
  let outputFirst ← unpackLine outputRaceFirst
  let outputSecond ← unpackLine outputRaceSecond
  return abstractMemoryEqual (c.getAbstractMemory baseData.handle second.1 first.1)
    (c.getAbstractMemory raceData.handle outputFirst.1 outputSecond.1)

/-- The classification of a race, with the details that EventRacer's classification has. -/
def classifyRace (c : Comparer X) (baseData raceData : RaceData RaceContent)
    (erClassificationDetails : StdString) (visualStateMatch htmlStateMatch : Bool) :
    Option Verdict :=
  match raceData.content.outputRaceFirst, raceData.content.outputRaceSecond with
  | some outputRaceFirst, some outputRaceSecond =>
    (compareMemory c baseData raceData outputRaceFirst outputRaceSecond).map fun memory =>
      classify
        { visualStateMatch
          htmlStateMatch
          equal := memory.equal
          exceptionsSetComparison :=
            exceptionsSetComparison baseData.content.exceptions raceData.content.exceptions
          erClassificationDetails
          errors := raceData.content.errors
          newEvents := raceData.content.newEvents
          hit := memory.originalDiffKeys.all (fun key => !c.hasMemoryStats baseData.handle key) &&
            memory.reorderedDiffKeys.all fun key => !c.hasMemoryStats raceData.handle key }
  -- a warning is printed
  | _, _ => some ⟨"NORMAL", []⟩

/-- `compare_race`. -/
def compareRace (c : Comparer X) (erClassificationDetails : StdString)
    (baseData raceData : RaceData RaceContent) :
    Option (Comparison (Distances X) × RaceDiffs) :=
  let (matchType, distance) := c.compareImages baseData.handle raceData.handle
  let human := cimageHuman c matchType distance
  let (baseErrors, raceErrors) := removeNewEventAction (baseData.content.errors.map .report)
    (raceData.content.errors.map .report)
  let errorsDiff := diff c baseErrors raceErrors
  let exceptionsDiff := diff c (baseData.content.exceptions.map .report)
    (raceData.content.exceptions.map .report)
  let (baseZip, raceZip) := removeNewEventAction baseData.content.zipErrorsSchedule
    raceData.content.zipErrorsSchedule
  let zipDiff := diff c baseZip raceZip
  let htmlStateMatch := baseData.content.htmlState == raceData.content.htmlState
  let visualStateMatch := human == "EXACT".toList
  (classifyRace c baseData raceData erClassificationDetails visualStateMatch htmlStateMatch).map
    fun verdict =>
      ({ isEqual := htmlStateMatch && visualStateMatch && errorsDiff.distance == 0 &&
          exceptionsDiff.distance == 0
         r4Classification := verdict.classification.toList
         r4ClassificationDetails := verdict.details
         distances :=
          { errorsDiffDistance := errorsDiff.distance
            scheduleDistance := raceData.content.numNewEvents + raceData.content.numSkippedEvents
            exceptionsDiffDistance := exceptionsDiff.distance
            htmlStateMatch
            visualStateMatchHuman := human
            visualStateMatchDistance := distance } },
       { exceptionsDiff
         errorsDiff
         zipDiffHuman := markFirstUnequal false zipDiff.human
         zipDiffHasUnequal := zipDiff.opcodes.any fun o => o.tag ≠ .equal })

/-- A website whose races are compared like this. -/
def Website.ofRuns (c : Comparer X) (files : StdString → RunDirectory)
    (erClassification : RaceData RaceContent → StdString × StdString) :
    Website RaceContent (Distances X) where
  files handle := parseRaceFiles (files handle)
  erClassification
  compareRace baseData raceData :=
    (ReportReader.compareRace c (erClassification raceData).2 baseData raceData).map Prod.fst

end R4.ReportReader
