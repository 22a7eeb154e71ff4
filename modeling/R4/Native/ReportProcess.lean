import R4.ForStd.PythonDict
import R4.Native.ReportReader

/-!
# The totals of a report

`process` (`utils/batch-report/report.py`), as far as it goes through the races of a website: each
race and the run it was derived from are parsed and compared, the counters of the summary are
increased, and a row is added to the race summaries.

What is read from the files of a race (`D`), the distances that the comparison measures and that
are only passed on (`X`), and the functions that compute them are parameters. `none` is an
exception that nothing catches.
-/

namespace R4.ReportReader

open Python (Dict)

variable {D X : Type}

/-- The result of `parse_race`. `result` is that of the run, `content` all that is compared. -/
structure RaceData (D : Type) where
  handle : StdString
  origin : Option StdString
  result : StdString
  content : D

/-- What `parse_race` raises: a `RaceParseException`, or an exception that is not caught. -/
inductive ParseError where
  | raceParseException
  | other
deriving DecidableEq, Repr

/-- What `compare_race` returns. -/
structure Comparison (X : Type) where
  isEqual : Bool
  r4Classification : StdString
  r4ClassificationDetails : StdString
  distances : X

/-- What is known of a website: the files of its races, the classification that
    `inject_classification` finds, and the comparison of a race with its base. -/
structure Website (D X : Type) where
  files : StdString → Except ParseError (Option StdString × StdString × D)
  erClassification : RaceData D → StdString × StdString
  compareRace : RaceData D → RaceData D → Option (Comparison X)

/-- `parse_race(website_dir, handle)`. -/
def parseRace (w : Website D X) (handle : StdString) : Except ParseError (RaceData D) :=
  (w.files handle).map fun (origin, result, content) => ⟨handle, origin, result, content⟩

/-- `parse_race(website_dir, race_data['origin'])`; joining a path with `None` is a
    `TypeError`. -/
def parseOrigin (w : Website D X) (origin : Option StdString) : Except ParseError (RaceData D) :=
  match origin with
  | none => .error .other
  | some handle => parseRace w handle

/-- `prace`, with the classification that was injected into `race_data`. -/
structure ProcessedRace (D X : Type) where
  baseData : RaceData D
  raceData : RaceData D
  erClassification : StdString
  erClassificationDetails : StdString
  comparison : Comparison X

/-- `prace['handle']`. -/
def ProcessedRace.handle (p : ProcessedRace D X) : StdString := p.raceData.handle

/-- `process_race`, with the report that is written for the race. -/
def processRace (w : Website D X) (raceData baseData : RaceData D) : Option (ProcessedRace D X) :=
  let (erClassification, erClassificationDetails) := w.erClassification raceData
  (w.compareRace baseData raceData).map fun comparison =>
    ⟨baseData, raceData, erClassification, erClassificationDetails, comparison⟩

/-! ## The summary -/

/-- `r4_classifiers`. -/
def r4Classifiers : List String :=
  ["R4_EXCEPTIONS", "R4_DOM_AND_RENDER_MISMATCH", "R4_NETWORK_MISMATCH"]

/-- `er_classifiers`. -/
def erClassifiers : List String := ["ER_INITIALIZATION_RACE", "ER_READYSTATECHANGE_RACE"]

/-- `er_tags`. -/
def erTags : List String :=
  ["LATE_EVENT_ATTACH", "COOKIE_OR_CLASSNAME", "MAYBE_LAZY_INIT", "ONLY_LOCAL_WRITE",
    "NO_EVENT_ATTACHED", "WRITE_SAME_VALUE", "RACE_WITH_UNLOAD"]

/-- `er_subsumed_commute_tags`. -/
def erSubsumedCommuteTags : List String :=
  ["COOKIE_OR_CLASSNAME", "MAYBE_LAZY_INIT", "ONLY_LOCAL_WRITE", "NO_EVENT_ATTACHED",
    "WRITE_SAME_VALUE"]

/-- `r4_tags`. -/
def r4Tags : List String :=
  ["R4_DOM_TIMER_AD_HOC_SYNC[EARLY]", "R4_DOM_TIMER_AD_HOC_SYNC[DELAY]", "R4_EVENTS_COMMUTE",
    "ER_RACE_WTIH_UNLOAD", "ER_LATE_EVENT_ATTACH", "R4_HEAP_MISMATCH"]

/-- A key that is made of a name and a tag. -/
def tagKey (name tag : String) : StdString := name.toList ++ tag.toList

/-- The keys of the counters in `summary`. -/
def summaryKeys : List StdString :=
  ["count", "equal", "diff", "timeout", "error", "er_high", "er_normal", "er_low", "er_unknown",
      "r4_high", "r4_normal", "r4_low", "classified_low_er", "classified_high_er",
      "er_subsumed_commute_tags"].map String.toList ++
    r4Classifiers.map (tagKey "r4_classifier_") ++
    erClassifiers.map (tagKey "er_classifier_") ++
    r4Classifiers.map (tagKey "r4_classifiers_only_") ++
    erTags.map (tagKey "er_tag_") ++
    r4Tags.map (tagKey "r4_tag_")

/-- The counters, each with the condition under which a race increases it. -/
def counters (p : ProcessedRace D X) : List (StdString × Bool) :=
  let result (s : String) : Bool := p.raceData.result == s.toList
  let er (s : String) : Bool := p.erClassification == s.toList
  let r4 (s : String) : Bool := p.comparison.r4Classification == s.toList
  let inEr (tag : String) : Bool := contains tag p.erClassificationDetails
  let inR4 (tag : String) : Bool := contains tag p.comparison.r4ClassificationDetails
  [("count".toList, true),
      ("equal".toList, result "FINISHED" && p.comparison.isEqual),
      ("diff".toList, result "FINISHED" && !p.comparison.isEqual),
      ("timeout".toList, result "TIMEOUT"),
      ("error".toList, result "ERROR"),
      ("er_high".toList, er "HIGH"),
      ("er_normal".toList, er "NORMAL"),
      ("er_low".toList, er "LOW"),
      ("er_unknown".toList, er "UNKNOWN" || er "PARSE_ERROR"),
      ("r4_high".toList, r4 "HIGH"),
      ("r4_normal".toList, r4 "NORMAL"),
      ("r4_low".toList, r4 "LOW"),
      ("classified_low_er".toList, er "LOW"),
      ("classified_high_er".toList, er "HIGH"),
      ("er_subsumed_commute_tags".toList, erSubsumedCommuteTags.any inEr)] ++
    r4Classifiers.map (fun tag => (tagKey "r4_classifier_" tag, inR4 tag && !r4 "LOW")) ++
    erClassifiers.map (fun tag => (tagKey "er_classifier_" tag, inR4 tag && !r4 "LOW")) ++
    r4Classifiers.map (fun tag =>
      (tagKey "r4_classifiers_only_" tag, inR4 tag && !r4 "LOW" && er "LOW")) ++
    erTags.map (fun tag => (tagKey "er_tag_" tag, inEr tag)) ++
    r4Tags.map (fun tag => (tagKey "r4_tag_" tag, inR4 tag))

/-- The counters of `summary`. -/
abbrev Summary := Dict StdString Nat

/-- No counter is listed twice. -/
theorem nodup_summaryKeys : summaryKeys.Nodup := by decide +kernel

/-- `summary` before the loop. -/
def initialSummary : Summary where
  items := summaryKeys.map fun key => (key, 0)
  nodup := by
    rw [List.map_map]
    exact (List.map_id' summaryKeys).symm ▸ nodup_summaryKeys

/-- `summary[key] += 1 if condition else 0`; `none` is a `KeyError`. -/
def increment (summary : Summary) (counter : StdString × Bool) : Option Summary :=
  (summary.get? counter.1).map fun n => summary.set counter.1 (n + if counter.2 then 1 else 0)

/-- The counters of one race. -/
def addRace (summary : Summary) (p : ProcessedRace D X) : Option Summary :=
  (counters p).foldlM increment summary

/-- A row of `race_summaries`. -/
structure RaceSummary (X : Type) where
  handle : StdString
  distances : X
  result : StdString
  erClassification : StdString
  erClassificationDetails : StdString
  r4Classification : StdString
  r4ClassificationDetails : StdString
deriving DecidableEq

/-- The row of a race. -/
def ProcessedRace.summary (p : ProcessedRace D X) : RaceSummary X where
  handle := p.handle
  distances := p.comparison.distances
  result := p.raceData.result
  erClassification := p.erClassification
  erClassificationDetails := p.erClassificationDetails
  r4Classification := p.comparison.r4Classification
  r4ClassificationDetails := p.comparison.r4ClassificationDetails

/-! ## The loop -/

/-- What `process` adds to. -/
abbrev Totals (X : Type) := Summary × List (RaceSummary X)

/-- One iteration, once `race_data` is there: its value, and the totals. -/
def reportRace (w : Website D X) (raceData : RaceData D) (totals : Totals X) :
    Option (Totals X) :=
  match parseOrigin w raceData.origin with
  -- the message of a `RaceParseException` lacks an argument: a `TypeError`, before the `break`
  | .error _ => none
  | .ok baseData => do
    let prace ← processRace w raceData baseData
    let summary ← addRace totals.1 prace
    return (summary, totals.2 ++ [prace.summary])

/-- The loop over the races, with the variable `race_data`, which is not set at first. -/
def processRaces (w : Website D X) :
    List StdString → Option (RaceData D) → Totals X → Option (Totals X)
  | [], _, totals => some totals
  | race :: races, last, totals =>
    match parseRace w race with
    | .ok raceData =>
      (reportRace w raceData totals).bind (processRaces w races (some raceData))
    -- the message is printed, and the loop goes on with the value of the iteration before
    | .error .raceParseException =>
      last.bind fun raceData =>
        (reportRace w raceData totals).bind (processRaces w races (some raceData))
    | .error .other => none

/-- `process`, from the initialisation of the summary to the end of the loop. -/
def process (w : Website D X) (races : List StdString) : Option (Totals X) :=
  processRaces w races none (initialSummary, [])

end R4.ReportReader
