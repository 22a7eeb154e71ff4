import R4.Spec.ReportCompare
import R4.Spec.ReportProcess
import R4.Spec.WarningFile

/-!
# What a report reads of a replay

The result of a replay and the state of its page are found by a search in everything that was
printed, also by the page. A search for a text on one line does not go over the end of a line, so
what is found is what the replay prints at its end, unless something before it looks the same.

## Key results

- `search_append`: a search in lines, and then in what follows them
- `search_closingLines`: what a replay prints at its end
- `report_of_replay`: the directory of a replay is read back
-/

namespace R4.ReportReader

open StdString

/-! ## Searching -/

/-- A match at the front. -/
def matchFront (literal : String) (isInClass : Char → Bool) (s : StdString) : Option StdString :=
  let group := (s.drop literal.length).takeWhile isInClass
  if literal.toList <+: s ∧ group ≠ [] then some group else none

/-- The search goes on behind a character at which nothing matches. -/
theorem search_cons (literal : String) (isInClass : Char → Bool) (c : Char) (s : StdString) :
    search literal isInClass (c :: s) =
      (matchFront literal isInClass (c :: s)).or (search literal isInClass s) := by
  rw [search, matchFront]
  split
  · rfl
  · rfl

/-- A literal with a group behind it matches with the whole group. -/
theorem matchFront_group {literal : String} {isInClass : Char → Bool} {group rest : StdString}
    (hgroup : group ≠ []) (hclass : ∀ c ∈ group, isInClass c = true)
    (hrest : ∀ c ∈ rest.head?, isInClass c = false) :
    matchFront literal isInClass (literal.toList ++ (group ++ rest)) = some group := by
  have hfound : ((literal.toList ++ (group ++ rest)).drop literal.length).takeWhile isInClass =
      group := by
    rw [List.drop_left' String.length_toList, List.takeWhile_append_of_pos hclass]
    cases rest with
    | nil => simp
    | cons c rest => simp [hrest c rfl]
  rw [matchFront, hfound, if_pos ⟨List.prefix_append _ _, hgroup⟩]

/-- A text on one line is at the front of what stands before the end of the line. -/
theorem prefix_line_iff {text before rest : StdString} (h : '\n' ∉ text) :
    text <+: before ++ '\n' :: rest ↔ text <+: before := by
  constructor
  · intro hprefix
    rcases List.prefix_or_prefix_of_prefix hprefix (List.prefix_append before _) with hb | hb
    · exact hb
    · obtain ⟨more, rfl⟩ := hb
      cases more with
      | nil => simp
      | cons c more =>
        -- the text would go over the end of the line
        have hrest := (List.prefix_append_right_inj before).mp hprefix
        obtain ⟨rfl, -⟩ := List.cons_prefix_cons.mp hrest
        exact absurd (List.mem_append_right _ List.mem_cons_self) h
  · exact fun hprefix => hprefix.trans (List.prefix_append _ _)

/-- A class without newlines ends at the end of a line. -/
theorem takeWhile_line {isInClass : Char → Bool} (hclass : isInClass '\n' = false)
    (before rest : StdString) :
    (before ++ '\n' :: rest).takeWhile isInClass = before.takeWhile isInClass := by
  induction before with
  | nil => simp [hclass]
  | cons c before ih => rw [List.cons_append, List.takeWhile_cons, List.takeWhile_cons, ih]

/-- A match does not go over the end of a line. -/
theorem matchFront_line {literal : String} {isInClass : Char → Bool}
    (hliteral : '\n' ∉ literal.toList) (hclass : isInClass '\n' = false)
    (before rest rest' : StdString) :
    matchFront literal isInClass (before ++ '\n' :: rest) =
      matchFront literal isInClass (before ++ '\n' :: rest') := by
  unfold matchFront
  simp only [prefix_line_iff hliteral]
  by_cases hprefix : literal.toList <+: before
  · have hle : literal.length ≤ before.length := String.length_toList ▸ hprefix.length_le
    rw [List.drop_append_of_le_length hle, List.drop_append_of_le_length hle,
      takeWhile_line hclass, takeWhile_line hclass]
  · rw [if_neg fun h => hprefix h.1, if_neg fun h => hprefix h.1]

/-- A search in lines, and then in what follows them. -/
theorem search_append {literal : String} {isInClass : Char → Bool}
    (hliteral : '\n' ∉ literal.toList) (hclass : isInClass '\n' = false) (before text : StdString) :
    search literal isInClass (before ++ '\n' :: text) =
      (search literal isInClass (before ++ ['\n'])).or (search literal isInClass text) := by
  induction before with
  | nil =>
    have hfront := matchFront_line hliteral hclass [] text []
    rw [List.nil_append, List.nil_append] at hfront
    have hnone : matchFront literal isInClass ['\n'] = none := by
      unfold matchFront
      cases hlength : literal.length <;> simp [hclass]
    rw [List.nil_append, List.nil_append, search_cons, search_cons, hfront, hnone, search]
    rfl
  | cons c before ih =>
    have hfront := matchFront_line hliteral hclass (c :: before) text []
    rw [List.cons_append, List.cons_append] at hfront
    rw [List.cons_append, List.cons_append, search_cons, search_cons, ih, hfront, Option.or_assoc]

/-! ## The directory of a replay -/

/-- `result`. -/
def resultText : ReplaySchedulerState → StdString
  | .finished => "FINISHED".toList
  | .timeout => "TIMEOUT".toList
  | .error | .running => "ERROR".toList

/-- What was printed before looks like neither of the two lines that are searched for, and its last
    line has ended. -/
structure Quiet (before : StdString) : Prop where
  ended : before = [] ∨ ∃ lines, before = lines ++ ['\n']
  result : search "Result: " isUpper before = none
  htmlHash : search "HTML-hash: " Char.isDigit before = none

/-- A search over lines that have ended is one before and one behind. -/
theorem search_ended {literal : String} {isInClass : Char → Bool}
    (hliteral : '\n' ∉ literal.toList) (hclass : isInClass '\n' = false) {before : StdString}
    (hended : before = [] ∨ ∃ lines, before = lines ++ ['\n']) (text : StdString) :
    search literal isInClass (before ++ text) =
      (search literal isInClass before).or (search literal isInClass text) := by
  rcases hended with rfl | ⟨lines, rfl⟩
  · rfl
  · rw [List.append_assoc, List.singleton_append, search_append hliteral hclass]

/-- The lines before the last one tell the result. -/
theorem closingLines_eq (state : ReplaySchedulerState) (htmlHash : UInt32) :
    ∃ lines, closingLines state htmlHash =
        lines ++ '\n' :: ("HTML-hash: ".toList ++ (decimal htmlHash.toNat ++ ['\n'])) ∧
      search "Result: " isUpper (lines ++ ['\n']) = some (resultText state) ∧
      search "HTML-hash: " Char.isDigit (lines ++ ['\n']) = none := by
  -- the second line starts behind the newline
  have hsplit : ∀ text : String, ∀ lines : StdString, text.toList = lines ++ ['\n'] →
      text.toList ++ "HTML-hash: ".toList ++ decimal htmlHash.toNat ++ ['\n'] =
        lines ++ '\n' :: ("HTML-hash: ".toList ++ (decimal htmlHash.toNat ++ ['\n'])) := by
    intro text lines htext
    rw [htext]
    simp only [List.append_assoc, List.singleton_append]
    rfl
  -- the result depends on how the scheduler has ended
  cases state with
  | finished =>
    exact ⟨"Schedule executed successfully\nResult: FINISHED".toList,
      hsplit _ _ (by decide +kernel), by decide +kernel, by decide +kernel⟩
  | timeout =>
    exact ⟨"Schedule partially executed, timed out before finishing.\nResult: TIMEOUT".toList,
      hsplit _ _ (by decide +kernel), by decide +kernel, by decide +kernel⟩
  | error =>
    exact ⟨"Schedule partially executed, could not finish schedule!\nResult: ERROR".toList,
      hsplit _ _ (by decide +kernel), by decide +kernel, by decide +kernel⟩
  | running =>
    exact ⟨"Scheduler stopped for an unknown reason.\nResult: ERROR".toList,
      hsplit _ _ (by decide +kernel), by decide +kernel, by decide +kernel⟩

/-- What the replay prints at its end is what is found. -/
theorem search_closingLines {before : StdString} (h : Quiet before) (state : ReplaySchedulerState)
    (htmlHash : UInt32) :
    search "Result: " isUpper (before ++ closingLines state htmlHash) = some (resultText state) ∧
      search "HTML-hash: " Char.isDigit (before ++ closingLines state htmlHash) =
        some (decimal htmlHash.toNat) := by
  obtain ⟨lines, hlines, hresult, hnone⟩ := closingLines_eq state htmlHash
  -- the hash is found at the front of its line
  have hhash : search "HTML-hash: " Char.isDigit
      ("HTML-hash: ".toList ++ (decimal htmlHash.toNat ++ ['\n'])) =
        some (decimal htmlHash.toNat) := by
    have hfront : matchFront "HTML-hash: " Char.isDigit
        ("HTML-hash: ".toList ++ (decimal htmlHash.toNat ++ ['\n'])) =
          some (decimal htmlHash.toNat) :=
      matchFront_group (decimal_ne_nil _) (fun c hc => isDigit_of_mem_decimal hc) (by simp)
    have hne : "HTML-hash: ".toList ++ (decimal htmlHash.toNat ++ ['\n']) ≠ [] := by simp
    obtain ⟨first, others, htext⟩ := List.exists_cons_of_ne_nil hne
    rw [htext] at hfront ⊢
    rw [search_cons, hfront]
    rfl
  constructor
  · -- the result is not found in what was printed before, but in the first of the last lines
    rw [search_ended (by decide) (by decide) h.ended, h.result, Option.none_or, hlines,
      search_append (by decide) (by decide), hresult]
    rfl
  · -- the hash is found in the other one
    rw [search_ended (by decide) (by decide) h.ended, h.htmlHash, Option.none_or, hlines,
      search_append (by decide) (by decide), hnone, Option.none_or, hhash]

/-- What a replay leaves behind: what was printed before its end, its state, the sum of the hashes
    of its frames, its warnings, whose headers are plain, and the history of what it dispatched. -/
structure ReplayOutput where
  before : StdString
  state : ReplaySchedulerState
  htmlHash : UInt32
  warnings : WarningCollector
  history : List EventActionScheduleItem
  quiet : Quiet before
  plain : ∀ w ∈ warnings.warnings, PlainHeader w

namespace ReplayOutput

variable (r : ReplayOutput)

/-- The directory of the replay, with the files that were there before. -/
def directory (origin newSchedule : List UInt8) : RunDirectory where
  errors := some r.warnings.writeLogFile
  stdout := some (Utf8.encode (r.before ++ closingLines r.state r.htmlHash))
  origin := some origin
  newSchedule := some newSchedule
  outputSchedule := some (Utf8.encode (EventActionSchedule.serialize r.history))

/-- The warnings, as the report sorts them. -/
def parsedErrors : ParsedErrors := (r.warnings.warnings.map recordOf).foldl ParsedErrors.add .init

/-- What is compared of the replay. -/
def content (schedules : ParsedSchedule) : RaceContent where
  errors := r.parsedErrors.errors
  exceptions := r.parsedErrors.exceptions
  zipErrorsSchedule :=
    zipErrorsSchedule schedules.schedule r.parsedErrors.errors r.parsedErrors.exceptions
  htmlState := decimal r.htmlHash.toNat
  raceFirst := schedules.raceFirst
  raceSecond := schedules.raceSecond
  outputRaceFirst := schedules.outputRaceFirst
  outputRaceSecond := schedules.outputRaceSecond
  newEvents := r.parsedErrors.newEvents
  numNewEvents := r.parsedErrors.numNewEvents
  numSkippedEvents := r.parsedErrors.numSkippedEvents

/-- The directory of a replay is read back. -/
theorem parseRaceFiles_directory {origin newSchedule : List UInt8} {schedules : ParsedSchedule}
    (hschedules : parseSchedule newSchedule
      (Utf8.encode (EventActionSchedule.serialize r.history)) = some schedules) :
    parseRaceFiles (r.directory origin newSchedule) =
      .ok (some (Python.strip (decode origin)), resultText r.state, r.content schedules) := by
  have hstdout : decode (Utf8.encode (r.before ++ closingLines r.state r.htmlHash)) =
      r.before ++ closingLines r.state r.htmlHash := Utf8.decodeIgnore_encode _
  obtain ⟨hresult, hhash⟩ := search_closingLines r.quiet r.state r.htmlHash
  have herrors : parseErrors .init r.warnings.writeLogFile = some (r.parsedErrors, []) :=
    parseErrors_warnings r.plain .init
  have hok : ∀ {α β : Type} (x : α) (f : α → Except ParseError β), (.ok x >>= f) = f x :=
    fun _ _ => rfl
  simp only [parseRaceFiles, directory, pure_bind, herrors, orRaise, hok, hstdout, hresult, hhash,
    hschedules]
  rfl

/-- The replay as a race of the report. -/
def raceData (handle : StdString) (origin : List UInt8) (schedules : ParsedSchedule) :
    RaceData RaceContent where
  handle := handle
  origin := some (Python.strip (decode origin))
  result := resultText r.state
  content := r.content schedules

/-- The directory of a replay is parsed as the data of its race. -/
theorem parseRace_directory {X : Type} {w : Website RaceContent X} (handle : StdString)
    {origin newSchedule : List UInt8} {schedules : ParsedSchedule}
    (hfiles : w.files handle = parseRaceFiles (r.directory origin newSchedule))
    (hschedules : parseSchedule newSchedule
      (Utf8.encode (EventActionSchedule.serialize r.history)) = some schedules) :
    parseRace w handle = .ok (r.raceData handle origin schedules) := by
  rw [parseRace, hfiles, r.parseRaceFiles_directory hschedules]
  rfl

end ReplayOutput

/-- A replay that printed a line and dispatched nothing. -/
def shortReplay (htmlHash : UInt32) : ReplayOutput where
  before := "Running...\n".toList
  state := .finished
  htmlHash := htmlHash
  warnings := .init
  history := []
  quiet := ⟨.inr ⟨"Running...".toList, by decide⟩, by decide +kernel, by decide +kernel⟩
  plain := List.forall_mem_nil _

/-- The directories of two such replays. -/
def shortReplays (handle : StdString) : RunDirectory :=
  if handle = "base".toList then (shortReplay 7).directory [] []
  else (shortReplay 8).directory (Utf8.encode "base".toList) []

/-- What is read of the schedules of both. -/
def noSchedules : ParsedSchedule := ⟨[], .unset, .unset, none, none⟩

/-- An empty schedule is parsed. -/
theorem parseSchedule_short :
    parseSchedule [] (Utf8.encode (EventActionSchedule.serialize [])) = some noSchedules := by
  decide +kernel

/-- The directory of the base run. -/
theorem shortReplays_base :
    shortReplays "base".toList = (shortReplay 7).directory [] [] := if_pos rfl

/-- The directory of the race. -/
theorem shortReplays_race : shortReplays "race1".toList =
    (shortReplay 8).directory (Utf8.encode "base".toList) [] := if_neg (by decide)

/-- The origin of the race is the base run. -/
theorem strip_shortOrigin : Python.strip (decode (Utf8.encode "base".toList)) = "base".toList := by
  rw [decode, Utf8.decodeIgnore_encode]
  decide +kernel

/-- The two are compared. -/
theorem exists_processRace_short (erClassification : RaceData RaceContent → StdString × StdString) :
    ∃ p, processRace (Website.ofRuns plainComparer shortReplays erClassification)
      ((shortReplay 8).raceData "race1".toList (Utf8.encode "base".toList) noSchedules)
      ((shortReplay 7).raceData "base".toList [] noSchedules) = some p := ⟨_, rfl⟩

end R4.ReportReader
