import R4.ForStd.List
import R4.Native.ReportSchedule
import R4.Spec.WarningFile

/-!
# The markers of a report

The reader finds the racing event actions by their positions in the schedule with the markers.
Looking them up in the schedule without the markers, it subtracts the markers in front of them.
Putting the markers back, it does not: the first comes one row too late.

## Key results

- `scanRaces_indices`: the positions that are found
- `outputRaces_eq`: the racing event actions are looked up correctly
- `markers_never_restored`: the markers are not put back where they were
-/

namespace R4.ReportReader

/-- The two schedules of a run with one `<change>` line and one `<relax>` line behind it, each
    followed by an event action, and without both. -/
structure RaceFiles (scheduleFile outputScheduleFile : List UInt8) where
  before : List (List UInt8)
  change : List UInt8
  first : List UInt8
  between : List (List UInt8)
  relax : List UInt8
  second : List UInt8
  after : List (List UInt8)
  readlines : Python.readlines scheduleFile =
    before ++ change :: first :: (between ++ relax :: second :: after)
  output : outputScheduleFile = (before ++ first :: (between ++ second :: after)).flatten
  hasChange : contains "<change>" (decode change) = true
  hasRelax : contains "<relax>" (decode relax) = true
  oneChange : ∀ line ∈ before ++ first :: (between ++ relax :: second :: after),
    contains "<change>" (decode line) = false
  oneRelax : ∀ line ∈ before ++ change :: first :: (between ++ second :: after),
    contains "<relax>" (decode line) = false
  firstEvent : ';' ∈ decode first
  secondEvent : ';' ∈ decode second

/-- The marker or the descriptor of a line of the schedule with the markers. -/
def originalDescriptor (line : StdString) : Option StdString :=
  if contains "<change>" line then some "<change>".toList
  else if contains "<relax>" line then some "<relax>".toList
  else (Python.split1 ';' line)[1]?

/-- The markers and descriptors of the schedule with the markers. -/
def originalDescriptors (lines : List (List UInt8)) : Option (List StdString) :=
  ((lines.map decode).filter (· ≠ [])).mapM originalDescriptor

/-- The rows of the report are those of the schedule with the markers, and the racing event actions
    are those behind the markers. -/
def MarkersRestored {scheduleFile outputScheduleFile : List UInt8}
    (files : RaceFiles scheduleFile outputScheduleFile) : Prop :=
  ∃ parsed, parseSchedule scheduleFile outputScheduleFile = some parsed ∧
    originalDescriptors (Python.readlines scheduleFile) =
      some (parsed.schedule.map (·.eventActionDescriptor)) ∧
    parsed.outputRaceFirst = some (Python.split1 ';' (decode files.first)) ∧
    parsed.outputRaceSecond = some (Python.split1 ';' (decode files.second))

/-- The lines that the index counts. -/
def textLines (lines : List (List UInt8)) : Nat := lines.countP fun line => decode line ≠ []

/-! ## The positions -/

/-- A text that contains something is not empty. -/
theorem ne_nil_of_contains {needle : String} {text : StdString} (hne : needle.toList ≠ [])
    (h : contains needle text = true) : text ≠ [] := by
  rintro rfl
  have hfalse : contains needle [] = false := contains_eq_false (List.length_pos_iff.mpr hne)
  exact Bool.false_ne_true (hfalse.symm.trans h)

/-- Outside the races a line is only counted. -/
theorem line_unmarked {s s' : RaceScan} {line : StdString}
    (hchange : contains "<change>" line = false) (hrelax : contains "<relax>" line = false)
    (hfirst : s.raceFirst ≠ .awaited) (hsecond : s.raceSecond ≠ .awaited)
    (h : s.line line = some s') :
    s' = { s with index := s.index + if line ≠ [] then 1 else 0 } := by
  unfold RaceScan.line at h
  by_cases hline : line = []
  · rw [if_pos hline] at h
    simp [hline, ← Option.some.inj h]
  · rw [if_neg hline, if_neg (by simp [hchange, hrelax])] at h
    dsimp only at h
    split at h
    · simp only [Option.map_some, Option.some.injEq, RaceScan.event, if_neg hfirst,
        if_neg hsecond] at h
      rw [← h, if_pos hline]
    · simp at h

/-- Lines without markers change the index alone, once no id is awaited. -/
theorem scanRaces_unmarked {s s' : RaceScan} {lines : List (List UInt8)}
    (hchange : ∀ line ∈ lines, contains "<change>" (decode line) = false)
    (hrelax : ∀ line ∈ lines, contains "<relax>" (decode line) = false)
    (hfirst : s.raceFirst ≠ .awaited) (hsecond : s.raceSecond ≠ .awaited)
    (h : scanRaces s lines = some s') : s' = { s with index := s.index + textLines lines } := by
  induction lines generalizing s with
  | nil =>
    simp only [scanRaces, List.foldlM_nil, Option.pure_def, Option.some.injEq] at h
    rw [← h]
    rfl
  | cons line lines ih =>
    simp only [scanRaces, List.foldlM_cons, Option.bind_eq_bind, Option.bind_eq_some_iff] at h
    obtain ⟨s₁, hline, h⟩ := h
    -- a line without a marker is counted
    obtain rfl := line_unmarked (hchange line List.mem_cons_self) (hrelax line List.mem_cons_self)
      hfirst hsecond hline
    have hrest := ih (s := { s with index := s.index + if decode line ≠ [] then 1 else 0 })
      (fun l hl => hchange l (List.mem_cons_of_mem _ hl))
      (fun l hl => hrelax l (List.mem_cons_of_mem _ hl)) hfirst hsecond h
    rw [hrest]
    simp only [textLines, List.countP_cons, decide_eq_true_eq]
    congr 1
    omega

/-- A line with a marker is taken as one. -/
theorem line_marker {s : RaceScan} {line : StdString}
    (h : contains "<change>" line = true ∨ contains "<relax>" line = true) :
    s.line line = some { s.marker line with index := (s.marker line).index + 1 } := by
  have hne : line ≠ [] := by
    rcases h with h | h
    · exact ne_nil_of_contains (by decide) h
    · exact ne_nil_of_contains (by decide) h
  rw [RaceScan.line, if_neg hne, if_pos (Or.comm.mp h)]
  rfl

/-- An event action is split at its first semicolon. -/
theorem line_event {s : RaceScan} {line : StdString}
    (hchange : contains "<change>" line = false) (hrelax : contains "<relax>" line = false)
    (hevent : ';' ∈ line) : ∃ eventActionId descriptor,
      s.line line = some { s.event eventActionId descriptor with
        index := (s.event eventActionId descriptor).index + 1 } := by
  rw [RaceScan.line, if_neg (List.ne_nil_of_mem hevent), if_neg (by simp [hchange, hrelax]),
    Python.split1_of_mem hevent]
  exact ⟨_, _, rfl⟩

variable {scheduleFile outputScheduleFile : List UInt8}

/-- The positions of the racing event actions in the schedule with the markers. -/
theorem scanRaces_indices (files : RaceFiles scheduleFile outputScheduleFile) {scan : RaceScan}
    (h : scanRaces .init (Python.readlines scheduleFile) = some scan) :
    scan.raceFirstIndex = textLines files.before + 1 ∧
      scan.raceSecondIndex = textLines files.before + textLines files.between + 3 := by
  have hchange := files.oneChange
  have hrelax := files.oneRelax
  simp only [List.mem_append, List.mem_cons] at hchange hrelax
  rw [files.readlines] at h
  simp only [scanRaces, List.foldlM_append, List.foldlM_cons, Option.bind_eq_bind,
    Option.bind_eq_some_iff] at h
  obtain ⟨s₁, hbefore, s₂, hmarker, s₃, hfirst, s₄, hbetween, s₅, hmarker', s₆, hsecond, hafter⟩ :=
    h
  obtain rfl := scanRaces_unmarked (fun l hl => hchange l (.inl hl))
    (fun l hl => hrelax l (.inl hl)) (by decide) (by decide) hbefore
  -- the first marker, and its event action
  rw [line_marker (.inl files.hasChange)] at hmarker
  obtain rfl := Option.some.inj hmarker
  obtain ⟨id, descriptor, hevent⟩ := line_event (hchange files.first (by simp))
    (hrelax files.first (by simp)) files.firstEvent
  rw [hevent] at hfirst
  obtain rfl := Option.some.inj hfirst
  simp only [RaceScan.marker, RaceScan.event, RaceScan.init, files.hasChange,
    hrelax files.change (by simp), Bool.false_eq_true, if_true, if_false, reduceCtorEq] at hbetween
  obtain rfl := scanRaces_unmarked (fun l hl => hchange l (by simp [hl]))
    (fun l hl => hrelax l (by simp [hl])) (by simp) (by simp) hbetween
  -- the second marker, and its event action
  rw [line_marker (.inr files.hasRelax)] at hmarker'
  obtain rfl := Option.some.inj hmarker'
  obtain ⟨id', descriptor', hevent'⟩ := line_event (hchange files.second (by simp))
    (hrelax files.second (by simp)) files.secondEvent
  rw [hevent'] at hsecond
  obtain rfl := Option.some.inj hsecond
  simp only [RaceScan.marker, RaceScan.event, files.hasRelax,
    hchange files.relax (by simp), Bool.false_eq_true, if_true, if_false, reduceCtorEq] at hafter
  obtain rfl := scanRaces_unmarked (fun l hl => hchange l (by simp [hl]))
    (fun l hl => hrelax l (by simp [hl])) (by simp) (by simp) hafter
  dsimp only
  omega

/-! ## The racing event actions -/

/-- The lines of the output schedule. -/
theorem readlines_output (files : RaceFiles scheduleFile outputScheduleFile) :
    Python.readlines outputScheduleFile =
      files.before ++ files.first :: (files.between ++ files.second :: files.after) := by
  have hlines := Python.lines_readlines scheduleFile
  rw [files.readlines] at hlines
  -- neither marker is the last line, so the others keep their newlines
  have hchange := hlines.erase (List.cons_ne_nil _ _)
  have hmiddle : Python.Lines ((files.before ++ files.first :: files.between) ++
      files.relax :: files.second :: files.after) := by simpa using hchange
  have hrelax := hmiddle.erase (List.cons_ne_nil _ _)
  rw [List.append_assoc, List.cons_append] at hrelax
  exact (congrArg Python.readlines files.output).trans (Python.readlines_flatten hrelax)

/-- Every line counts if it has a text. -/
theorem textLines_eq_length {lines : List (List UInt8)} (h : ∀ line ∈ lines, decode line ≠ []) :
    textLines lines = lines.length := by
  rw [textLines, List.countP_eq_length]
  simpa using h

/-- The racing event actions are looked up where they are, if no line is empty. -/
theorem outputRaces_eq (files : RaceFiles scheduleFile outputScheduleFile) {scan : RaceScan}
    (hbefore : ∀ line ∈ files.before, decode line ≠ [])
    (hbetween : ∀ line ∈ files.between, decode line ≠ [])
    (h : scanRaces .init (Python.readlines scheduleFile) = some scan) :
    outputRaces (Python.readlines outputScheduleFile) scan.raceFirstIndex scan.raceSecondIndex =
      (some (Python.split1 ';' (decode files.first)),
        some (Python.split1 ';' (decode files.second))) := by
  obtain ⟨hfirst, hsecond⟩ := scanRaces_indices files h
  rw [textLines_eq_length hbefore] at hfirst hsecond
  rw [textLines_eq_length hbetween] at hsecond
  have hfirst' : Python.index (Python.readlines outputScheduleFile) (scan.raceFirstIndex - 1) =
      some files.first := by
    rw [Python.index_of_nonneg (n := files.before.length) (by omega), readlines_output files,
      List.getElem?_append_cons rfl]
  have hsecond' : Python.index (Python.readlines outputScheduleFile) (scan.raceSecondIndex - 2) =
      some files.second := by
    rw [Python.index_of_nonneg (n := (files.before ++ files.first :: files.between).length)
      (by simp only [List.length_append, List.length_cons]; omega), readlines_output files,
      ← List.cons_append, ← List.append_assoc, List.getElem?_append_cons rfl]
  simp [outputRaces, hfirst', hsecond']

/-! ## The rows -/

/-- In front of both positions no marker is put back. -/
theorem insertMarkers_append {raceFirstIndex raceSecondIndex : Int} {index : Nat}
    {lines rest : List (List UInt8)} {rows : List ScheduleRow}
    (hfirst : index + textLines lines ≤ raceFirstIndex)
    (hsecond : index + textLines lines ≤ raceSecondIndex)
    (h : insertMarkers raceFirstIndex raceSecondIndex index (lines ++ rest) = some rows) :
    ∃ front back,
      insertMarkers raceFirstIndex raceSecondIndex (index + textLines lines) rest = some back ∧
      rows = front ++ back ∧ front.length = textLines lines := by
  induction lines generalizing index rows with
  | nil => exact ⟨[], rows, h, rfl, rfl⟩
  | cons line lines ih =>
    rw [List.cons_append, insertMarkers] at h
    have hcount : textLines (line :: lines) =
        textLines lines + if decode line ≠ [] then 1 else 0 := by
      simp [textLines, List.countP_cons]
    -- a line without text does not count
    by_cases hline : decode line = []
    · rw [hcount, if_neg (not_not.mpr hline), Nat.add_zero] at hfirst hsecond ⊢
      dsimp only at h
      rw [if_pos hline] at h
      exact ih hfirst hsecond h
    · -- the line is in front of both markers
      rw [hcount, if_pos hline] at hfirst hsecond ⊢
      dsimp only at h
      rw [if_neg hline, if_neg (by omega), if_neg (by omega)] at h
      split at h
      · -- it is an event
        rename_i id descriptor _
        obtain ⟨rows', hrows', rfl⟩ := Option.map_eq_some_iff.mp h
        obtain ⟨front, back, hback, rfl, hlength⟩ := ih (by omega) (by omega) hrows'
        rw [Nat.add_assoc, Nat.add_comm 1] at hback
        exact ⟨⟨some id, descriptor⟩ :: front, back, hback, rfl, by simp [hlength]⟩
      · -- it is not one, and the call does not return
        simp at h

/-- An event in front of both markers is a row of its own. -/
theorem insertMarkers_event {raceFirstIndex raceSecondIndex : Int} {index : Nat}
    {line : List UInt8} {rest : List (List UInt8)} {rows : List ScheduleRow}
    (hevent : ';' ∈ decode line) (hfirst : index < raceFirstIndex)
    (hsecond : index < raceSecondIndex)
    (h : insertMarkers raceFirstIndex raceSecondIndex index (line :: rest) = some rows) :
    ∃ row rows', rows = row :: rows' ∧ row.eventActionDescriptor <:+ decode line := by
  rw [insertMarkers] at h
  dsimp only at h
  rw [if_neg (List.ne_nil_of_mem hevent), if_neg (by omega), if_neg (by omega),
    Python.split1_of_mem hevent] at h
  obtain ⟨rows', -, rfl⟩ := Option.map_eq_some_iff.mp h
  exact ⟨_, rows', rfl, (List.drop_suffix 1 _).trans (List.dropWhile_suffix _)⟩

/-- The marker comes behind what is in front of it. -/
theorem originalDescriptors_append {lines rest : List (List UInt8)} {line : List UInt8}
    {descriptors : List StdString} (hline : contains "<change>" (decode line) = true)
    (h : originalDescriptors (lines ++ line :: rest) = some descriptors) :
    descriptors[textLines lines]? = some "<change>".toList := by
  unfold originalDescriptors at h
  rw [List.map_append, List.filter_append, List.map_cons,
    List.filter_cons_of_pos (by simpa using ne_nil_of_contains (by decide) hline),
    List.mapM_append, List.mapM_cons] at h
  simp only [Option.bind_eq_bind, Option.bind_eq_some_iff, Option.pure_def,
    Option.some.injEq] at h
  obtain ⟨front, hfront, -, ⟨descriptor, hdescriptor, back, -, rfl⟩, rfl⟩ := h
  rw [originalDescriptor, if_pos hline] at hdescriptor
  have hlength : front.length = textLines lines := by
    rw [textLines, List.length_of_mapM hfront, List.filter_map, List.length_map,
      ← List.countP_eq_length_filter]
    rfl
  rw [List.getElem?_append_cons hlength.symm, ← Option.some.inj hdescriptor]

/-- The row behind the first marker does not come behind it. -/
theorem descriptors_ne (files : RaceFiles scheduleFile outputScheduleFile) {parsed : ParsedSchedule}
    (h : parseSchedule scheduleFile outputScheduleFile = some parsed) :
    originalDescriptors (Python.readlines scheduleFile) ≠
      some (parsed.schedule.map (·.eventActionDescriptor)) := by
  intro horiginal
  simp only [parseSchedule, Option.bind_eq_bind, Option.bind_eq_some_iff, Option.pure_def,
    Option.some.injEq] at h
  obtain ⟨scan, hscan, schedule, hschedule, rfl⟩ := h
  obtain ⟨hfirst, hsecond⟩ := scanRaces_indices files hscan
  rw [files.readlines] at horiginal
  have hmarker := originalDescriptors_append files.hasChange horiginal
  -- the event action of the first marker stands where the marker should be
  rw [readlines_output files] at hschedule
  obtain ⟨front, back, hback, rfl, hlength⟩ := insertMarkers_append (by omega) (by omega) hschedule
  obtain ⟨row, rows, rfl, hrow⟩ := insertMarkers_event files.firstEvent (by omega) (by omega) hback
  rw [List.map_append, List.map_cons, List.getElem?_append_cons (by rw [List.length_map, hlength]),
    Option.some.injEq] at hmarker
  have hfree := files.oneChange files.first (by simp)
  rw [contains, decide_eq_false_iff_not, ← hmarker] at hfree
  exact hfree hrow.isInfix

/-- The bytes of text lines. -/
def encodeLines (lines : List String) : List (List UInt8) :=
  lines.map fun line => Utf8.encode line.toList

/-- What is encoded is decoded. -/
theorem decode_encode (s : StdString) : decode (Utf8.encode s) = s := Utf8.decodeIgnore_encode s

/-- Two racing event actions behind another one. -/
def racingPair : RaceFiles
    (encodeLines ["1;a\n", "<change>\n", "2;b\n", "<relax>\n", "3;c\n"]).flatten
    (encodeLines ["1;a\n", "2;b\n", "3;c\n"]).flatten where
  before := encodeLines ["1;a\n"]
  change := Utf8.encode "<change>\n".toList
  first := Utf8.encode "2;b\n".toList
  between := []
  relax := Utf8.encode "<relax>\n".toList
  second := Utf8.encode "3;c\n".toList
  after := []
  readlines := by decide +kernel
  output := rfl
  hasChange := by rw [decode_encode]; decide
  hasRelax := by rw [decode_encode]; decide
  oneChange := by simp only [encodeLines, List.map_cons, List.map_nil, List.nil_append,
    List.cons_append, List.forall_mem_cons, decode_encode]; decide
  oneRelax := by simp only [encodeLines, List.map_cons, List.map_nil, List.nil_append,
    List.cons_append, List.forall_mem_cons, decode_encode]; decide
  firstEvent := by rw [decode_encode]; decide
  secondEvent := by rw [decode_encode]; decide

/-- A schedule with both markers, in which `<change>` is shown one row late. -/
theorem change_marker_one_row_late :
    (∃ parsed, parseSchedule
        (encodeLines ["1;a\n", "<change>\n", "2;b\n", "<relax>\n", "3;c\n"]).flatten
        (encodeLines ["1;a\n", "2;b\n", "3;c\n"]).flatten = some parsed ∧
      parsed.schedule.map (·.eventActionDescriptor) =
        ["a\n".toList, "b\n".toList, "<change>".toList, "c\n".toList]) ∧
      ¬MarkersRestored racingPair := by
  refine ⟨?_, ?_⟩
  · have hlines := racingPair.readlines
    have houtput := readlines_output racingPair
    simp only [racingPair, encodeLines, List.map_cons, List.map_nil, List.nil_append,
      List.cons_append] at hlines houtput
    simp only [parseSchedule, encodeLines, List.map_cons, List.map_nil, hlines, houtput, scanRaces,
      List.foldlM_cons, List.foldlM_nil, insertMarkers, decode_encode]
    refine ⟨_, rfl, ?_⟩
    decide
  · rintro ⟨parsed, hparse, horiginal, -⟩
    exact descriptors_ne racingPair hparse horiginal

/-- The markers are not put back where they were, whatever the schedules are. -/
theorem markers_never_restored (files : RaceFiles scheduleFile outputScheduleFile) :
    ¬MarkersRestored files := by
  rintro ⟨parsed, hparse, horiginal, -⟩
  exact descriptors_ne files hparse horiginal

/-- The same pair, to which no markers are restored. -/
theorem markers_never_restored_of_pair : ¬MarkersRestored racingPair :=
  markers_never_restored racingPair

end R4.ReportReader
