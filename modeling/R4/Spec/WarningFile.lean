import R4.Native.ReportReader
import R4.Native.WarningCollector

/-!
# The file of warnings

The collector writes it in one language and the reports read it in another. The details of a
warning are text of the page, which may look like anything, so they are found by their length
alone.

## Key results

- `readRecord_warning`: one warning is read back, whatever follows it
- `reported_warnings_are_plain`: what reporters pass does not break the format
- `report_recovers_warnings`: the whole file is read back
-/

namespace R4.ReportReader

/-- A text that can stand in the header of a warning. -/
def Plain (s : StdString) : Prop := ';' ∉ s ∧ '\n' ∉ s

instance (s : StdString) : Decidable (Plain s) := inferInstanceAs (Decidable (_ ∧ _))

/-- A warning whose module and short description can stand in its header. -/
structure PlainHeader (w : Warning) : Prop where
  module : Plain w.module
  shortDescription : Plain w.shortDescription

/-- What should be read of a warning: details that are there end in a newline. -/
def recordOf (w : Warning) : ErrorRecord where
  eventActionId := StdString.decimalInt w.eventActionId
  module := w.module
  description := w.shortDescription
  details := if w.details = [] then [] else w.details ++ ['\n']

/-- Details have length zero if and only if there are none. -/
theorem detailsLength_eq_zero {w : Warning} : w.detailsLength = 0 ↔ w.details = [] := by
  have hpos : ∀ c, String.utf8EncodeChar c ≠ [] := by
    intro c hnil
    have hlength := String.length_utf8EncodeChar c
    rw [hnil] at hlength
    exact absurd hlength (Nat.ne_of_lt c.utf8Size_pos)
  rw [Warning.detailsLength, List.length_eq_zero_iff]
  cases w.details with
  | nil => simp
  | cons c s => simp [Utf8.encode_cons, hpos c]

/-! ## One warning -/

/-- The header is one line. -/
theorem newline_notMem_header {w : Warning} (plain : PlainHeader w) : '\n' ∉ w.header := by
  have hid := StdString.not_mem_decimalInt (c := '\n') (by decide) (by decide) w.eventActionId
  have hlength := StdString.not_mem_decimal (c := '\n') (by decide)
    (if w.detailsLength = 0 then 0 else w.detailsLength + 1)
  simp [Warning.header, hid, hlength, plain.module.2, plain.shortDescription.2]

/-- The reader splits it into its four fields. -/
theorem splitOn_header {w : Warning} (plain : PlainHeader w) :
    (w.header ++ ['\n']).splitOn ';' =
      [StdString.decimalInt w.eventActionId, w.module, w.shortDescription,
        StdString.decimal (if w.detailsLength = 0 then 0 else w.detailsLength + 1) ++ ['\n']] := by
  have hid := StdString.not_mem_decimalInt (c := ';') (by decide) (by decide) w.eventActionId
  have hlength := StdString.not_mem_decimal (c := ';') (by decide)
    (if w.detailsLength = 0 then 0 else w.detailsLength + 1)
  have hlast : ';' ∉ StdString.decimal (if w.detailsLength = 0 then 0 else w.detailsLength + 1) ++
      ['\n'] := by simp [hlength]
  simp only [Warning.header, List.append_assoc, List.cons_append]
  rw [List.splitOn_append_cons_self_of_not_mem hid,
    List.splitOn_append_cons_self_of_not_mem plain.module.1,
    List.splitOn_append_cons_self_of_not_mem plain.shortDescription.1,
    List.splitOn_eq_singleton hlast]

/-- The line of a header is read, whatever follows it. -/
theorem readline_header {w : Warning} (plain : PlainHeader w) (rest : List UInt8) :
    Python.readline (Utf8.encode (w.header ++ ['\n']) ++ rest) =
      (Utf8.encode (w.header ++ ['\n']), rest) := by
  have hnewline : Utf8.encode ['\n'] = [Python.newline] := by decide
  -- an ASCII byte of the encoding is an ASCII character of the text
  have hline : Python.newline ∉ Utf8.encode w.header := fun hmem =>
    newline_notMem_header plain (Utf8.mem_encode_ascii (a := '\n') (by decide) hmem)
  rw [Utf8.encode_append, hnewline, List.append_assoc, List.singleton_append,
    Python.readline_line hline]

/-- One warning is read back, whatever follows it. -/
theorem readRecord_warning {w : Warning} (plain : PlainHeader w) (rest : List UInt8) :
    readRecord (Utf8.encode w.text ++ rest) = some (some (recordOf w, rest)) := by
  have htext : Utf8.encode w.text ++ rest = Utf8.encode (w.header ++ ['\n']) ++
      (Utf8.encode (if w.detailsLength ≠ 0 then w.details ++ ['\n'] else []) ++ rest) := by
    rw [← List.append_assoc, ← Utf8.encode_append, Warning.text, List.append_assoc,
      List.singleton_append]
  have hheader : decode (Utf8.encode (w.header ++ ['\n'])) = w.header ++ ['\n'] :=
    Utf8.decodeIgnore_encode _
  have hne : w.header ++ ['\n'] ≠ [] := by simp
  -- the header is one line, and its last field is the length of what follows
  rw [htext, readRecord, readline_header plain]
  dsimp only
  rw [hheader, if_neg hne, splitOn_header plain]
  dsimp only
  rw [Python.int_decimal, Option.map_some, recordOf]
  by_cases hdetails : w.detailsLength = 0
  · -- no details: the length is 0, and nothing more is read
    rw [if_pos hdetails, if_neg (not_not.mpr hdetails), if_pos (detailsLength_eq_zero.mp hdetails)]
    rfl
  · -- the length counts the details and the newline behind them
    have hlength : (Utf8.encode (w.details ++ ['\n'])).length = w.detailsLength + 1 := by
      rw [Utf8.encode_append, List.length_append]
      rfl
    have hpos : ((w.detailsLength + 1 : Nat) : Int) ≠ 0 := by omega
    rw [if_neg hdetails, if_pos hdetails, if_neg hpos, Python.read_append hlength,
      if_neg (mt detailsLength_eq_zero.mpr hdetails)]
    dsimp only
    rw [decode, Utf8.decodeIgnore_encode]

/-- A text does not contain a longer one. -/
theorem contains_eq_false {needle : String} {text : StdString}
    (h : text.length < needle.toList.length) : contains needle text = false := by
  rw [contains, decide_eq_false_iff_not]
  exact fun hinfix => absurd hinfix.length_le (Nat.not_le.mpr h)

/-! ## The whole file -/

/-- At the end of the file there is no record. -/
theorem readRecord_nil : readRecord [] = some none := by
  simp [readRecord, Python.readline, decode, Utf8.decodeIgnore]

/-- Warnings with plain headers are read back as their records. -/
theorem parseErrors_warnings {ws : List Warning} (plain : ∀ w ∈ ws, PlainHeader w)
    (p : ParsedErrors) :
    parseErrors p (ws.flatMap fun w => Utf8.encode w.text) =
      some ((ws.map recordOf).foldl ParsedErrors.add p, []) := by
  induction ws generalizing p with
  | nil =>
    rw [List.flatMap_nil, parseErrors]
    split
    · rename_i h
      simp [readRecord_nil] at h
    · rfl
    · rename_i h
      simp [readRecord_nil] at h
  | cons w ws ih =>
    have hread := readRecord_warning (plain w List.mem_cons_self)
      (ws.flatMap fun w => Utf8.encode w.text)
    rw [List.flatMap_cons, parseErrors]
    split
    · rename_i h
      simp [hread] at h
    · rename_i h
      simp [hread] at h
    · -- the first record is read, and the rest is the file of the other warnings
      rename_i r rest h
      rw [hread] at h
      obtain ⟨rfl, rfl⟩ := Prod.mk.inj (Option.some.inj (Option.some.inj h))
      rw [ih fun w hw => plain w (List.mem_cons_of_mem _ hw)]
      rfl

/-- A record is added behind those before it. -/
@[simp] theorem add_records (p : ParsedErrors) (r : ErrorRecord) :
    (p.add r).records = p.records ++ [r] := by
  unfold ParsedErrors.add
  dsimp only
  split
  · rfl
  · split <;> split <;> split <;> split <;> rfl

/-- So are several records. -/
theorem foldl_add_records (rs : List ErrorRecord) (p : ParsedErrors) :
    (rs.foldl ParsedErrors.add p).records = p.records ++ rs := by
  induction rs generalizing p with
  | nil => simp
  | cons r rs ih => rw [List.foldl_cons, ih, add_records, List.append_assoc, List.singleton_append]

/-- The name of a console message is plain. -/
theorem plain_consoleMessage (source : MessageSource) (level : MessageLevel) :
    Plain (source.name ++ " (".toList ++ level.name ++ ")".toList) := by
  cases source <;> cases level <;> decide

/-- The name of a console call is plain. -/
theorem plain_consoleCall (level : MessageLevel) :
    Plain ("CONSOLE (".toList ++ level.name ++ ")".toList) := by
  cases level <;> decide

/-- A report with plain texts has a plain header. -/
theorem plainHeader_report {c : WarningCollector} {module shortDescription : StdString}
    (plain : ∀ w ∈ c.warnings, PlainHeader w) (hmodule : Plain module)
    (hdescription : Plain shortDescription) (details : StdString) :
    ∀ w ∈ (c.report module shortDescription details).warnings, PlainHeader w := by
  intro w hw
  rcases List.mem_append.mp hw with hw | hw
  · exact plain w hw
  · obtain rfl := List.mem_singleton.mp hw
    exact ⟨hmodule, hdescription⟩

/-- The messages of the console have plain headers, whatever the page writes. -/
theorem reported_warnings_are_plain (source : MessageSource) (level : MessageLevel)
    (message : List UInt16) (c : WarningCollector) (plain : ∀ w ∈ c.warnings, PlainHeader w) :
    (∀ w ∈ (consoleMessage source level message c).warnings, PlainHeader w) ∧
      ∀ w ∈ (consoleCall level message c).warnings, PlainHeader w :=
  have hmodule : Plain "console.log".toList := by decide
  ⟨plainHeader_report plain hmodule (plain_consoleMessage source level) _,
    plainHeader_report plain hmodule (plain_consoleCall level) _⟩

/-- The reports recover every warning that the collector wrote, if the modules and short
    descriptions hold no separator: the loop reads exactly these records, in order, and
    stops at the end of the file. Details that are there come back with one newline behind
    them, whatever their text is. -/
theorem report_recovers_warnings (c : WarningCollector) (plain : ∀ w ∈ c.warnings, PlainHeader w) :
    ∃ out, parseErrors .init c.writeLogFile = some (out, []) ∧
      out.records = c.warnings.map recordOf ∧
      out = (c.warnings.map recordOf).foldl ParsedErrors.add .init :=
  ⟨_, parseErrors_warnings plain _, foldl_add_records _ _, rfl⟩

/-- Details that look like a header. -/
theorem report_recovers_warnings_of_header :
    let c := WarningCollector.init.report "console.log".toList "CONSOLE (LOG)".toList
      "7;console.log;CONSOLE (LOG);0\n\n".toList
    ∃ out, parseErrors .init c.writeLogFile = some (out, []) ∧
      out.records = [⟨"0".toList, "console.log".toList, "CONSOLE (LOG)".toList,
        "7;console.log;CONSOLE (LOG);0\n\n\n".toList⟩] := by
  intro c
  have plain : ∀ w ∈ c.warnings, PlainHeader w := by
    intro w hw
    obtain rfl := List.mem_singleton.mp hw
    exact ⟨by decide, by decide⟩
  obtain ⟨out, hparse, hrecords, -⟩ := report_recovers_warnings c plain
  exact ⟨out, hparse, hrecords.trans (by decide +kernel)⟩

end R4.ReportReader
