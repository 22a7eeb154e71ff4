import R4.Native.WarningLog
import R4.Spec.WarningFile

/-!
# What the collector reads back of its warnings

The lengths line up: the length in a header counts the details and the newline behind them, and
the next header is where the reader looks for it. But the newline becomes part of the details, and
so does what the memory holds behind the buffer, up to a null character.

## Key results

- `readWarning_logText`: one warning is read back, whatever follows it
- `readLogFile_writeLogText`: what is read of a whole file
- `readLogFile_writeLogText_iff`: when it is the same
-/

namespace R4.WarningCollector

open StdString ReportReader

/-- What is read back of a warning. -/
def readBack (behind : StdString) (w : Warning) : Warning :=
  { w with details := if w.details = [] then [] else w.details ++ '\n' :: ofCString behind }

/-- What is read back of warnings, where those in `before` have been read. -/
def readBackFrom (memory : List Warning → StdString) (before : List Warning) :
    List Warning → List Warning
  | [] => []
  | w :: warnings =>
    let w := readBack (memory before) w
    w :: readBackFrom memory (before ++ [w]) warnings

/-- A warning is read back as it was written if it has no details. -/
theorem readBack_eq_self_iff {behind : StdString} {w : Warning} :
    readBack behind w = w ↔ w.details = [] := by
  constructor
  · intro h
    by_contra hne
    have hlength := congrArg (fun w : Warning => w.details.length) h
    simp only [readBack, if_neg hne, List.length_append, List.length_cons] at hlength
    omega
  · intro h
    rw [readBack, if_pos h, ← h]

/-- Warnings are read back from memory if and only if they have no details. -/
theorem readBackFrom_eq_self_iff {memory : List Warning → StdString}
    {before warnings : List Warning} :
    readBackFrom memory before warnings = warnings ↔ ∀ w ∈ warnings, w.details = [] := by
  induction warnings generalizing before with
  | nil => simp [readBackFrom]
  | cons w warnings ih =>
    rw [readBackFrom, List.cons.injEq, readBack_eq_self_iff, ih, List.forall_mem_cons]

/-! ## Reading -/

/-- A string without a null character is read on to the memory behind it. -/
theorem ofCString_append {s : StdString} (h : '\x00' ∉ s) (behind : StdString) :
    ofCString (s ++ behind) = s ++ ofCString behind := by
  refine List.takeWhile_append_of_pos fun c hc => ?_
  rw [decide_eq_true_eq]
  rintro rfl
  exact h hc

/-- One warning is read back, whatever follows it. -/
theorem readWarning_logText {w : Warning} (plain : PlainHeader w) (hnull : '\x00' ∉ w.details)
    (behind rest : StdString) :
    readWarning behind (w.logText ++ rest) = some (some (readBack behind w, rest)) := by
  obtain ⟨length, hlength⟩ : ∃ length : Nat,
      length = if w.details.length = 0 then 0 else w.details.length + 1 := ⟨_, rfl⟩
  obtain ⟨details, hdetails⟩ : ∃ details : StdString,
      details = if w.details.length ≠ 0 then w.details ++ ['\n'] else [] := ⟨_, rfl⟩
  have hid : ';' ∉ decimalInt w.eventActionId := not_mem_decimalInt (by decide) (by decide) _
  have hline : '\n' ∉ decimalInt w.eventActionId ++ ';' :: (w.module ++ ';' ::
      (w.shortDescription ++ ';' :: decimal length)) := by
    have hid := not_mem_decimalInt (c := '\n') (by decide) (by decide) w.eventActionId
    have hlength := not_mem_decimal (c := '\n') (by decide) length
    simp [hid, hlength, plain.module.2, plain.shortDescription.2]
  have htext : w.logText ++ rest = (decimalInt w.eventActionId ++ ';' :: (w.module ++ ';' ::
      (w.shortDescription ++ ';' :: decimal length))) ++ '\n' :: (details ++ rest) := by
    rw [Warning.logText, ← hlength, ← hdetails]
    simp
  have hne : decimalInt w.eventActionId ++ ';' :: (w.module ++ ';' ::
      (w.shortDescription ++ ';' :: decimal length)) ≠ [] := by simp
  -- the header is one line, with four fields
  rw [htext, readWarning, getline_append hline]
  dsimp only
  rw [if_neg hne, getline_append hid]
  dsimp only
  rw [getline_append plain.module.1]
  dsimp only
  rw [getline_append plain.shortDescription.1]
  dsimp only
  rw [getline_eq_self (not_mem_decimal (by decide) _), atoi_decimal, atoi_decimalInt]
  by_cases hnil : w.details = []
  · -- no details: the length is 0, and nothing more is read
    rw [hnil, List.length_nil, if_pos rfl] at hlength
    rw [hnil, List.length_nil, if_neg (not_not.mpr rfl)] at hdetails
    rw [hlength, if_pos (by decide), hdetails, readBack, hnil, if_pos rfl]
    rfl
  · -- the buffer takes the details and the newline, and no null character
    have hpos : w.details.length ≠ 0 := mt List.length_eq_zero_iff.mp hnil
    rw [if_neg hpos] at hlength
    rw [if_pos hpos] at hdetails
    have hbuffer : details.length = length := by
      rw [hdetails, hlength, List.length_append, List.length_singleton]
    have hnull : '\x00' ∉ details := by
      rw [hdetails]
      simpa using hnull
    rw [if_neg (by omega), if_neg (by omega), Int.toNat_natCast, ← hbuffer, List.take_left,
      List.drop_left, ofCString_append hnull, readBack, if_neg hnil, hdetails, List.append_assoc]
    rfl

/-- At the end of the file there is no warning. -/
theorem readWarning_nil (behind : StdString) : readWarning behind [] = some none := rfl

/-- What is read of the file: every warning at its place, with what its buffer held. -/
theorem readLogFile_writeLogText (memory : List Warning → StdString) {warnings : List Warning}
    (plain : ∀ w ∈ warnings, PlainHeader w) (hnull : ∀ w ∈ warnings, '\x00' ∉ w.details)
    (before : List Warning) :
    readLogFile memory before (warnings.flatMap Warning.logText) =
      some (before ++ readBackFrom memory before warnings) := by
  induction warnings generalizing before with
  | nil =>
    rw [List.flatMap_nil, readLogFile]
    simp [readWarning_nil, readBackFrom]
  | cons w warnings ih =>
    have hread := readWarning_logText (plain w List.mem_cons_self) (hnull w List.mem_cons_self)
      (memory before) (warnings.flatMap Warning.logText)
    rw [List.flatMap_cons, readLogFile]
    split
    · rename_i h
      simp [hread] at h
    · rename_i h
      simp [hread] at h
    · -- the first warning is read, and the rest is the file of the others
      rename_i warning rest h
      obtain ⟨rfl, rfl⟩ := Prod.mk.inj (Option.some.inj (Option.some.inj (hread.symm.trans h)))
      rw [ih (fun w hw => plain w (List.mem_cons_of_mem _ hw))
        fun w hw => hnull w (List.mem_cons_of_mem _ hw), readBackFrom, List.append_assoc,
        List.singleton_append]

/-- The collector reads back the warnings that it wrote if none of them has details, and only
    then, whatever the memory holds behind its buffers. -/
theorem readLogFile_writeLogText_iff (c : WarningCollector)
    (plain : ∀ w ∈ c.warnings, PlainHeader w) (hnull : ∀ w ∈ c.warnings, '\x00' ∉ w.details)
    (memory : List Warning → StdString) :
    readLogFile memory [] c.writeLogText = some c.warnings ↔ ∀ w ∈ c.warnings, w.details = [] := by
  rw [writeLogText, readLogFile_writeLogText memory plain hnull, List.nil_append,
    Option.some.injEq, readBackFrom_eq_self_iff]

/-- A warning without details is read back, in front of memory that is not clear. -/
theorem readLogFile_writeLogText_iff_of_report :
    readLogFile (fun _ => "garbage".toList) []
        (WarningCollector.init.report "console.log".toList "CONSOLE (LOG)".toList []).writeLogText =
      some [⟨0, "console.log".toList, "CONSOLE (LOG)".toList, []⟩] := by
  refine (readLogFile_writeLogText_iff
    (WarningCollector.init.report "console.log".toList "CONSOLE (LOG)".toList []) ?_ ?_ _).mpr ?_
  · intro w hw
    obtain rfl := List.mem_singleton.mp hw
    exact ⟨by decide, by decide⟩
  · intro w hw
    obtain rfl := List.mem_singleton.mp hw
    exact List.not_mem_nil
  · intro w hw
    obtain rfl := List.mem_singleton.mp hw
    rfl

/-- A warning with details comes back with a newline behind them, even where the memory behind
    the buffer is clear. -/
theorem details_read_with_newline :
    let c := WarningCollector.init.report "console.log".toList "CONSOLE (LOG)".toList "x".toList
    readLogFile (fun _ => ['\x00']) [] c.writeLogText =
        some [⟨0, "console.log".toList, "CONSOLE (LOG)".toList, "x\n".toList⟩] ∧
      readLogFile (fun _ => ['\x00']) [] c.writeLogText ≠ some c.warnings := by
  intro c
  -- what is read are the warnings, with what lies behind them in memory
  have hread : readLogFile (fun _ => ['\x00']) [] c.writeLogText =
      some ([] ++ readBackFrom (fun _ => ['\x00']) [] c.warnings) := by
    refine readLogFile_writeLogText _ ?_ ?_ []
    · intro w hw
      obtain rfl := List.mem_singleton.mp hw
      exact ⟨by decide, by decide⟩
    · intro w hw
      obtain rfl := List.mem_singleton.mp hw
      decide
  -- the details are read with their newline
  have hback : [] ++ readBackFrom (fun _ => ['\x00']) [] c.warnings =
      [⟨0, "console.log".toList, "CONSOLE (LOG)".toList, "x\n".toList⟩] := by decide +kernel
  rw [hread, hback]
  exact ⟨rfl, by decide +kernel⟩

end R4.WarningCollector
