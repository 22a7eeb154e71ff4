import R4.Native.WarningCollector

/-!
# The file of warnings, read back by the collector

`WarningCollector::readLogFile` (`warningcollector.cpp`), and the file of `writeLogFile` as it
reads it. Here a `std::string` is the list of its bytes, a character for each, so that the strings
need not be text.

The details are read into a buffer that is neither cleared nor ended with a null character, and
then passed as a C string. What the memory holds behind the bytes that were read is a parameter.
-/

namespace R4

open StdString

/-! ## Writing -/

namespace Warning

/-- What `writeLogFile` writes of one warning. -/
def logText (w : Warning) : StdString :=
  decimalInt w.eventActionId ++ ';' :: (w.module ++ ';' :: (w.shortDescription ++ ';' ::
    (decimal (if w.details.length = 0 then 0 else w.details.length + 1) ++ '\n' ::
      if w.details.length ≠ 0 then w.details ++ ['\n'] else [])))

/-- The warning with the bytes of its strings. -/
def encoded (w : Warning) : Warning where
  eventActionId := w.eventActionId
  module := Utf8.byteString w.module
  shortDescription := Utf8.byteString w.shortDescription
  details := Utf8.byteString w.details

end Warning

namespace WarningCollector

/-- `writeLogFile`: the file. -/
def writeLogText (c : WarningCollector) : StdString := c.warnings.flatMap Warning.logText

/-- It has the bytes that `writeLogFile` writes of text. -/
theorem ofBytes_writeLogFile (c : WarningCollector) :
    Utf8.ofBytes c.writeLogFile =
      writeLogText { c with warnings := c.warnings.map Warning.encoded } := by
  -- numbers are ASCII
  have hid : ∀ n : Int, Utf8.byteString (decimalInt n) = decimalInt n := fun n =>
    Utf8.byteString_ascii fun c hc => toNat_lt_of_mem_decimalInt hc
  have hlength : ∀ n : Nat, Utf8.byteString (decimal n) = decimal n := fun n =>
    Utf8.byteString_ascii fun c hc => toNat_lt_of_mem_decimalInt (n := .ofNat n) hc
  -- so are the separators
  have hsemi : ∀ s, Utf8.byteString (';' :: s) = ';' :: Utf8.byteString s :=
    Utf8.byteString_cons_ascii (by decide)
  have hnewline : ∀ s, Utf8.byteString ('\n' :: s) = '\n' :: Utf8.byteString s :=
    Utf8.byteString_cons_ascii (by decide)
  -- the bytes of a warning are those of its parts
  have hwarning : ∀ w : Warning, Utf8.byteString w.text = w.encoded.logText := by
    intro w
    have hdetails : w.encoded.details.length = w.detailsLength := Utf8.length_byteString _
    -- details are followed by a newline, if there are any
    have htail : Utf8.byteString (if w.detailsLength ≠ 0 then w.details ++ ['\n'] else []) =
        if w.detailsLength ≠ 0 then w.encoded.details ++ ['\n'] else [] := by
      split
      · rw [Utf8.byteString_append, hnewline]
        rfl
      · rfl
    rw [Warning.text, Warning.header, Warning.logText, hdetails, ← htail]
    simp only [Utf8.byteString_append, hid, hsemi, hlength, hnewline, List.append_assoc,
      List.cons_append]
    rfl
  rw [writeLogFile, writeLogText, Utf8.ofBytes, List.map_flatMap, List.flatMap_map]
  exact congrArg (fun f => List.flatMap f c.warnings) (funext hwarning)

/-! ## Reading -/

/-- A `std::string` that is made from a `char*`: what stands before the first null character. -/
def ofCString (memory : StdString) : StdString := memory.takeWhile fun c => c ≠ '\x00'

/-- One iteration: the warning and the rest of the file, or nothing at a blank line. The outer
    `none` is the exception of a `new` with a negative length. -/
def readWarning (behind fp : StdString) : Option (Option (Warning × StdString)) :=
  let (line, fp) := getline '\n' fp
  if line = [] then some none
  else
    let (eventActionId, warning) := getline ';' line
    let (module, warning) := getline ';' warning
    let (shortDescription, warning) := getline ';' warning
    let (detailsLength, _) := getline '\n' warning
    let length := atoi detailsLength
    if length = 0 then some (some (⟨atoi eventActionId, module, shortDescription, []⟩, fp))
    else if length < 0 then none
    else
      let details := ofCString (fp.take length.toNat ++ behind)
      some (some (⟨atoi eventActionId, module, shortDescription, details⟩, fp.drop length.toNat))

/-- Every warning takes at least its header from the file. -/
theorem readWarning_length {behind fp rest : StdString} {w : Warning}
    (h : readWarning behind fp = some (some (w, rest))) : rest.length < fp.length := by
  -- a line that is not empty takes something from the file
  have hline : (getline '\n' fp).1 = [] ∨ (getline '\n' fp).2.length < fp.length := by
    rcases List.eq_nil_or_concat (getline '\n' fp).1 with hnil | ⟨front, c, hline⟩
    · exact Or.inl hnil
    · right
      have happend := congrArg List.length
        (List.takeWhile_append_dropWhile (p := fun c => decide (c ≠ '\n')) (l := fp))
      -- the line itself, without its newline
      have hfront : (fp.takeWhile fun c => decide (c ≠ '\n')).length = front.length + 1 := by
        have := congrArg List.length hline
        simpa [getline] using this
      rw [List.length_append, hfront] at happend
      rw [getline, List.length_tail]
      omega
  unfold readWarning at h
  dsimp only at h
  split at h
  · -- the file is at its end
    exact nomatch Option.some.inj h
  · rename_i hne
    have hlt := hline.resolve_left hne
    split at h
    · -- there are no details
      obtain rfl := (Prod.mk.inj (Option.some.inj (Option.some.inj h))).2
      exact hlt
    · split at h
      · exact nomatch h
      · -- the details are read behind the line
        obtain rfl := (Prod.mk.inj (Option.some.inj (Option.some.inj h))).2
        rw [List.length_drop]
        omega

/-- `readLogFile`. What is behind the buffer of a warning may depend on the warnings before it. -/
def readLogFile (memory : List Warning → StdString) (warnings : List Warning) (fp : StdString) :
    Option (List Warning) :=
  match _h : readWarning (memory warnings) fp with
  | none => none
  -- the last line is blank
  | some none => some warnings
  | some (some (warning, rest)) => readLogFile memory (warnings ++ [warning]) rest
termination_by fp.length
decreasing_by exact readWarning_length _h

end WarningCollector

end R4
