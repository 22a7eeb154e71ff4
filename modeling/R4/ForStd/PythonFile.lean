import R4.ForStd.Utf8
import Mathlib.Data.List.DropRight

/-!
# Files and numbers in Python

A file that Python has opened in binary mode is the list of the bytes that are still to be
read, and one that is opened as text is the list of its lines. `int` reads a number from text.

## Key results

- `readline_line`: a line is read up to its newline
- `readlines_flatten`: the lines of a file are read back
- `textLines_flatMap`: so are those of a text, unless a line has a carriage return in it
- `split_append`: the first part that `split` returns, for a separator of several characters
- `int_decimal`: `int` reads back a printed number, also with the newline behind it
- `int_decimalInt`: so it does for a signed number, with white space around it
-/

namespace Python

/-- `b'\n'`. -/
def newline : UInt8 := 10

/-- `fp.readline()`: the bytes up to the first newline, which is included, or all of them. -/
def readline : List UInt8 → List UInt8 × List UInt8
  | [] => ([], [])
  | b :: rest =>
    if b = newline then ([b], rest)
    else (b :: (readline rest).1, (readline rest).2)

/-- `fp.read(length)`: everything for a negative length, and what there is at the end. -/
def read (length : Int) (fp : List UInt8) : List UInt8 × List UInt8 :=
  if length < 0 then (fp, []) else fp.splitAt length.toNat

/-- `fp.readlines()`: every line with its newline. -/
def readlines : List UInt8 → List (List UInt8)
  | [] => []
  | b :: rest =>
    if b = newline then [b] :: readlines rest
    else
      match readlines rest with
      | [] => [[b]]
      | line :: lines => (b :: line) :: lines

/-- What a file opened as text holds: every kind of line end is a newline. -/
def universalNewlines : StdString → StdString
  | [] => []
  | '\r' :: '\n' :: rest => '\n' :: universalNewlines rest
  | c :: rest => (if c = '\r' then '\n' else c) :: universalNewlines rest

/-- The lines of a text, each with its newline. -/
def linesOf : StdString → List StdString
  | [] => []
  | c :: rest =>
    if c = '\n' then [c] :: linesOf rest
    else
      match linesOf rest with
      | [] => [[c]]
      | line :: lines => (c :: line) :: lines

/-- `for line in fp`, for a file opened as text. -/
def textLines (text : StdString) : List StdString := linesOf (universalNewlines text)

/-- `xs[i]`: an index below 0 counts from the back. `none` is an `IndexError`. -/
def index {α : Type} (xs : List α) (i : Int) : Option α :=
  if 0 ≤ i then xs[i.toNat]?
  else if 0 ≤ xs.length + i then xs[(xs.length + i).toNat]?
  else none

/-- `s.split(sep, 1)`: one part or two. -/
def split1 (sep : Char) (s : StdString) : List StdString :=
  if sep ∈ s then [s.takeWhile (· ≠ sep), (s.dropWhile (· ≠ sep)).drop 1] else [s]

/-- A character before the first part. -/
def consFirst (c : Char) : List StdString → List StdString
  | [] => [[c]]
  | part :: parts => (c :: part) :: parts

/-- The parts behind the next `skip` characters, which belong to a separator. -/
def splitFrom (sep : StdString) : Nat → StdString → List StdString
  | _, [] => [[]]
  | skip + 1, _ :: rest => splitFrom sep skip rest
  | 0, c :: rest =>
    if sep <+: c :: rest then [] :: splitFrom sep (sep.length - 1) rest
    else consFirst c (splitFrom sep 0 rest)

/-- `s.split(sep)`, for a separator that is not empty. -/
def split (sep s : StdString) : List StdString := splitFrom sep 0 s

/-- White space, as `str.isspace` has it. -/
def isSpace (c : Char) : Bool :=
  let n := c.toNat
  (9 ≤ n && n ≤ 13) || (28 ≤ n && n ≤ 32) || n = 0x85 || n = 0xA0 || n = 0x1680
    || (0x2000 ≤ n && n ≤ 0x200A) || n = 0x2028 || n = 0x2029 || n = 0x202F || n = 0x205F
    || n = 0x3000

/-- `s.strip()`. -/
def strip (s : StdString) : StdString := (s.dropWhile isSpace).rdropWhile isSpace

/-- Digits, which may be grouped by single underscores. -/
def digits (s : StdString) : Option Nat :=
  let groups := s.splitOn '_'
  if groups.all fun g => !g.isEmpty && g.all Char.isDigit then
    some (Nat.ofDigitChars 10 groups.flatten 0)
  else none

/-- `int(s)`: `none` is a `ValueError`. The digits of other scripts are not read. -/
def int (s : StdString) : Option Int :=
  match strip s with
  | '-' :: rest => (digits rest).map fun n => -(n : Int)
  | '+' :: rest => (digits rest).map fun n => (n : Int)
  | rest => (digits rest).map fun n => (n : Int)

/-! ## Reading -/

/-- Nothing is lost between the line and the rest. -/
theorem readline_append (fp : List UInt8) : (readline fp).1 ++ (readline fp).2 = fp := by
  induction fp with
  | nil => rfl
  | cons b rest ih =>
    rw [readline]
    split
    · rfl
    · rw [List.cons_append, ih]

/-- A line is read up to its newline. -/
theorem readline_line {line : List UInt8} (h : newline ∉ line) (rest : List UInt8) :
    readline (line ++ newline :: rest) = (line ++ [newline], rest) := by
  induction line with
  | nil => rw [List.nil_append, readline, if_pos rfl, List.nil_append]
  | cons b line ih =>
    obtain ⟨hb, hline⟩ := not_or.mp (mt List.mem_cons.mpr h)
    rw [List.cons_append, readline, if_neg (Ne.symm hb), ih hline, List.cons_append]

/-- As many bytes as are asked for are read, and the rest stays. -/
theorem read_append {length : Nat} {bytes : List UInt8} (h : bytes.length = length)
    (rest : List UInt8) : read length (bytes ++ rest) = (bytes, rest) := by
  rw [read, if_neg (Int.not_lt.mpr (Int.natCast_nonneg _)), Int.toNat_natCast, List.splitAt_eq,
    List.take_left' h, List.drop_left' h]

/-- What is read and what is left are the file. -/
theorem read_length_le (length : Int) (fp : List UInt8) :
    (read length fp).2.length ≤ fp.length := by
  unfold read
  split
  · exact Nat.zero_le _
  · rw [List.splitAt_eq, List.length_drop]
    exact Nat.sub_le _ _

/-! ## Lines -/

/-- Lines as they stand in a file: all but the last end in a newline. -/
inductive Lines : List (List UInt8) → Prop where
  | nil : Lines []
  | last {line : List UInt8} (h : newline ∉ line) (hne : line ≠ []) : Lines [line]
  | cons {line : List UInt8} {lines : List (List UInt8)} (h : newline ∉ line)
      (rest : Lines lines) : Lines ((line ++ [newline]) :: lines)

/-- A byte before a line is part of it. -/
theorem Lines.byte {b : UInt8} (hb : b ≠ newline) {line : List UInt8} {lines : List (List UInt8)}
    (h : Lines (line :: lines)) : Lines ((b :: line) :: lines) := by
  have hmem : ∀ {line : List UInt8}, newline ∉ line → newline ∉ b :: line := by
    intro line hline hnewline
    rcases List.mem_cons.mp hnewline with heq | htail
    · exact hb heq.symm
    · exact hline htail
  cases h with
  | last h hne => exact .last (hmem h) (List.cons_ne_nil _ _)
  | cons h rest =>
    have hcons := Lines.cons (hmem h) rest
    exact hcons

/-- All but the last of the lines end with a newline. -/
theorem lines_readlines (fp : List UInt8) : Lines (readlines fp) := by
  induction fp with
  | nil => exact .nil
  | cons b rest ih =>
    rw [readlines]
    -- the byte is the end of an empty line
    by_cases hb : b = newline
    · subst hb
      have hempty : newline ∉ ([] : List UInt8) := List.not_mem_nil
      have hcons := Lines.cons hempty ih
      exact hcons
    · -- the byte is the first one of the line behind it
      rw [if_neg hb]
      split
      · -- there is no line behind it: it is the last one
        exact .last (by simpa using Ne.symm hb) (List.cons_ne_nil _ _)
      · rename_i line lines hlines
        rw [hlines] at ih
        exact ih.byte hb

/-- A line ends with its first newline. -/
theorem readlines_line {line : List UInt8} (h : newline ∉ line) (rest : List UInt8) :
    readlines (line ++ newline :: rest) = (line ++ [newline]) :: readlines rest := by
  induction line with
  | nil => rw [List.nil_append, readlines, if_pos rfl, List.nil_append]
  | cons b line ih =>
    obtain ⟨hb, hline⟩ := not_or.mp (mt List.mem_cons.mpr h)
    rw [List.cons_append, readlines, if_neg (Ne.symm hb), ih hline, List.cons_append]

/-- A last line needs no newline. -/
theorem readlines_last {line : List UInt8} (h : newline ∉ line) (hne : line ≠ []) :
    readlines line = [line] := by
  induction line with
  | nil => exact absurd rfl hne
  | cons b line ih =>
    obtain ⟨hb, hline⟩ := not_or.mp (mt List.mem_cons.mpr h)
    rw [readlines, if_neg (Ne.symm hb)]
    cases hempty : line with
    | nil => rfl
    | cons c cs => rw [← hempty, ih hline (by simp [hempty])]

/-- The lines of a file are read back. -/
theorem readlines_flatten {lines : List (List UInt8)} (h : Lines lines) :
    readlines lines.flatten = lines := by
  induction h with
  | nil => rfl
  | last h hne => rw [List.flatten_singleton, readlines_last h hne]
  | cons h rest ih =>
    rw [List.flatten_cons, List.append_assoc, List.singleton_append, readlines_line h, ih]

/-- A line before the last one can be taken out. -/
theorem Lines.erase {before rest : List (List UInt8)} {line : List UInt8}
    (h : Lines (before ++ line :: rest)) (hrest : rest ≠ []) : Lines (before ++ rest) := by
  -- the induction is on the lines in front
  induction before with
  | nil =>
    rw [List.nil_append] at h ⊢
    -- the line is not the last one, since something is left
    cases h with
    | last => exact absurd rfl hrest
    | cons _ rest => exact rest
  | cons l before ih =>
    rw [List.cons_append] at h ⊢
    generalize hlines : before ++ line :: rest = lines at h
    cases h with
    | last => simp at hlines
    | cons hl hrest =>
      subst hlines
      exact .cons hl (ih hrest)

/-! ## Text -/

/-- Nothing is translated in a text without carriage returns. -/
theorem universalNewlines_eq {text : StdString} (h : '\r' ∉ text) :
    universalNewlines text = text := by
  induction text with
  | nil => rfl
  | cons c rest ih =>
    obtain ⟨hc, hrest⟩ := not_or.mp (mt List.mem_cons.mpr h)
    rw [universalNewlines, if_neg (Ne.symm hc), ih hrest]
    rintro rest' rfl
    exact absurd rfl hc

/-- A line of text ends with its first newline. -/
theorem linesOf_line {line : StdString} (h : '\n' ∉ line) (rest : StdString) :
    linesOf (line ++ '\n' :: rest) = (line ++ ['\n']) :: linesOf rest := by
  induction line with
  | nil => rw [List.nil_append, linesOf, if_pos rfl, List.nil_append]
  | cons c line ih =>
    obtain ⟨hc, hline⟩ := not_or.mp (mt List.mem_cons.mpr h)
    rw [List.cons_append, linesOf, if_neg (Ne.symm hc), ih hline, List.cons_append]

/-- The lines of a text are read back. -/
theorem textLines_flatMap {lines : List StdString}
    (h : ∀ line ∈ lines, '\n' ∉ line ∧ '\r' ∉ line) :
    textLines (lines.flatMap fun line => line ++ ['\n']) =
      lines.map fun line => line ++ ['\n'] := by
  -- no line has a carriage return, so nothing is translated
  have hreturn : '\r' ∉ lines.flatMap fun line => line ++ ['\n'] := by
    intro hmem
    obtain ⟨line, hline, hmem⟩ := List.mem_flatMap.mp hmem
    rcases List.mem_append.mp hmem with hmem | hmem
    · exact (h line hline).2 hmem
    · simp at hmem
  rw [textLines, universalNewlines_eq hreturn]
  induction lines with
  | nil => rfl
  | cons line lines ih =>
    obtain ⟨hline, hlines⟩ := List.forall_mem_cons.mp h
    -- the first line ends with its newline, and the others are read behind it
    rw [List.flatMap_cons, List.append_assoc, List.singleton_append, linesOf_line hline.1,
      List.map_cons, ih hlines]
    intro hmem
    exact hreturn (by simp [hmem])

/-- A separator that ends in a character that is not in the text does not start in it. -/
theorem not_prefix_append {start a rest : StdString} {c : Char} (hstart : c ∉ start) (ha : c ∉ a)
    (hne : a ≠ []) : ¬ start ++ [c] <+: a ++ (start ++ rest) := by
  intro hprefix
  -- the character would be among those of the text and of the start of the separator
  have hget := List.prefix_iff_getElem?.mp hprefix start.length (by simp)
  rw [List.getElem_append_right (Nat.le_refl _)] at hget
  have hlt : start.length < (a ++ start).length := by
    have := List.length_pos_iff.mpr hne
    rw [List.length_append]
    omega
  rw [← List.append_assoc, List.getElem?_append_left hlt] at hget
  have hmem := List.mem_of_getElem? hget
  simp only [Nat.sub_self, List.getElem_cons_zero] at hmem
  rcases List.mem_append.mp hmem with hmem | hmem
  · exact ha hmem
  · exact hstart hmem

/-- The characters to be skipped are skipped. -/
theorem splitFrom_length (sep skipped rest : StdString) :
    splitFrom sep skipped.length (skipped ++ rest) = splitFrom sep 0 rest := by
  induction skipped with
  | nil => rfl
  | cons c skipped ih => exact ih

/-- The part before the first separator. -/
theorem split_append {start a : StdString} {c : Char} (hstart : c ∉ start) (ha : c ∉ a)
    (rest : StdString) :
    split (start ++ [c]) (a ++ (start ++ c :: rest)) = a :: split (start ++ [c]) rest := by
  induction a with
  | nil =>
    -- the separator is at the front
    obtain ⟨first, others, hsep⟩ := List.exists_cons_of_ne_nil (List.append_ne_nil_of_right_ne_nil
      start (List.cons_ne_nil c []))
    have htext : start ++ c :: rest = first :: (others ++ rest) := by
      rw [← List.cons_append, ← hsep, List.append_assoc, List.singleton_append]
    -- it is as long as what is skipped
    have hprefix : start ++ [c] <+: first :: (others ++ rest) := ⟨rest, by rw [hsep]; rfl⟩
    rw [List.nil_append, split, htext, splitFrom, if_pos hprefix, hsep, List.length_cons,
      Nat.add_sub_cancel, splitFrom_length, split]
  | cons x a ih =>
    -- the first character is part of what comes before the separator
    have hnot : ¬ start ++ [c] <+: x :: (a ++ (start ++ c :: rest)) :=
      not_prefix_append hstart ha (List.cons_ne_nil x a)
    rw [split, List.cons_append, splitFrom, if_neg hnot]
    rw [split] at ih
    rw [ih (mt (List.mem_cons_of_mem x) ha)]
    rfl

/-- A text without the separator is one part. -/
theorem split_of_not_mem {start s : StdString} {c : Char} (h : c ∉ s) :
    split (start ++ [c]) s = [s] := by
  induction s with
  | nil => rfl
  | cons x s ih =>
    have hlast : c ∈ start ++ [c] := List.mem_append_right _ (List.mem_singleton_self c)
    have hnot : ¬ start ++ [c] <+: x :: s := fun hstarts => h (hstarts.subset hlast)
    rw [split, splitFrom, if_neg hnot]
    rw [split] at ih
    rw [ih (mt (List.mem_cons_of_mem x) h)]
    rfl

/-- An index that is not negative counts from the front. -/
theorem index_of_nonneg {α : Type} {xs : List α} {i : Int} {n : Nat} (h : i = n) :
    index xs i = xs[n]? := by
  rw [index, if_pos (by omega), h, Int.toNat_natCast]

/-- A text with a separator is split at the first one. -/
theorem split1_of_mem {sep : Char} {s : StdString} (h : sep ∈ s) :
    split1 sep s = [s.takeWhile (· ≠ sep), (s.dropWhile (· ≠ sep)).drop 1] := if_pos h

/-! ## Numbers -/

/-- Digits are no blanks. -/
theorem not_isSpace_of_isDigit {c : Char} (h : c.isDigit = true) : isSpace c = false := by
  have hrange : 48 ≤ c.toNat ∧ c.toNat ≤ 57 := by
    simpa [Char.isDigit, Char.le_def, UInt32.le_iff_toNat_le, ← Char.toNat_val] using h
  simp only [isSpace, Bool.or_eq_false_iff, Bool.and_eq_false_iff, decide_eq_false_iff_not]
  omega

/-- A number is read back from its digits. -/
theorem digits_decimal (n : Nat) : digits (StdString.decimal n) = some n := by
  have hdigit : ∀ c ∈ StdString.decimal n, c.isDigit = true := fun _ hc =>
    StdString.isDigit_of_mem_decimal hc
  have hgroups : (StdString.decimal n).splitOn '_' = [StdString.decimal n] :=
    List.splitOn_eq_singleton (StdString.not_mem_decimal (by decide) n)
  rw [digits, hgroups, if_pos (by simpa [StdString.decimal_ne_nil n] using hdigit),
    List.flatten_singleton]
  exact congrArg some (Nat.ofDigitChars_toDigits (by decide) (by decide))

/-- White space around a text is stripped. -/
theorem strip_append {front s back : StdString} (hfront : ∀ c ∈ front, isSpace c = true)
    (hback : ∀ c ∈ back, isSpace c = true) (hs : ∀ c ∈ s, isSpace c = false) :
    strip (front ++ s ++ back) = s := by
  -- at the end of the text there is no blank to be dropped
  have hkept : s.rdropWhile isSpace = s := by
    rw [List.rdropWhile_eq_self_iff]
    intro hne
    rw [hs _ (List.getLast_mem hne)]
    exact Bool.false_ne_true
  -- behind the text everything is dropped
  have hdropped : ∀ t : StdString, (t ++ back).rdropWhile isSpace = t.rdropWhile isSpace := by
    intro t
    rw [List.rdropWhile, List.reverse_append, List.dropWhile_append_of_pos (by simpa using hback)]
    rfl
  rw [strip, List.append_assoc, List.dropWhile_append_of_pos hfront]
  cases s with
  | nil =>
    -- the text is empty, and so is what is left of the blanks
    rw [List.nil_append, List.dropWhile_eq_nil_iff.mpr hback]
    rfl
  | cons c s =>
    -- the blanks in front end where the text begins
    rw [List.cons_append, List.dropWhile_cons_of_neg, ← List.cons_append, hdropped, hkept]
    rw [hs c List.mem_cons_self]
    exact Bool.false_ne_true

/-- A printed number has no blanks. -/
theorem not_isSpace_of_mem_decimalInt {n : Int} {c : Char} (h : c ∈ StdString.decimalInt n) :
    isSpace c = false := by
  cases n with
  | ofNat n => exact not_isSpace_of_isDigit (StdString.isDigit_of_mem_decimal h)
  | negSucc n =>
    rcases List.mem_cons.mp h with rfl | h
    · decide
    · exact not_isSpace_of_isDigit (StdString.isDigit_of_mem_decimal h)

/-- `int` reads back a printed number, whatever white space there is around it. -/
theorem int_decimalInt {front back : StdString} (n : Int)
    (hfront : ∀ c ∈ front, isSpace c = true) (hback : ∀ c ∈ back, isSpace c = true) :
    int (front ++ StdString.decimalInt n ++ back) = some n := by
  rw [int, strip_append hfront hback fun c hc => not_isSpace_of_mem_decimalInt hc]
  cases n with
  | ofNat n =>
    -- a number without a sign starts with a digit
    have hsign : ∀ c rest, c.isDigit = false → StdString.decimalInt (.ofNat n) ≠ c :: rest := by
      intro c rest hc heq
      have := StdString.isDigit_of_mem_decimal (n := n) (heq ▸ List.mem_cons_self)
      rw [hc] at this
      exact Bool.false_ne_true this
    split
    · rename_i heq
      exact absurd heq (hsign '-' _ (by decide))
    · rename_i heq
      exact absurd heq (hsign '+' _ (by decide))
    · rw [StdString.decimalInt, digits_decimal]
      rfl
  | negSucc n =>
    -- the sign is read, then the digits
    simp only [StdString.decimalInt, digits_decimal]
    rfl

/-- `int` reads back a printed number, also with the newline behind it. -/
theorem int_decimal (n : Nat) : int (StdString.decimal n ++ ['\n']) = some (n : Int) := by
  have hback : ∀ c ∈ ['\n'], isSpace c = true := List.forall_mem_singleton.mpr (by decide)
  have hfront : ∀ c ∈ ([] : StdString), isSpace c = true := List.forall_mem_nil _
  exact int_decimalInt (.ofNat n) hfront hback

end Python
