import Mathlib.Algebra.Group.Nat.Defs
import Mathlib.Data.Char
import Mathlib.Data.List.Lex
import Mathlib.Data.List.TakeWhile

/-!
# C and C++ strings

`std::string` as a list of characters, with the library calls that text formats
are built from: printing an integer to a stream, `atoi`, `strtoul` and reading a
stream line by line.

## Key results

- `decimal_injective`: two naturals printed alike are equal
- `atoi_decimalInt`: `atoi` reads back what the stream printed
-/

/-- A `std::string`. -/
abbrev StdString := List Char

instance : LawfulBEq StdString := inferInstanceAs (LawfulBEq (List Char))

namespace StdString

/-! ## Printing integers -/

/-- `stream << n` for an unsigned integer. -/
def decimal (n : Nat) : StdString := Nat.toDigits 10 n

/-- `stream << n` for a signed integer. -/
def decimalInt : Int → StdString
  | .ofNat n => decimal n
  | .negSucc n => '-' :: decimal (n + 1)

/-- Numbers are made of digits. -/
theorem isDigit_of_mem_decimal {n : Nat} {c : Char} (h : c ∈ decimal n) : c.isDigit = true :=
  Nat.isDigit_of_mem_toDigits (by decide) (by decide) h

/-- A character that is not a digit does not occur in a printed natural. -/
theorem not_mem_decimal {c : Char} (hc : c.isDigit = false) (n : Nat) : c ∉ decimal n := by
  intro h
  have := isDigit_of_mem_decimal h
  rw [hc] at this
  exact nomatch this

/-- Printed numbers have digits and a sign only. -/
theorem not_mem_decimalInt {c : Char} (hc : c.isDigit = false) (hm : c ≠ '-') (n : Int) :
    c ∉ decimalInt n := by
  cases n with
  | ofNat n => exact not_mem_decimal hc n
  | negSucc n =>
    simp only [decimalInt, List.mem_cons, not_or]
    exact ⟨hm, not_mem_decimal hc _⟩

/-- Printed integers are ASCII. -/
theorem toNat_lt_of_mem_decimalInt {n : Int} {c : Char} (h : c ∈ decimalInt n) :
    c.toNat < 128 := by
  have hdigit : ∀ {n : Nat}, c ∈ decimal n → c.toNat < 128 := by
    intro n h
    have := isDigit_of_mem_decimal h
    rw [Char.isDigit_iff_toNat] at this
    have hnine : '9'.toNat = 57 := rfl
    omega
  cases n with
  | ofNat n => exact hdigit h
  | negSucc n =>
    rcases List.mem_cons.mp h with rfl | h
    · decide
    · exact hdigit h

/-- A number has a digit. -/
theorem decimal_ne_nil (n : Nat) : decimal n ≠ [] := by
  intro h
  have hrt := Nat.ofDigitChars_toDigits (b := 10) (n := n) (by decide) (by decide)
  unfold decimal at h
  rw [Nat.toDigits_eq_if (by decide)] at h
  split at h
  · exact nomatch h
  · simp at h

/-- So has a number with a sign. -/
theorem decimalInt_ne_nil (n : Int) : decimalInt n ≠ [] := by
  cases n with
  | ofNat n => exact decimal_ne_nil n
  | negSucc n => exact List.cons_ne_nil _ _

/-- Printing naturals loses nothing. -/
theorem decimal_injective {m n : Nat} (h : decimal m = decimal n) : m = n := by
  have hm := Nat.ofDigitChars_toDigits (b := 10) (n := m) (by decide) (by decide)
  have hn := Nat.ofDigitChars_toDigits (b := 10) (n := n) (by decide) (by decide)
  unfold decimal at h
  rw [← hm, h, hn]

/-! ## Fields -/

/-- Two texts without the separator, each followed by one. -/
theorem append_cons_inj {c : Char} {a b a' b' : StdString} (ha : c ∉ a) (hb : c ∉ b)
    (h : a ++ c :: a' = b ++ c :: b') : a = b ∧ a' = b' := by
  induction a generalizing b with
  | nil =>
    cases b with
    | nil => exact ⟨rfl, (List.cons.inj h).2⟩
    | cons y ys => exact absurd ((List.cons.inj h).1 ▸ List.mem_cons_self) hb
  | cons x xs ih =>
    cases b with
    | nil => exact absurd ((List.cons.inj h).1 ▸ List.mem_cons_self) ha
    | cons y ys =>
      obtain ⟨hxy, htail⟩ := List.cons.inj h
      obtain ⟨hab, htail⟩ := ih (fun hx => ha (List.mem_cons_of_mem _ hx))
        (fun hx => hb (List.mem_cons_of_mem _ hx)) htail
      exact ⟨by rw [hxy, hab], htail⟩

/-- Two texts without the separator, each behind one. -/
theorem cons_append_inj {c : Char} {a b a' b' : StdString} (ha : c ∉ a') (hb : c ∉ b')
    (h : a ++ c :: a' = b ++ c :: b') : a = b ∧ a' = b' := by
  have hreverse := congrArg List.reverse h
  simp only [List.reverse_append, List.reverse_cons, List.append_assoc, List.singleton_append]
    at hreverse
  obtain ⟨htail, hhead⟩ := append_cons_inj (by simpa using ha) (by simpa using hb) hreverse
  exact ⟨List.reverse_injective hhead, List.reverse_injective htail⟩

/-! ## Reading integers -/

/-- The digits `atoi` reads after the sign. Overflow is undefined in C and not modelled. -/
def atoiDigits (s : StdString) : Nat := Nat.ofDigitChars 10 (s.takeWhile Char.isDigit) 0

/-- `atoi`: white space, an optional sign, digits; 0 when there are none. -/
def atoi (s : StdString) : Int :=
  match s.dropWhile Char.isWhitespace with
  | '-' :: rest => - (atoiDigits rest : Int)
  | '+' :: rest => atoiDigits rest
  | rest => atoiDigits rest

/-- Digits are read back. -/
private theorem atoiDigits_decimal (n : Nat) : atoiDigits (decimal n) = n := by
  have hall : (decimal n).takeWhile Char.isDigit = decimal n :=
    List.takeWhile_eq_self_iff.mpr fun c hc => isDigit_of_mem_decimal hc
  unfold atoiDigits
  rw [hall]
  exact Nat.ofDigitChars_toDigits (by decide) (by decide)

private theorem digit_not_special {c : Char} (h : c.isDigit = true) :
    c.isWhitespace = false ∧ c ≠ '-' ∧ c ≠ '+' := by
  refine ⟨?_, ?_, ?_⟩
  · by_contra hw
    simp only [Bool.not_eq_false, Char.isWhitespace, Bool.or_eq_true, decide_eq_true_eq] at hw
    rcases hw with ((hw | hw) | hw) | hw <;> subst hw <;> exact absurd h (by decide)
  · rintro rfl; exact absurd h (by decide)
  · rintro rfl; exact absurd h (by decide)

/-- `atoi` reads back a printed natural. -/
theorem atoi_decimal (n : Nat) : atoi (decimal n) = n := by
  cases hd : decimal n with
  | nil => exact absurd hd (decimal_ne_nil n)
  | cons c cs =>
    have hc : c ∈ decimal n := by rw [hd]; exact List.mem_cons_self
    have ⟨hw, hm, hp⟩ := digit_not_special (isDigit_of_mem_decimal hc)
    have hdrop : (c :: cs).dropWhile Char.isWhitespace = c :: cs := by
      simp [hw]
    unfold atoi
    rw [hdrop]
    split
    · rename_i heq; exact absurd (List.cons.inj heq).1 hm
    · rename_i heq; exact absurd (List.cons.inj heq).1 hp
    · rw [← hd, atoiDigits_decimal]

/-- `atoi` reads back a printed integer. -/
theorem atoi_decimalInt (n : Int) : atoi (decimalInt n) = n := by
  cases n with
  | ofNat n => exact atoi_decimal n
  | negSucc n =>
    have hdrop : ('-' :: decimal (n + 1)).dropWhile Char.isWhitespace = '-' :: decimal (n + 1) := by
      simp
    simp only [decimalInt, atoi, hdrop, atoiDigits_decimal]
    omega

/-- Printing integers loses nothing. -/
theorem decimalInt_injective {m n : Int} (h : decimalInt m = decimalInt n) : m = n := by
  rw [← atoi_decimalInt m, h, atoi_decimalInt]

/-- The value of one digit in base 16, the largest base `strtoul` is called with here. -/
def digitValue (c : Char) : Option Nat :=
  if c.isDigit then some (c.toNat - '0'.toNat)
  else if 'a' ≤ c ∧ c ≤ 'f' then some (c.toNat - 'a'.toNat + 10)
  else if 'A' ≤ c ∧ c ≤ 'F' then some (c.toNat - 'A'.toNat + 10)
  else none

/-- The longest run of digits of `base`, accumulated onto `acc`. -/
def strtoulDigits (base : Nat) : StdString → Nat → Nat
  | [], acc => acc
  | c :: cs, acc =>
    match digitValue c with
    | some v => if v < base then strtoulDigits base cs (acc * base + v) else acc
    | none => acc

/-- `ULONG_MAX` on a 64-bit target. -/
def ulongMax : Nat := 2 ^ 64 - 1

/-- `strtoul(s, NULL, 0)`: the base is taken from the text, a value past `ULONG_MAX`
    is `ULONG_MAX`, and a minus sign negates modulo `2 ^ 64`. -/
def strtoul (s : StdString) : Nat :=
  let value (t : StdString) : Nat :=
    match t with
    | '0' :: 'x' :: rest => strtoulDigits 16 rest 0
    | '0' :: 'X' :: rest => strtoulDigits 16 rest 0
    | '0' :: rest => strtoulDigits 8 rest 0
    | rest => strtoulDigits 10 rest 0
  match s.dropWhile Char.isWhitespace with
  | '-' :: rest => if value rest > ulongMax then ulongMax else (2 ^ 64 - value rest) % 2 ^ 64
  | '+' :: rest => min (value rest) ulongMax
  | rest => min (value rest) ulongMax

example : strtoul (decimal ulongMax) = ulongMax := by decide
example : strtoul "17".toList = 17 := by decide

/-! ## Streams of lines -/

/-- The strings that `while (stream.good()) std::getline(stream, line)` reads. -/
def lines (text : StdString) : List StdString := text.splitOn '\n'

/-- `getline(stream, line, delim)`: the line, and what is left behind the delimiter. Nothing is
    read from a stream that has ended. -/
def getline (delim : Char) (s : StdString) : StdString × StdString :=
  (s.takeWhile fun c => c ≠ delim, (s.dropWhile fun c => c ≠ delim).tail)

/-- A line is read up to its delimiter. -/
theorem getline_append {delim : Char} {line : StdString} (h : delim ∉ line) (rest : StdString) :
    getline delim (line ++ delim :: rest) = (line, rest) := by
  have hline : ∀ c ∈ line, decide (c ≠ delim) = true := by
    intro c hc
    rw [decide_eq_true_eq]
    rintro rfl
    exact h hc
  unfold getline
  rw [List.takeWhile_append_of_pos hline, List.dropWhile_append_of_pos hline]
  simp

/-- The last line has no delimiter behind it. -/
theorem getline_eq_self {delim : Char} {line : StdString} (h : delim ∉ line) :
    getline delim line = (line, []) := by
  have hline : ∀ c ∈ line, decide (c ≠ delim) = true := by
    intro c hc
    rw [decide_eq_true_eq]
    rintro rfl
    exact h hc
  unfold getline
  rw [List.takeWhile_eq_self_iff.mpr hline, List.dropWhile_eq_nil_iff.mpr hline, List.tail_nil]

/-- What is read has no delimiter. -/
theorem not_mem_getline (delim : Char) (s : StdString) : delim ∉ (getline delim s).1 := by
  intro h
  have := List.mem_takeWhile_imp h
  simp at this

end StdString
