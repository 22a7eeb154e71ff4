import R4.Native.DeferredQEvent

/-!
# Which user events are read back

Every field of an event is printed without a comma, apart from the text of a key event, and
printed integers are read back. What is printed of the modifiers of a key event is what
`modifiers()` returns, and what is read is what the event is made with. So a key event is read back
from its serialization if its text has no comma and these modifiers are the same.

## Key results

- `deserialize_serialize`: a copy of the event is read back unless its text has a comma
- `comma_not_mem_text`: no text that was read has a comma
- `deserialize_serialize_iff`: which events are read back
- `commaFree_decides_iff`: for which of them this depends on the text alone
-/

namespace R4

open StdString

namespace DeferredQEvent

/-- The event is not a key event, or its text has no comma. -/
def CommaFree : DeferredQEvent → Prop
  | key _ _ _ text _ _ => ',' ∉ text
  | _ => True

/-- The event is not a key event, or `modifiers()` returns what it was made with. -/
def KeepsModifiers (keyModifiers : Int32 → Int32 → Int32) : DeferredQEvent → Prop
  | key _ code modifiers _ _ _ => keyModifiers code modifiers = modifiers
  | _ => True

/-! ## Fields -/

/-- A number is read back. -/
@[simp] theorem parse_print (n : Int32) : parse (print n) = n := by
  rw [parse, print, atoi_decimalInt, Int32.ofInt_toInt]

/-- A number is read up to the comma behind it. -/
@[simp] theorem getline_print (n : Int32) (rest : StdString) :
    getline ',' (print n ++ ',' :: rest) = (print n, rest) :=
  getline_append (not_mem_decimalInt (by decide) (by decide) _) rest

/-- The last field of an event is what is left of the line. -/
@[simp] theorem getline_print_self (n : Int32) : getline '\n' (print n) = (print n, []) :=
  getline_eq_self (not_mem_decimalInt (by decide) (by decide) _)

/-- A type is read up to the comma behind it. -/
@[simp] theorem getline_type (t : QEventType) (rest : StdString) :
    getline ',' (decimalInt t.toInt ++ ',' :: rest) = (decimalInt t.toInt, rest) :=
  getline_append (not_mem_decimalInt (by decide) (by decide) _) rest

/-- A natural number is read up to the comma behind it. -/
@[simp] theorem getline_decimal (n : Nat) (rest : StdString) :
    getline ',' (decimal n ++ ',' :: rest) = (decimal n, rest) :=
  getline_append (not_mem_decimal (by decide) _) rest

/-- The last number is read up to the end. -/
@[simp] theorem getline_decimal_self (n : Nat) : getline '\n' (decimal n) = (decimal n, []) :=
  getline_eq_self (not_mem_decimal (by decide) _)

/-- A flag is read back from its number. -/
theorem toNat_ne_zero (b : Bool) : decide ((b.toNat : Int) ≠ 0) = b := by
  cases b <;> rfl

/-- A count is read back from its number. -/
theorem ofNat_count (count : UInt16) :
    UInt16.ofNat ((count.toNat : Int) % 2 ^ 16).toNat = count := by
  have hlt := count.toNat_lt
  have hmod : ((count.toNat : Int) % 2 ^ 16).toNat = count.toNat := by omega
  rw [hmod, UInt16.ofNat_toNat]

/-! ## The event -/

variable (keyModifiers : Int32 → Int32 → Int32)

/-- A copy of the event is read back unless its text has a comma. -/
theorem deserialize_serialize {e : DeferredQEvent} (h : e.CommaFree) :
    deserialize (e.serialize keyModifiers) = some (e.copy keyModifiers) := by
  cases e with
  | key type code modifiers text isAutoRepeat count =>
    have hcomma : ',' ∉ text := h
    have htext := getline_append hcomma
    simp only [serialize, serializeFields, DeferredQEvent.type, deserialize, getline_type,
      atoi_decimalInt, QEventType.ofInt?_toInt, getline_print, htext, getline_decimal,
      getline_decimal_self, parse_print, atoi_decimal, toNat_ne_zero, ofNat_count, copy]
  | _ =>
    simp only [serialize, serializeFields, DeferredQEvent.type, deserialize, getline_type,
      atoi_decimalInt, QEventType.ofInt?_toInt, getline_print, getline_print_self, parse_print,
      copy]

/-- The copy is the same event if `modifiers()` returns what the event was made with. -/
theorem copy_eq_self_iff (e : DeferredQEvent) :
    e.copy keyModifiers = e ↔ e.KeepsModifiers keyModifiers := by
  cases e with
  | key type code modifiers text isAutoRepeat count =>
    constructor
    · intro h
      injection h
    · intro h
      have hmodifiers : keyModifiers code modifiers = modifiers := h
      rw [copy, hmodifiers]
  | _ => exact ⟨fun _ => trivial, fun _ => rfl⟩

/-- The text of a key event ends at the first comma. -/
theorem comma_not_mem_text {raw : StdString} {e : DeferredQEvent}
    (h : deserialize raw = some e) : e.CommaFree := by
  cases e with
  | key type code modifiers text isAutoRepeat count =>
    unfold deserialize at h
    dsimp only at h
    split at h
    all_goals try cases h
    exact not_mem_getline ',' _
  | _ => trivial

/-- An event is read back from its serialization iff it is not a key event, or its text has no
    comma and `modifiers()` returns what the event was made with. -/
theorem deserialize_serialize_iff (e : DeferredQEvent) :
    deserialize (e.serialize keyModifiers) = some e ↔
      e.CommaFree ∧ e.KeepsModifiers keyModifiers := by
  constructor
  · intro h
    have hcomma := comma_not_mem_text h
    -- what is read is the copy, so the copy is the event
    have hcopy := (deserialize_serialize keyModifiers hcomma).symm.trans h
    exact ⟨hcomma, (copy_eq_self_iff keyModifiers e).mp (Option.some.inj hcopy)⟩
  · rintro ⟨hcomma, hkeeps⟩
    rw [deserialize_serialize keyModifiers hcomma, (copy_eq_self_iff keyModifiers e).mpr hkeeps]

/-- It depends on the text alone whether an event is read back, exactly if its text has a comma or
    `modifiers()` returns what the event was made with. -/
theorem commaFree_decides_iff (e : DeferredQEvent) :
    (deserialize (e.serialize keyModifiers) = some e ↔ e.CommaFree) ↔
      (e.CommaFree → e.KeepsModifiers keyModifiers) := by
  rw [deserialize_serialize_iff]
  constructor
  · intro h hcomma
    exact (h.mpr hcomma).2
  · intro hkeeps
    exact ⟨fun h => h.1, fun hcomma => ⟨hcomma, hkeeps hcomma⟩⟩

/-- The shift key is pressed. It has no text, and its event is not read back. -/
theorem shift_press_not_read_back :
    let press : DeferredQEvent := .key .keyPress 0x01000020 0 [] false 1
    press.CommaFree ∧ deserialize (press.serialize toggleOwnModifier) =
      some (.key .keyPress 0x01000020 0x02000000 [] false 1) ∧
    ¬(deserialize (press.serialize toggleOwnModifier) = some press ↔ press.CommaFree) := by
  intro press
  have hcomma : press.CommaFree := List.not_mem_nil
  have hread : deserialize (press.serialize toggleOwnModifier) =
      some (.key .keyPress 0x01000020 0x02000000 [] false 1) :=
    deserialize_serialize toggleOwnModifier hcomma
  refine ⟨hcomma, hread, fun h => ?_⟩
  rw [hread] at h
  exact absurd (h.mpr hcomma) (by decide)

example : deserialize "5,1,-2,3,4,0,1,0".toList =
    some (.mouse .mouseMove ⟨1, -2⟩ ⟨3, 4⟩ 0 1 0) := by decide

end DeferredQEvent

end R4
