import R4.ForStd.CString

/-!
# Event action descriptors

`WTF::EventActionDescriptor` (`EventActionDescriptor.h`, `EventActionDescriptor.cpp`):
the name of an event action, `category-type(params)`, with the parameter patching
that the replay scheduler uses for the ids of parent event actions.

`toString` caches its result in the mutable `m_full_cache`. The structure below keeps
the cache and carries the fact that it is never stale, so `toString_eq` removes it
from every later proof.

Failed `assert`s and the `std::out_of_range` that `substr` throws end the process:
the functions that can run into one return an `Option`.
-/

namespace R4

open StdString

/-- Ids for event actions (`typedef int EventActionId`). -/
abbrev EventActionId := Int

/-- `enum EventActionCategory`. -/
inductive EventActionCategory where
  | other
  | timer
  | userInterface
  | network
  | parsing
deriving DecidableEq, Repr

namespace EventActionCategory

/-- The value of the enumerator, which is what a stream prints. -/
def toNat : EventActionCategory → Nat
  | other => 0
  | timer => 1
  | userInterface => 2
  | network => 3
  | parsing => 4

/-- The cast `(EventActionCategory)n` to an enumerator. The values 5 to 7 have no enumerator but are
    in the range of the enumeration, and the code goes on with them; they are left out here like
    the values that are out of its range. -/
def ofInt? (n : Int) : Option EventActionCategory :=
  if n = 0 then some other
  else if n = 1 then some timer
  else if n = 2 then some userInterface
  else if n = 3 then some network
  else if n = 4 then some parsing
  else none

end EventActionCategory

/-- The text `category-type(params)`. -/
def descriptorText (category : EventActionCategory) (type params : StdString) : StdString :=
  decimal category.toNat ++ '-' :: (type ++ '(' :: (params ++ [')']))

/-- A descriptor. `fullCache` is empty until `toString` has been called. -/
structure EventActionDescriptor where
  category : EventActionCategory
  type : StdString
  params : StdString
  isNull : Bool
  isPatched : Bool
  fullCache : StdString
  unpatchedString : StdString
  cacheFresh : fullCache = [] ∨ fullCache = descriptorText category type params
deriving DecidableEq

namespace EventActionDescriptor

/-- `EventActionDescriptor(category, type, params)`. -/
def make (category : EventActionCategory) (type params : StdString) : EventActionDescriptor where
  category := category
  type := type
  params := params
  isNull := false
  isPatched := false
  fullCache := []
  unpatchedString := []
  cacheFresh := Or.inl rfl

/-- `EventActionDescriptor::null`. The source leaves the category uninitialised. -/
def null : EventActionDescriptor where
  category := .other
  type := []
  params := []
  isNull := true
  isPatched := false
  fullCache := []
  unpatchedString := []
  cacheFresh := Or.inl rfl

/-- `operator==`: neither the null and patched flags nor the caches are compared. -/
def equals (d e : EventActionDescriptor) : Bool :=
  d.category == e.category && d.type == e.type && d.params == e.params

/-- `toString()`: the result. -/
def toString (d : EventActionDescriptor) : StdString :=
  if d.fullCache = [] then descriptorText d.category d.type d.params else d.fullCache

/-- `toString()`: the object after the call. -/
def cacheString (d : EventActionDescriptor) : EventActionDescriptor :=
  { d with
    fullCache := d.toString
    cacheFresh := by
      unfold toString
      split
      · exact Or.inr rfl
      · exact d.cacheFresh }

/-- `toUnpatchedString()`. -/
def toUnpatchedString (d : EventActionDescriptor) : StdString :=
  if d.isPatched then d.unpatchedString else d.toString

/-- `serialize()`. -/
def serialize (d : EventActionDescriptor) : StdString := d.toString

/-- `deserialize(raw)`: the category up to the first `-`, the type up to the first `(`,
    and the rest without its last character. -/
def deserialize (raw : StdString) : Option EventActionDescriptor :=
  match raw.findIdx? (· == '-'), raw.findIdx? (· == '(') with
  | some typeStartPos, some typeEndPos =>
    -- the assertion of the source: the type has a start and an end
    if typeStartPos < typeEndPos then
      (EventActionCategory.ofInt? (atoi (raw.take typeStartPos))).map fun category =>
        make category
          ((raw.drop (typeStartPos + 1)).take (typeEndPos - typeStartPos - 1))
          ((raw.drop (typeEndPos + 1)).take (raw.length - typeEndPos - 2))
    else none
  | _, _ => none

/-- The text of the `number`-th of the comma-separated fields of `s`. -/
def field (s : StdString) : Nat → Option StdString
  | 0 => some (s.takeWhile (· != ','))
  | number + 1 =>
    match s.dropWhile (· != ',') with
    -- fewer fields than asked for
    | [] => none
    | _ :: rest => field rest number

/-- `s` with its `number`-th comma-separated field replaced by `value`. -/
def replaceField (s : StdString) (value : StdString) : Nat → Option StdString
  | 0 => some (value ++ s.dropWhile (· != ','))
  | number + 1 =>
    match s.dropWhile (· != ',') with
    | [] => none
    | comma :: rest =>
      (replaceField rest value number).map fun tail => s.takeWhile (· != ',') ++ comma :: tail

/-- `getParameter(number)`; indexing into a parameter that does not exist asserts. -/
def getParameter (d : EventActionDescriptor) (number : Nat) : Option StdString :=
  field d.params number

/-- `patchParameter(number, value)`. -/
def patchParameter (d : EventActionDescriptor) (number : Nat) (value : StdString) :
    Option EventActionDescriptor :=
  (replaceField d.params value number).map fun params =>
    { d with
      params := params
      isPatched := true
      fullCache := []
      -- the name before the patch is that of the recording
      unpatchedString := d.toString
      cacheFresh := Or.inl rfl }

/-- `escapeParam(param)`. -/
def escapeParam (param : StdString) : StdString :=
  param.map fun c => if c = ',' then '.' else c

/-! ## What the text of a descriptor determines -/

/-- The cache is never stale. -/
theorem toString_eq (d : EventActionDescriptor) :
    d.toString = descriptorText d.category d.type d.params := by
  unfold toString
  split
  · rfl
  · rename_i hne
    exact d.cacheFresh.resolve_left hne

/-- Keeping the text does not change it. -/
@[simp] theorem cacheString_toString (d : EventActionDescriptor) :
    d.cacheString.toString = d.toString := by
  simp only [toString_eq, cacheString]

@[simp] theorem make_toString (category : EventActionCategory) (type params : StdString) :
    (make category type params).toString = descriptorText category type params := rfl

@[simp] theorem make_toUnpatchedString (category : EventActionCategory) (type params : StdString) :
    (make category type params).toUnpatchedString = descriptorText category type params := rfl

/-- Descriptors that `operator==` does not tell apart print alike. -/
theorem toString_eq_of_equals {d e : EventActionDescriptor} (h : d.equals e = true) :
    d.toString = e.toString := by
  simp only [equals, Bool.and_eq_true, beq_iff_eq] at h
  rw [toString_eq, toString_eq, h.1.1, h.1.2, h.2]

/-- A category is one digit. -/
private theorem decimal_category (c : EventActionCategory) :
    decimal c.toNat = [Nat.digitChar c.toNat] := by
  cases c <;> rfl

/-- A type without `(` is determined by the text, and so are the other two parts. -/
theorem descriptorText_injective {c c' : EventActionCategory} {t t' p p' : StdString}
    (ht : '(' ∉ t) (ht' : '(' ∉ t')
    (h : descriptorText c t p = descriptorText c' t' p') : c = c' ∧ t = t' ∧ p = p' := by
  simp only [descriptorText, decimal_category, List.singleton_append, List.cons.injEq,
    true_and] at h
  obtain ⟨hc, hrest⟩ := h
  -- the category is the first digit
  have hcat : c = c' := by
    cases c <;> cases c' <;> first | rfl | exact absurd hc (by decide)
  -- the type ends at the first bracket
  have htake : ∀ (u v : StdString), '(' ∉ u →
      (u ++ '(' :: v).takeWhile (· != '(') = u := by
    intro u v hu
    rw [List.takeWhile_append_of_pos]
    · simp
    · intro x hx
      simp only [bne_iff_ne, ne_eq]
      rintro rfl
      exact hu hx
  have htype : t = t' := by
    rw [← htake t _ ht, hrest, htake t' _ ht']
  subst htype
  -- the rest are the parameters and the last bracket
  have hp := List.append_cancel_left hrest
  simp only [List.cons.injEq, true_and] at hp
  exact ⟨hcat, rfl, List.append_cancel_right hp⟩

/-! ## Patching -/

/-- The unpatched text of a patched descriptor is the text before the patch. -/
theorem patchParameter_toUnpatchedString {d e : EventActionDescriptor} {number : Nat}
    {value : StdString} (h : d.patchParameter number value = some e) :
    e.toUnpatchedString = d.toString := by
  unfold patchParameter at h
  cases hr : replaceField d.params value number with
  | none => simp only [hr, Option.map_none] at h; exact nomatch h
  | some params =>
    simp only [hr, Option.map_some, Option.some.injEq] at h
    subst h
    rfl

/-- A patch keeps the category and the type. -/
theorem patchParameter_frame {d e : EventActionDescriptor} {number : Nat}
    {value : StdString} (h : d.patchParameter number value = some e) :
    e.category = d.category ∧ e.type = d.type ∧ e.isNull = d.isNull ∧ e.isPatched = true := by
  unfold patchParameter at h
  cases hr : replaceField d.params value number with
  | none => simp only [hr, Option.map_none] at h; exact nomatch h
  | some params =>
    simp only [hr, Option.map_some, Option.some.injEq] at h
    subst h
    exact ⟨rfl, rfl, rfl, rfl⟩

/-- A parameter that has been replaced reads back. -/
theorem field_replaceField {s value out : StdString} {number : Nat} (hvalue : ',' ∉ value)
    (h : replaceField s value number = some out) : field out number = some value := by
  induction number generalizing s out with
  | zero =>
    obtain rfl := Option.some.inj h
    have hall : ∀ c ∈ value, (c != ',') = true := by
      intro c hc
      simp only [bne_iff_ne, ne_eq]
      rintro rfl
      exact hvalue hc
    -- what follows the value is empty or starts with a comma
    have hrest : (s.dropWhile (· != ',')).takeWhile (· != ',') = [] := by
      cases hd : s.dropWhile (· != ',') with
      | nil => rfl
      | cons c rest =>
        have hc := List.head?_dropWhile_not (· != ',') s
        rw [hd] at hc
        exact List.takeWhile_cons_of_neg (by simpa using hc)
    simp only [field]
    rw [List.takeWhile_append_of_pos hall, hrest, List.append_nil]
  | succ number ih =>
    unfold replaceField at h
    cases hd : s.dropWhile (· != ',') with
    | nil => simp [hd] at h
    | cons comma rest =>
      simp only [hd] at h
      obtain ⟨tail, htail, rfl⟩ := Option.map_eq_some_iff.mp h
      have hcomma : (comma != ',') = false := by
        have hc := List.head?_dropWhile_not (· != ',') s
        rw [hd] at hc
        simpa using hc
      have hdrop : (s.takeWhile (· != ',') ++ comma :: tail).dropWhile (· != ',') =
          comma :: tail := by
        rw [List.dropWhile_append_of_pos fun c hc => List.mem_takeWhile_imp (p := (· != ',')) hc,
          List.dropWhile_cons_of_neg (by simp [hcomma])]
      simp only [field, hdrop]
      exact ih htail

/-- A parameter that was patched is read back. -/
theorem getParameter_patchParameter {d e : EventActionDescriptor} {number : Nat}
    {value : StdString} (hvalue : ',' ∉ value) (h : d.patchParameter number value = some e) :
    e.getParameter number = some value := by
  obtain ⟨params, hparams, rfl⟩ := Option.map_eq_some_iff.mp h
  exact field_replaceField hvalue hparams

/-! ## Escaping -/

/-- An escaped parameter has no comma. -/
theorem comma_not_mem_escapeParam (param : StdString) : ',' ∉ escapeParam param := by
  simp only [escapeParam, List.mem_map, not_exists, not_and]
  intro c _
  split
  · decide
  · assumption

end EventActionDescriptor

end R4
