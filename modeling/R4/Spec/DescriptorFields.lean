import R4.ForStd.Lts
import R4.Native.DescriptorParams

/-!
# The fields of a descriptor

The parameters of a descriptor are the fields between the commas of its text. A descriptor keeps
a cache of its string, and its string from before a patch, and copies keep both. Here any number
of copies of a descriptor is used in any order, and every one of them answers as its fields do.

## Key results

- `field_eq_getElem`, `replaceField_eq`: the fields are those between the commas
- `describes_exec`: what one call keeps
- `descriptor_parameter_algebra`: what holds of every copy, whatever has been called
-/

namespace R4

namespace EventActionDescriptor

/-! ## Fields -/

/-- A field is the part of the text between two commas. -/
theorem field_eq_getElem (s : StdString) (number : Nat) :
    field s number = (s.splitOn ',')[number]? := by
  induction number generalizing s with
  | zero =>
    -- the first field
    rw [field]
    -- it ends at the first comma, if there is one
    cases hd : s.dropWhile (· != ',') with
    | nil => rw [List.splitOn_of_dropWhile_nil hd, List.getElem?_cons_zero]
    | cons comma rest =>
      rw [(List.splitOn_of_dropWhile_cons hd).2.2, List.getElem?_cons_zero]
  | succ number ih =>
    -- a later field is looked for behind the first comma
    rw [field]
    cases hd : s.dropWhile (· != ',') with
    | nil =>
      -- without a comma there is no other field
      rw [List.splitOn_of_dropWhile_nil hd, List.getElem?_cons_succ]
      rfl
    | cons comma rest =>
      dsimp only
      rw [(List.splitOn_of_dropWhile_cons hd).2.2, List.getElem?_cons_succ, ih]

/-- The text whose fields are those of `s` but for one. -/
theorem replaceField_eq {s : StdString} (value : StdString) {number : Nat}
    (h : number < (s.splitOn ',').length) :
    replaceField s value number = some ([','].intercalate ((s.splitOn ',').set number value)) := by
  induction number generalizing s with
  | zero =>
    -- the first field is replaced, and everything behind its comma stays
    rw [replaceField]
    cases hd : s.dropWhile (· != ',') with
    | nil =>
      rw [List.splitOn_of_dropWhile_nil hd, List.set_cons_zero, List.intercalate_singleton,
        List.append_nil]
    | cons comma rest =>
      obtain ⟨rfl, -, hsplit⟩ := List.splitOn_of_dropWhile_cons hd
      rw [hsplit, List.set_cons_zero, List.intercalate_cons_of_ne_nil (List.splitOn_ne_nil _ _),
        List.intercalate_splitOn]
      simp
  | succ number ih =>
    rw [replaceField]
    cases hd : s.dropWhile (· != ',') with
    | nil =>
      -- without a comma there is only one field
      rw [List.splitOn_of_dropWhile_nil hd, List.length_singleton] at h
      exact absurd h (Nat.not_lt.mpr (Nat.succ_le_succ (Nat.zero_le _)))
    | cons comma rest =>
      obtain ⟨rfl, -, hsplit⟩ := List.splitOn_of_dropWhile_cons hd
      rw [hsplit, List.length_cons] at h
      have hlt := Nat.lt_of_succ_lt_succ h
      -- there are fields behind the comma
      have hne : (rest.splitOn ',').set number value ≠ [] := by
        rw [ne_eq, List.set_eq_nil_iff]
        exact List.splitOn_ne_nil _ _
      rw [hsplit, List.set_cons_succ, List.intercalate_cons_of_ne_nil hne]
      dsimp only
      rw [ih hlt]
      simp

end EventActionDescriptor

/-! ## Copies -/

/-- A descriptor, with the patch of it or of the one that it is a copy of. -/
structure DescriptorCopy where
  descriptor : EventActionDescriptor
  patch : Option (Nat × StdString)

namespace DescriptorCopy

open EventActionDescriptor

/-- The calls, on the copy with a number. -/
inductive Call where
  | toString (k : Nat)
  | toUnpatchedString (k : Nat)
  | getParameter (k number : Nat)
  | copy (k : Nat)
  | patchParameter (k number : Nat) (value : StdString)

/-- The fields of a copy. -/
def fields (original : EventActionDescriptor) (patch : Option (Nat × StdString)) :
    List StdString :=
  match patch with
  | none => original.params.splitOn ','
  | some (number, value) => (original.params.splitOn ',').set number value

/-- The copies after a call, and its result. -/
def exec (copies : List DescriptorCopy) : Call → Option (StdString × List DescriptorCopy)
  | .toString k =>
    copies[k]?.map fun c =>
      (c.descriptor.toString, copies.set k { c with descriptor := c.descriptor.cacheString })
  | .toUnpatchedString k =>
    copies[k]?.map fun c =>
      (c.descriptor.toUnpatchedString,
        if c.descriptor.isPatched then copies
        else copies.set k { c with descriptor := c.descriptor.cacheString })
  | .getParameter k number =>
    copies[k]?.bind fun c =>
      (c.descriptor.getParameterAt number).map fun value => (value, copies)
  | .copy k => copies[k]?.map fun c => ([], copies ++ [c])
  | .patchParameter k number value =>
    copies[k]?.bind fun c =>
      (c.descriptor.patchParameterAt number value).map fun descriptor =>
        ([], copies.set k ⟨descriptor, some (number, value)⟩)

/-- The parameter exists, and a descriptor is patched once, with a value without a comma. -/
def Enabled (original : EventActionDescriptor) (copies : List DescriptorCopy) : Call → Prop
  | .toString k => k < copies.length
  | .toUnpatchedString k => k < copies.length
  | .getParameter k number => ∃ c, copies[k]? = some c ∧ number < (fields original c.patch).length
  | .copy k => k < copies.length
  | .patchParameter k number value =>
    ∃ c, copies[k]? = some c ∧ c.patch = none ∧ number < (fields original c.patch).length ∧
      ',' ∉ value

/-- The runs that begin with one descriptor. -/
def runs (original : EventActionDescriptor) : Lts (List DescriptorCopy) Call where
  init copies := copies = [⟨original, none⟩]
  step copies call copies' :=
    Enabled original copies call ∧ ∃ result, exec copies call = some (result, copies')

/-- A copy is the original but for its fields. -/
structure Describes (original : EventActionDescriptor) (c : DescriptorCopy) : Prop where
  category : c.descriptor.category = original.category
  type : c.descriptor.type = original.type
  params : c.descriptor.params.splitOn ',' = fields original c.patch
  length : (fields original c.patch).length = (original.params.splitOn ',').length
  getParameter : ∀ i, c.descriptor.getParameterAt i = (fields original c.patch)[i]?
  toString : c.descriptor.toString =
    descriptorText original.category original.type c.descriptor.params
  toUnpatchedString : c.descriptor.toUnpatchedString = original.toString
  isPatched : c.descriptor.isPatched = c.patch.isSome

/-- The result that a call should have. -/
def Answers (original : EventActionDescriptor) (copies : List DescriptorCopy) (result : StdString) :
    Call → Prop
  | .toString k => ∃ c, copies[k]? = some c ∧
    result = descriptorText original.category original.type
      ([','].intercalate (fields original c.patch))
  | .toUnpatchedString _ => result = original.toString
  | .getParameter k number => ∃ c, copies[k]? = some c ∧
    (fields original c.patch)[number]? = some result
  | .copy _ => True
  | .patchParameter _ _ _ => True

variable {original : EventActionDescriptor}

/-- What is known of a copy from its fields and its string before the patch. -/
theorem describes_of_params {c : DescriptorCopy}
    (hcategory : c.descriptor.category = original.category)
    (htype : c.descriptor.type = original.type)
    (hparams : c.descriptor.params.splitOn ',' = fields original c.patch)
    (hunpatched : c.descriptor.toUnpatchedString = original.toString)
    (hpatched : c.descriptor.isPatched = c.patch.isSome) : Describes original c where
  category := hcategory
  type := htype
  params := hparams
  length := by
    unfold fields
    split
    · rfl
    · rw [List.length_set]
  getParameter i := by
    rw [getParameterAt_eq, EventActionDescriptor.getParameter, field_eq_getElem, hparams]
  toString := by rw [toString_eq, hcategory, htype]
  toUnpatchedString := hunpatched
  isPatched := hpatched

/-- A descriptor describes itself as long as it is not patched. -/
theorem describes_original (h : original.isPatched = false) : Describes original ⟨original, none⟩ :=
  describes_of_params rfl rfl rfl (by simp [EventActionDescriptor.toUnpatchedString, h]) h

namespace Describes

variable {c : DescriptorCopy}

/-- The string of a copy is made of its fields. -/
theorem toString_eq_fields (h : Describes original c) : c.descriptor.toString =
    descriptorText original.category original.type
      ([','].intercalate (fields original c.patch)) := by
  rw [h.toString, ← h.params, List.intercalate_splitOn]

/-- The cache of a copy changes nothing. -/
theorem cacheString (h : Describes original c) :
    Describes original { c with descriptor := c.descriptor.cacheString } := by
  refine describes_of_params h.category h.type h.params ?_ h.isPatched
  rw [← h.toUnpatchedString]
  show (if c.descriptor.isPatched then c.descriptor.unpatchedString
    else c.descriptor.cacheString.toString) = _
  rw [cacheString_toString]
  rfl

/-- A copy without a patch has the string of the original. -/
theorem toString_of_unpatched (h : Describes original c) (hpatch : c.patch = none) :
    c.descriptor.toString = original.toString := by
  rw [← h.toUnpatchedString, EventActionDescriptor.toUnpatchedString, h.isPatched, hpatch]
  rfl

/-- The first patch of a copy replaces one field. -/
theorem patchParameter (h : Describes original c) (hpatch : c.patch = none) {number : Nat}
    (hnumber : number < (fields original c.patch).length) {value : StdString}
    (hvalue : ',' ∉ value) :
    ∃ d, c.descriptor.patchParameterAt number value = some d ∧
      Describes original ⟨d, some (number, value)⟩ := by
  have hparams := h.params
  rw [hpatch] at hparams hnumber
  have hreplace := replaceField_eq (s := c.descriptor.params) value (hparams ▸ hnumber)
  rw [patchParameterAt_eq]
  -- the fields of the patched descriptor are those of the original, with one of them replaced
  obtain ⟨d, hd, hdparams⟩ : ∃ d, c.descriptor.patchParameter number value = some d ∧
      d.params = [','].intercalate ((c.descriptor.params.splitOn ',').set number value) := by
    rw [EventActionDescriptor.patchParameter, hreplace]
    exact ⟨_, rfl, rfl⟩
  obtain ⟨hcategory, htype, -, hflag⟩ := patchParameter_frame hd
  refine ⟨d, hd, describes_of_params (hcategory.trans h.category) (htype.trans h.type) ?_ ?_
    hflag⟩
  · -- a value without commas is one field
    dsimp only
    rw [hdparams, List.splitOn_join_set hvalue, hparams]
    rfl
  · -- the unpatched text is that of the original
    rw [patchParameter_toUnpatchedString hd, h.toString_of_unpatched hpatch]

end Describes

/-! ## The calls -/

/-- A copy that is replaced by one of the same descriptor. -/
theorem describes_set {copies : List DescriptorCopy} (h : ∀ c ∈ copies, Describes original c)
    {k : Nat} {c : DescriptorCopy} (hc : Describes original c) :
    ∀ c' ∈ copies.set k c, Describes original c' := by
  intro c' hc'
  rcases List.mem_or_eq_of_mem_set hc' with hc' | rfl
  · exact h c' hc'
  · exact hc

/-- An enabled call returns what it should, and the copies are as they should be after it. -/
theorem describes_exec {copies : List DescriptorCopy} (h : ∀ c ∈ copies, Describes original c)
    {call : Call} (henabled : Enabled original copies call) :
    ∃ result copies', exec copies call = some (result, copies') ∧
      Answers original copies result call ∧ ∀ c ∈ copies', Describes original c := by
  -- whatever is copied describes the original
  have hcopy : ∀ {k c}, copies[k]? = some c → Describes original c := fun hc =>
    h _ (List.mem_of_getElem? hc)
  cases call with
  | toString k =>
    have hk := List.getElem?_eq_getElem (show k < copies.length from henabled)
    have hc := hcopy hk
    refine ⟨_, _, by rw [exec, hk]; rfl, ⟨_, hk, hc.toString_eq_fields⟩, ?_⟩
    exact describes_set h hc.cacheString
  | toUnpatchedString k =>
    have hk := List.getElem?_eq_getElem (show k < copies.length from henabled)
    have hc := hcopy hk
    refine ⟨_, _, by rw [exec, hk]; rfl, hc.toUnpatchedString, ?_⟩
    -- the text is kept if it was not
    split
    · exact h
    · exact describes_set h hc.cacheString
  | getParameter k number =>
    obtain ⟨c, hk, hnumber⟩ := henabled
    have hvalue := (hcopy hk).getParameter number
    -- the parameter is one of the fields
    rw [List.getElem?_eq_getElem hnumber] at hvalue
    refine ⟨_, copies, ?_, ⟨c, hk, List.getElem?_eq_getElem hnumber⟩, h⟩
    rw [exec, hk, Option.bind_some, hvalue]
    rfl
  | copy k =>
    -- the new copy is as good as the one it was made of
    have hk := List.getElem?_eq_getElem (show k < copies.length from henabled)
    refine ⟨_, _, by rw [exec, hk]; rfl, trivial, fun c hc => ?_⟩
    rcases List.mem_append.mp hc with hc | hc
    · exact h c hc
    · rw [List.mem_singleton.mp hc]
      exact hcopy hk
  | patchParameter k number value =>
    -- a copy is patched once, with a value without commas
    obtain ⟨c, hk, hpatch, hnumber, hvalue⟩ := henabled
    obtain ⟨d, hd, hdescribes⟩ := (hcopy hk).patchParameter hpatch hnumber hvalue
    refine ⟨[], copies.set k ⟨d, some (number, value)⟩, ?_, trivial, describes_set h hdescribes⟩
    rw [exec, hk, Option.bind_some, hd]
    rfl

/-- The algebra of the parameters. Whatever is called on a descriptor and its copies: the
    parameters are the fields of the text, of which a patch changes one; the string is made of the
    fields as they are; and the string from before the patch is that of the original. Every call
    returns, and returns that. -/
theorem descriptor_parameter_algebra (hpatched : original.isPatched = false)
    {copies : List DescriptorCopy} (r : (runs original).Reachable copies) :
    (∀ c ∈ copies, Describes original c) ∧
      ∀ call, Enabled original copies call → ∃ result copies',
        exec copies call = some (result, copies') ∧ Answers original copies result call := by
  have hdescribes : ∀ c ∈ copies, Describes original c := by
    refine r.invariant (P := fun copies => ∀ c ∈ copies, Describes original c) ?_ ?_
    · rintro _ rfl c hc
      rw [List.mem_singleton.mp hc]
      exact describes_original hpatched
    · rintro copies call copies' - h ⟨henabled, result, hexec⟩
      obtain ⟨_, _, hexec', -, h'⟩ := describes_exec h henabled
      obtain ⟨-, rfl⟩ := Prod.mk.inj (Option.some.inj (hexec.symm.trans hexec'))
      exact h'
  refine ⟨hdescribes, fun call henabled => ?_⟩
  obtain ⟨result, copies', hexec, hanswers, -⟩ := describes_exec hdescribes henabled
  exact ⟨result, copies', hexec, hanswers⟩

/-- A descriptor with an empty field. -/
def emptyField : EventActionDescriptor := .make .network "N".toList "x,,y".toList

/-- It is copied, and then patched in the empty field. -/
theorem descriptor_parameter_algebra_of_copied :
    ∃ patched copied, (runs emptyField).Reachable [patched, copied] ∧
      patched.descriptor.toString = "3-N(x,v,y)".toList ∧
      copied.descriptor.toString = "3-N(x,,y)".toList ∧
      patched.descriptor.toUnpatchedString = emptyField.toString := by
  -- the empty field is patched
  obtain ⟨d, hd⟩ : ∃ d, emptyField.patchParameterAt 1 "v".toList = some d := ⟨_, rfl⟩
  -- the descriptor is copied before
  have hcopied : (runs emptyField).Reachable [⟨emptyField, none⟩, ⟨emptyField, none⟩] :=
    .step (.init rfl) (l := .copy 0) ⟨Nat.zero_lt_one, [], rfl⟩
  have hpatched : (runs emptyField).Reachable
      [⟨d, some (1, "v".toList)⟩, ⟨emptyField, none⟩] := by
    refine hcopied.step (l := .patchParameter 0 1 "v".toList)
      ⟨⟨_, rfl, rfl, by decide, by decide⟩, [], ?_⟩
    rw [exec, List.getElem?_cons_zero, Option.bind_some, hd]
    rfl
  obtain ⟨hdescribes, -⟩ := descriptor_parameter_algebra rfl hpatched
  have hd := hdescribes _ List.mem_cons_self
  have hcopy := hdescribes _ (List.mem_cons_of_mem _ List.mem_cons_self)
  refine ⟨_, _, hpatched, ?_, ?_, hd.toUnpatchedString⟩
  · -- the patched copy has the new value
    rw [hd.toString_eq_fields]
    show descriptorText emptyField.category emptyField.type
      ([','].intercalate (fields emptyField (some (1, "v".toList)))) = _
    decide +kernel
  · -- the other copy has the empty field
    rw [hcopy.toString_eq_fields]
    decide +kernel

end DescriptorCopy

end R4
