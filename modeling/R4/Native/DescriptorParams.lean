import R4.ForStd.Fields
import R4.Native.Descriptor

/-!
# The parameters of a descriptor by position

The loops over positions with which `EventActionDescriptor::getParameter` and `patchParameter`
find a parameter in `m_params` (`EventActionDescriptor.cpp`), and that they find the same field as
`getParameter` and `patchParameter` of the model, which go through the text.
-/

namespace R4.EventActionDescriptor

/-- `m_params.find(',', start)`, or the size of the text if there is no comma. -/
def paramEnd (params : StdString) (start : Nat) : Nat :=
  match (params.drop start).findIdx? (· == ',') with
  | some k => start + k
  | none => params.length

/-- The loop: `number` steps from one parameter to the next. -/
def nextParams (params : StdString) : Nat → Nat × Nat → Option (Nat × Nat)
  | 0, range => some range
  | number + 1, (_, fin) =>
    -- indexing into a parameter that does not exist
    if fin = params.length then none
    else nextParams params number (fin + 1, paramEnd params (fin + 1))

/-- The start of a parameter, and the index just after it. -/
def paramRange (params : StdString) (number : Nat) : Option (Nat × Nat) :=
  nextParams params number (0, paramEnd params 0)

/-- `getParameter(number)` by position. -/
def getParameterAt (d : EventActionDescriptor) (number : Nat) : Option StdString :=
  (paramRange d.params number).map fun (start, fin) => (d.params.drop start).take (fin - start)

/-- `patchParameter(number, value)` by position. -/
def patchParameterAt (d : EventActionDescriptor) (number : Nat) (value : StdString) :
    Option EventActionDescriptor :=
  (paramRange d.params number).map fun (start, fin) =>
    { d with
      params := d.params.take start ++ value ++ d.params.drop fin
      isPatched := true
      fullCache := []
      unpatchedString := d.toString
      cacheFresh := Or.inl rfl }

/-! ## The positions -/

/-- A parameter ends at the next comma, or with the text. -/
theorem paramEnd_append (before s : StdString) :
    paramEnd (before ++ s) before.length = before.length + (s.takeWhile (· != ',')).length := by
  have hlength : (s.takeWhile (· != ',')).length = s.findIdx (· == ',') := by
    have hnot : (fun c : Char => !(c != ',')) = (· == ',') := by
      funext c
      rw [bne, Bool.not_not]
    rw [List.takeWhile_eq_take_findIdx_not, hnot, List.length_take,
      Nat.min_eq_left List.findIdx_le_length]
  unfold paramEnd
  rw [List.drop_left, hlength]
  split
  · rename_i k hk
    rw [(List.findIdx?_eq_some_iff_findIdx_eq.mp hk).2]
  · rename_i hnone
    rw [List.findIdx?_eq_none_iff_findIdx_eq.mp hnone, List.length_append]

/-- The loop from the parameters that are left: where the parameter is, or that there is none. -/
theorem nextParams_append (before s : StdString) (number : Nat) :
    nextParams (before ++ s) number (before.length, paramEnd (before ++ s) before.length) = none ∧
        field s number = none ∧ (∀ value, replaceField s value number = none) ∨
      ∃ front param rest, s = front ++ param ++ rest ∧
        nextParams (before ++ s) number (before.length, paramEnd (before ++ s) before.length) =
          some ((before ++ front).length, (before ++ front ++ param).length) ∧
        field s number = some param ∧
        ∀ value, replaceField s value number = some (front ++ value ++ rest) := by
  induction number generalizing before s with
  | zero =>
    right
    refine ⟨[], s.takeWhile (· != ','), s.dropWhile (· != ','), ?_, ?_, rfl, fun value => rfl⟩
    · rw [List.nil_append, List.takeWhile_append_dropWhile]
    · rw [nextParams, paramEnd_append, List.append_nil, List.length_append]
  | succ number ih =>
    rw [nextParams, paramEnd_append]
    cases hd : s.dropWhile (· != ',') with
    | nil =>
      -- the text ends with this parameter
      have hs : s.takeWhile (· != ',') = s := by
        have happend := List.takeWhile_append_dropWhile (p := (· != ',')) (l := s)
        rwa [hd, List.append_nil] at happend
      left
      refine ⟨if_pos (by rw [hs, List.length_append]), ?_, fun value => ?_⟩
      · rw [field, hd]
      · rw [replaceField, hd]
    | cons comma rest =>
      obtain ⟨rfl, hs, -⟩ := List.splitOn_of_dropWhile_cons hd
      have hnext : before ++ s = (before ++ s.takeWhile (· != ',') ++ [',']) ++ rest := by
        conv_lhs => rw [hs]
        simp
      have hlength : (before ++ s.takeWhile (· != ',') ++ [',']).length =
          before.length + (s.takeWhile (· != ',')).length + 1 := by
        rw [List.length_append, List.length_append, List.length_singleton]
      have hne : before.length + (s.takeWhile (· != ',')).length ≠ (before ++ s).length := by
        rw [hnext, List.length_append, hlength]
        omega
      have hrest := ih (before ++ s.takeWhile (· != ',') ++ [',']) rest
      rw [← hnext, hlength] at hrest
      rw [if_neg hne]
      rcases hrest with ⟨hnext, hfield, hreplace⟩ | ⟨front, param, after, hsplit, hnext, hfield,
        hreplace⟩
      · left
        refine ⟨hnext, ?_, fun value => ?_⟩
        · rw [field, hd]
          exact hfield
        · rw [replaceField, hd]
          dsimp only
          rw [hreplace value, Option.map_none]
      · right
        refine ⟨s.takeWhile (· != ',') ++ [','] ++ front, param, after, ?_, ?_, ?_, fun value => ?_⟩
        · conv_lhs => rw [hs, hsplit]
          simp
        · rw [hnext]
          simp
        · rw [field, hd]
          exact hfield
        · rw [replaceField, hd]
          dsimp only
          rw [hreplace value, Option.map_some]
          simp

/-- `getParameter` finds the field. -/
theorem getParameterAt_eq (d : EventActionDescriptor) (number : Nat) :
    d.getParameterAt number = d.getParameter number := by
  unfold getParameterAt getParameter paramRange
  have hrange := nextParams_append [] d.params number
  rw [List.nil_append, List.length_nil] at hrange
  rcases hrange with ⟨hnext, hfield, -⟩ | ⟨front, param, rest, hsplit, hnext, hfield, -⟩
  · rw [hnext, hfield, Option.map_none]
  · rw [hnext, hfield, Option.map_some]
    dsimp only
    rw [hsplit, List.nil_append, List.append_assoc, List.drop_left, List.length_append,
      Nat.add_sub_cancel_left, List.take_left]

/-- `patchParameter` replaces the field. -/
theorem patchParameterAt_eq (d : EventActionDescriptor) (number : Nat) (value : StdString) :
    d.patchParameterAt number value = d.patchParameter number value := by
  unfold patchParameterAt patchParameter paramRange
  have hrange := nextParams_append [] d.params number
  rw [List.nil_append, List.length_nil] at hrange
  rcases hrange with ⟨hnext, -, hreplace⟩ | ⟨front, param, rest, hsplit, hnext, -, hreplace⟩
  · rw [hnext, hreplace value, Option.map_none, Option.map_none]
  · rw [hnext, hreplace value, Option.map_some, Option.map_some]
    have hparams : d.params.take front.length ++ value ++
        d.params.drop (front ++ param).length = front ++ value ++ rest := by
      rw [hsplit, List.drop_left, List.append_assoc front param, List.take_left]
    simp only [List.nil_append, hparams]

end R4.EventActionDescriptor
