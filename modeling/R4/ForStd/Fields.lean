import Mathlib.Data.List.TakeWhile

/-!
# Separated fields

A text that is a sequence of fields with a separator between them: how it is cut at the first
separator, and what becomes of the fields if one of them is replaced.

## Key results

- `splitOn_of_dropWhile_cons`: the fields behind the first separator
- `mem_intercalate`, `exists_mem_splitOn`: every other element is in a field
- `splitOn_join_set`: replacing a field changes no other one
-/

namespace List

variable {α : Type} [DecidableEq α] {c : α}

/-- A text without a separator is one field. -/
theorem splitOn_of_dropWhile_nil {xs : List α} (h : xs.dropWhile (· != c) = []) :
    xs.splitOn c = [xs.takeWhile (· != c)] := by
  have hall : ∀ x ∈ xs, (x != c) = true := List.dropWhile_eq_nil_iff.mp h
  have hmem : c ∉ xs := fun hc => by simpa using hall c hc
  rw [List.splitOn_eq_singleton hmem, List.takeWhile_eq_self_iff.mpr hall]

/-- The first field ends at the first separator, and behind it are the others. -/
theorem splitOn_of_dropWhile_cons {xs rest : List α} {x : α}
    (h : xs.dropWhile (· != c) = x :: rest) :
    x = c ∧ xs = xs.takeWhile (· != c) ++ c :: rest ∧
      xs.splitOn c = xs.takeWhile (· != c) :: rest.splitOn c := by
  have hx : x = c := by
    have hnot := List.head?_dropWhile_not (· != c) xs
    rw [h] at hnot
    simpa using hnot
  subst hx
  have hxs : xs = xs.takeWhile (· != x) ++ x :: rest := by
    rw [← h, List.takeWhile_append_dropWhile]
  have hmem : x ∉ xs.takeWhile (· != x) := fun hx => by simpa using List.mem_takeWhile_imp hx
  have hsplit := List.splitOn_append_cons_self_of_not_mem hmem rest
  rw [← hxs] at hsplit
  exact ⟨rfl, hxs, hsplit⟩

/-- A field has no separator. -/
theorem not_mem_of_mem_splitOn {xs field : List α} (h : field ∈ xs.splitOn c) : c ∉ field := by
  induction hn : xs.length using Nat.strong_induction_on generalizing xs with
  | _ n ih =>
    cases hd : xs.dropWhile (· != c) with
    | nil =>
      -- there is one field only
      rw [splitOn_of_dropWhile_nil hd, List.mem_singleton] at h
      subst h
      exact fun hc => by simpa using List.mem_takeWhile_imp hc
    | cons x rest =>
      -- the field is the first one, or one of the rest
      obtain ⟨-, hxs, hsplit⟩ := splitOn_of_dropWhile_cons hd
      rw [hsplit] at h
      rcases List.mem_cons.mp h with rfl | h
      · exact fun hc => by simpa using List.mem_takeWhile_imp hc
      · refine ih rest.length ?_ h rfl
        have hlength := congrArg List.length hxs
        rw [List.length_append, List.length_cons] at hlength
        omega

omit [DecidableEq α] in
/-- What is not a separator stands in one of the fields that are joined. -/
theorem mem_intercalate {x : α} (hx : x ≠ c) {fields : List (List α)} :
    x ∈ [c].intercalate fields ↔ ∃ field ∈ fields, x ∈ field := by
  induction fields with
  | nil => simp [List.intercalate_nil]
  | cons field fields ih =>
    by_cases hfields : fields = []
    · rw [hfields, List.intercalate_singleton]
      simp
    · rw [List.intercalate_cons_of_ne_nil hfields]
      simp [ih, hx]

/-- So it stands in one of the fields that a text is split into. -/
theorem exists_mem_splitOn {x : α} (hx : x ≠ c) {xs : List α} (h : x ∈ xs) :
    ∃ field ∈ xs.splitOn c, x ∈ field :=
  (mem_intercalate hx).mp (by rwa [List.intercalate_splitOn])

/-- Replacing a field changes no other one. -/
theorem splitOn_join_set {xs value : List α} (hvalue : c ∉ value) (number : Nat) :
    ([c].intercalate ((xs.splitOn c).set number value)).splitOn c =
      (xs.splitOn c).set number value := by
  refine List.splitOn_intercalate c (fun field hfield => ?_) ?_
  · rcases List.mem_or_eq_of_mem_set hfield with hfield | rfl
    · exact not_mem_of_mem_splitOn hfield
    · exact hvalue
  · rw [ne_eq, List.set_eq_nil_iff]
    exact List.splitOn_ne_nil c xs

end List
