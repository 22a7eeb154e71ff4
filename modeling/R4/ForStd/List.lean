import Mathlib.Data.List.Basic

/-!
# Additional list lemmas

General facts about positions, prefixes and `filterMap` that are not in the standard
library.
-/

namespace List

variable {α β : Type}

/-- Replacing an element by one with the same image keeps the images. -/
theorem map_set_of_eq {f : α → β} {l : List α} {i : Nat} {a b : α} (h : l[i]? = some a)
    (hab : f b = f a) : (l.set i b).map f = l.map f := by
  rw [List.map_set, hab]
  refine List.ext_getElem? fun j => ?_
  rw [List.getElem?_set]
  split
  · rename_i hij
    subst hij
    split
    · rw [List.getElem?_map, h, Option.map_some]
    · rename_i hlt
      rw [List.getElem?_eq_none (by omega)]
  · rfl

/-- What holds of the elements and is kept by `f` holds after one of them is modified. -/
theorem forall_mem_modify {P : α → Prop} {f : α → α} {l : List α} (h : ∀ x ∈ l, P x)
    (hf : ∀ x, P x → P (f x)) (i : Nat) : ∀ x ∈ l.modify i f, P x := by
  intro x hx
  obtain ⟨j, hj⟩ := List.mem_iff_getElem?.mp hx
  rw [List.getElem?_modify, Option.map_eq_map, Option.map_eq_some_iff] at hj
  obtain ⟨y, hy, rfl⟩ := hj
  have hmem := h y (List.mem_of_getElem? hy)
  split
  · exact hf y hmem
  · exact hmem

/-- A list keeps its elements where they are when something is appended. -/
theorem getElem?_of_prefix {l l' : List α} {i : Nat} {x : α} (h : l <+: l')
    (hx : l[i]? = some x) : l'[i]? = some x := by
  obtain ⟨t, rfl⟩ := h
  rw [List.getElem?_append_left (List.getElem?_eq_some_iff.mp hx).1, hx]

/-- A part of a list that lies within a prefix of it. -/
theorem take_drop_take_of_prefix {l l' : List α} (h : l <+: l') {z : Nat} (hz : z ≤ l.length)
    (i n : Nat) : ((l'.take z).drop i).take n = (l.drop i).take (min n (z - i)) := by
  obtain ⟨t, rfl⟩ := h
  rw [List.take_append_of_le_length hz, List.drop_take, List.take_take]

/-- Lists whose elements are related have the same images under functions that agree on related
    elements. -/
theorem map_eq_map_of_forall₂ {γ : Type} {R : α → β → Prop} {f : α → γ} {g : β → γ} {l : List α}
    {l' : List β} (h : List.Forall₂ R l l') (hfg : ∀ a b, R a b → f a = g b) :
    l.map f = l'.map g := by
  induction h with
  | nil => rfl
  | cons hab _ ih => rw [List.map_cons, List.map_cons, hfg _ _ hab, ih]

/-- Lists whose elements agree are uniform together. -/
theorem forall_mem_iff_of_forall₂ {p : α → Prop} {q : β → Prop} {l : List α} {l' : List β}
    (h : Forall₂ (fun x y => p x ↔ q y) l l') : (∀ x ∈ l, p x) ↔ ∀ y ∈ l', q y := by
  induction h with
  | nil => exact iff_of_true (forall_mem_nil _) (forall_mem_nil _)
  | cons hxy _ ih => rw [forall_mem_cons, forall_mem_cons, hxy, ih]

/-- Only elements with an image are mapped, if all have one. -/
theorem map_some_filterMap {f : α → Option β} {l : List α} (h : ∀ x ∈ l, ∃ y, f x = some y) :
    (l.filterMap f).map some = l.map f := by
  induction l with
  | nil => rfl
  | cons x xs ih =>
    obtain ⟨y, hy⟩ := h x List.mem_cons_self
    rw [List.filterMap_cons_some hy, List.map_cons, List.map_cons, hy,
      ih fun x hx => h x (List.mem_cons_of_mem _ hx)]

/-- What is in the result comes from an element. -/
theorem exists_of_mem_mapM {f : α → Option β} {l : List α} {l' : List β} (h : l.mapM f = some l')
    {y : β} (hy : y ∈ l') : ∃ x ∈ l, f x = some y := by
  induction l generalizing l' with
  | nil =>
    obtain rfl := Option.some.inj h
    exact nomatch hy
  | cons x xs ih =>
    simp only [List.mapM_cons, Option.bind_eq_bind, Option.bind_eq_some_iff, Option.pure_def,
      Option.some.injEq] at h
    obtain ⟨z, hz, zs, hzs, rfl⟩ := h
    rcases List.mem_cons.mp hy with rfl | hy
    · exact ⟨x, List.mem_cons_self, hz⟩
    · obtain ⟨x', hx', hfx⟩ := ih hzs hy
      exact ⟨x', List.mem_cons_of_mem _ hx', hfx⟩

/-- Every element has an image if the whole list has. -/
theorem exists_of_mapM {f : α → Option β} {l : List α} {l' : List β} (h : l.mapM f = some l')
    {x : α} (hx : x ∈ l) : ∃ y, f x = some y := by
  induction l generalizing l' with
  | nil => exact nomatch hx
  | cons x' xs ih =>
    simp only [List.mapM_cons, Option.bind_eq_bind, Option.bind_eq_some_iff, Option.pure_def,
      Option.some.injEq] at h
    obtain ⟨y, hy, ys, hys, rfl⟩ := h
    rcases List.mem_cons.mp hx with rfl | hx
    · exact ⟨y, hy⟩
    · exact ih hys hx

/-- The result has one element for each. -/
theorem length_of_mapM {f : α → Option β} {l : List α} {l' : List β} (h : l.mapM f = some l') :
    l'.length = l.length := by
  induction l generalizing l' with
  | nil =>
    obtain rfl := Option.some.inj h
    rfl
  | cons x xs ih =>
    simp only [List.mapM_cons, Option.bind_eq_bind, Option.bind_eq_some_iff, Option.pure_def,
      Option.some.injEq] at h
    obtain ⟨z, -, zs, hzs, rfl⟩ := h
    rw [List.length_cons, List.length_cons, ih hzs]

/-- The element between two lists. -/
theorem getElem?_append_cons {l l' : List α} {x : α} {i : Nat} (h : i = l.length) :
    (l ++ x :: l')[i]? = some x := by
  rw [h, List.getElem?_append_right (Nat.le_refl _), Nat.sub_self, List.getElem?_cons_zero]

/-- The first elements by their indices. -/
theorem map_getElem?_range' {l : List α} {k : Nat} (h : k ≤ l.length) :
    (List.range' 0 k).map (fun i => l[i]?) = (l.take k).map some := by
  refine List.ext_getElem (by simp; omega) fun i hi hi' => ?_
  simp only [List.getElem_map, List.getElem_range', Nat.zero_add, Nat.one_mul, List.getElem_take]
  exact List.getElem?_eq_getElem (by simp at hi; omega)

/-- Removing the entry of a key from the list of the values. -/
theorem eraseIdx_map_snd [DecidableEq α] {l : List (α × β)} (h : (l.map Prod.fst).Nodup) {a : α}
    (ha : a ∈ l.map Prod.fst) :
    (l.map Prod.snd).eraseIdx ((l.map Prod.fst).idxOf a) =
      (l.filter fun p => p.1 ≠ a).map Prod.snd := by
  induction l with
  | nil => exact absurd ha List.not_mem_nil
  | cons p l ih =>
    rw [List.map_cons, List.nodup_cons] at h
    by_cases hp : p.1 = a
    · -- the entry is here, and no other one has the key
      have hrest : l.filter (fun p => p.1 ≠ a) = l := by
        rw [List.filter_eq_self]
        intro q hq
        rw [decide_eq_true_eq, ← hp]
        rintro heq
        exact h.1 (heq ▸ List.mem_map_of_mem hq)
      rw [List.filter_cons_of_neg (by simpa using hp), hrest, List.map_cons, List.map_cons, hp,
        List.idxOf_cons_self, List.eraseIdx_cons_zero]
    · have ha' : a ∈ l.map Prod.fst := (List.mem_cons.mp ha).resolve_left (Ne.symm hp)
      rw [List.filter_cons_of_pos (by simpa using hp), List.map_cons, List.map_cons,
        List.idxOf_cons_ne _ hp, List.eraseIdx_cons_succ, List.map_cons, ih h.2 ha']

/-- What has no separator in it stands on one side of it. -/
theorem infix_append_cons_iff {needle xs ys : List α} {sep : α} (h : sep ∉ needle) :
    needle <:+: xs ++ sep :: ys ↔ needle <:+: xs ∨ needle <:+: ys := by
  constructor
  · rintro ⟨before, behind, heq⟩
    rw [append_assoc] at heq
    rcases append_eq_append_iff.mp heq with ⟨between, hxs, hneedle⟩ | ⟨between, hbefore, hsep⟩
    · -- it starts before the separator, so it ends there
      rcases append_eq_append_iff.mp hneedle with ⟨rest, hrest, -⟩ | ⟨rest, hrest, hsep⟩
      · exact .inl ⟨before, rest, by rw [hxs, hrest, append_assoc]⟩
      · cases rest with
        | nil =>
          rw [append_nil] at hrest
          exact .inl ⟨before, [], by rw [hxs, hrest, append_nil]⟩
        | cons c rest =>
          obtain ⟨rfl, -⟩ := cons.inj hsep
          exact absurd (hrest ▸ mem_append_right _ mem_cons_self) h
    · cases between with
      | nil =>
        cases needle with
        | nil => exact .inl nil_infix
        | cons c needle =>
          obtain ⟨rfl, -⟩ := cons.inj hsep
          exact absurd mem_cons_self h
      | cons c between =>
        obtain ⟨rfl, hys⟩ := cons.inj hsep
        exact .inr ⟨between, behind, (append_assoc _ _ _).trans hys.symm⟩
  · rintro (h | h)
    · exact h.trans (prefix_append _ _).isInfix
    · exact h.trans ((suffix_cons _ _).trans (suffix_append _ _)).isInfix

/-! ## Erasing the one element that there is -/

/-- An element is found in the first list if and only if one is there. -/
theorem findIdx_append_lt_length_iff {q : α → Bool} {l : List α} (l' : List α) :
    (l ++ l').findIdx q < l.length ↔ ∃ x ∈ l, q x = true := by
  rw [findIdx_append]
  split
  · next h => exact iff_of_true h (findIdx_lt_length.mp h)
  · next h =>
    refine iff_of_false (by omega) fun hex => h (findIdx_lt_length.mpr hex)

/-- Where at most one element is looked for, it is erased on both sides of a cut. -/
theorem eraseP_append_of_pairwise {q : α → Bool} {l l' : List α}
    (h : (l ++ l').Pairwise fun x y => ¬(q x = true ∧ q y = true)) :
    (l ++ l').eraseP q = l.eraseP q ++ l'.eraseP q := by
  rw [eraseP_append]
  split
  · next hany =>
    obtain ⟨x, hx, hq⟩ := any_eq_true.mp hany
    rw [eraseP_of_forall_not (l := l')]
    exact fun y hy hqy => (pairwise_append.mp h).2.2 x hx y hy ⟨hq, hqy⟩
  · next hany =>
    rw [eraseP_of_forall_not (l := l)]
    exact fun x hx hq => hany (any_eq_true.mpr ⟨x, hx, hq⟩)

/-- Erasing the first element that is found takes one from the first list, if it is there. -/
theorem length_eraseP_of_append {q : α → Bool} {l : List α} (l' : List α) :
    (l.eraseP q).length = if (l ++ l').findIdx q < l.length then l.length - 1 else l.length := by
  split
  · next h =>
    obtain ⟨x, hx, hq⟩ := (findIdx_append_lt_length_iff l').mp h
    exact length_eraseP_of_mem hx hq
  · next h =>
    rw [eraseP_of_forall_not]
    exact fun x hx hq => h ((findIdx_append_lt_length_iff l').mpr ⟨x, hx, hq⟩)

end List
