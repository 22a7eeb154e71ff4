import Mathlib.Data.List.Nodup
import Mathlib.Data.List.Perm.Basic

/-!
# Dictionaries in Python

A `dict` keeps its items in the order in which their keys were first set. The keys are distinct,
which the structure carries. Dictionaries of lists are used to sort items into buckets.

## Key results

- `get?_eq_some_iff`: an item is found under its key
- `mem_items_set`, `mem_items_delete`: what the updates change
- `bucket_addAll`, `contents_addAll`: what is in the buckets
-/

namespace Python

/-- A `dict`. -/
structure Dict (α β : Type) where
  items : List (α × β)
  nodup : (items.map Prod.fst).Nodup

namespace Dict

variable {α β γ : Type} [DecidableEq α]

/-- `{}`. -/
def empty : Dict α β := ⟨[], List.nodup_nil⟩

/-- `d.keys()`. -/
def keys (d : Dict α β) : List α := d.items.map Prod.fst

/-- `d.values()`. -/
def values (d : Dict α β) : List β := d.items.map Prod.snd

/-- `d.get(k)`, and `d[k]`, which raises a `KeyError` instead of returning `None`. -/
def get? (d : Dict α β) (k : α) : Option β := d.items.lookup k

/-- `d[k] = v`: in place, or at the end. -/
def set (d : Dict α β) (k : α) (v : β) : Dict α β where
  items :=
    if k ∈ d.keys then d.items.map fun e => if e.1 = k then (k, v) else e
    else d.items ++ [(k, v)]
  nodup := by
    split
    · have hkeys : (d.items.map fun e => if e.1 = k then (k, v) else e).map Prod.fst =
          d.items.map Prod.fst := by
        rw [List.map_map]
        refine List.map_congr_left fun e _ => ?_
        dsimp only [Function.comp_apply]
        split
        · rename_i h
          exact h.symm
        · rfl
      exact hkeys ▸ d.nodup
    · rename_i h
      rw [List.map_append, List.map_singleton]
      refine List.nodup_append.mpr ⟨d.nodup, List.nodup_singleton _, fun a ha b hb heq => ?_⟩
      obtain rfl := List.mem_singleton.mp hb
      exact h (heq ▸ ha)

/-- `del d[k]`, for a key that is there. -/
def delete (d : Dict α β) (k : α) : Dict α β where
  items := d.items.filter fun e => e.1 ≠ k
  nodup := d.nodup.sublist (List.Sublist.map _ List.filter_sublist)

omit [DecidableEq α] in
/-- A `dict` with the same items, set in another order. -/
def reorder (d : Dict α β) {items : List (α × β)} (h : d.items.Perm items) : Dict α β :=
  ⟨items, (h.map Prod.fst).nodup_iff.mp d.nodup⟩

/-! ## Items -/

omit [DecidableEq α] in
/-- No item occurs twice. -/
theorem nodup_items (d : Dict α β) : d.items.Nodup := d.nodup.of_map

omit [DecidableEq α] in
/-- There is one value for a key. -/
theorem value_unique {d : Dict α β} {k : α} {v v' : β} (h : (k, v) ∈ d.items)
    (h' : (k, v') ∈ d.items) : v = v' :=
  congrArg Prod.snd (List.inj_on_of_nodup_map d.nodup h h' rfl)

/-- An item is found under its key. -/
theorem get?_eq_some_iff {d : Dict α β} {k : α} {v : β} :
    d.get? k = some v ↔ (k, v) ∈ d.items := by
  have hfind : ∀ {v}, d.get? k = some v → (k, v) ∈ d.items := by
    intro v h
    obtain ⟨front, back, hitems, -⟩ := List.lookup_eq_some_iff.mp h
    rw [hitems]
    simp
  refine ⟨hfind, fun h => ?_⟩
  cases hget : d.get? k with
  | none =>
    have hne := List.lookup_eq_none_iff.mp hget (k, v) h
    simp at hne
  | some v' => rw [value_unique (hfind hget) h]

/-- Setting a key replaces its value. -/
theorem mem_items_set {d : Dict α β} {k : α} {v : β} {e : α × β} :
    e ∈ (d.set k v).items ↔ e = (k, v) ∨ (e.1 ≠ k ∧ e ∈ d.items) := by
  unfold set
  dsimp only
  split
  · -- the key is there, and its value is replaced
    rename_i hk
    obtain ⟨⟨_, v'⟩, hmem, rfl⟩ := List.mem_map.mp hk
    rw [List.mem_map]
    constructor
    · -- an item of the result is the new one, or one of another key
      rintro ⟨e', he', rfl⟩
      split
      · exact Or.inl rfl
      · rename_i hne
        exact Or.inr ⟨hne, he'⟩
    · -- and the other way round
      rintro (rfl | ⟨hne, he⟩)
      · exact ⟨_, hmem, if_pos rfl⟩
      · exact ⟨e, he, if_neg hne⟩
  · -- the key is new, and its item is appended
    rename_i hk
    rw [List.mem_append, List.mem_singleton, or_comm]
    refine or_congr_right ⟨fun he => ⟨?_, he⟩, And.right⟩
    rintro rfl
    exact hk (List.mem_map_of_mem he)

/-- Deleting a key takes its value. -/
theorem mem_items_delete {d : Dict α β} {k : α} {e : α × β} :
    e ∈ (d.delete k).items ↔ e.1 ≠ k ∧ e ∈ d.items := by
  rw [delete, List.mem_filter, decide_eq_true_eq, and_comm]

/-- A key has the value that was set last. -/
theorem get?_set (d : Dict α β) (k k' : α) (v : β) :
    (d.set k v).get? k' = if k' = k then some v else d.get? k' := by
  refine Option.ext fun v' => ?_
  rw [get?_eq_some_iff, mem_items_set, Prod.mk.injEq]
  split
  · rename_i h
    simp [h, eq_comm]
  · rename_i h
    simp [h, get?_eq_some_iff]

/-- A key that was deleted has no value. -/
theorem get?_delete (d : Dict α β) (k k' : α) :
    (d.delete k).get? k' = if k' = k then none else d.get? k' := by
  refine Option.ext fun v => ?_
  rw [get?_eq_some_iff, mem_items_delete]
  split
  · rename_i h
    simp [h]
  · rename_i h
    simp [h, get?_eq_some_iff]

/-- The item under a key, and the others. -/
theorem items_perm {d : Dict α β} {k : α} {v : β} (h : d.get? k = some v) :
    d.items.Perm ((k, v) :: (d.delete k).items) := by
  have hmem := get?_eq_some_iff.mp h
  refine (List.perm_ext_iff_of_nodup d.nodup_items ?_).mpr fun e => ?_
  · refine List.nodup_cons.mpr ⟨fun he => ?_, (d.delete k).nodup_items⟩
    exact (mem_items_delete.mp he).1 rfl
  · rw [List.mem_cons, mem_items_delete]
    constructor
    · intro he
      by_cases hk : e.1 = k
      · exact Or.inl (List.inj_on_of_nodup_map d.nodup he hmem hk)
      · exact Or.inr ⟨hk, he⟩
    · rintro (rfl | he)
      · exact hmem
      · exact he.2

/-- Without an item under the key, nothing is deleted. -/
theorem items_delete {d : Dict α β} {k : α} (h : d.get? k = none) :
    (d.delete k).items = d.items := by
  refine List.filter_eq_self.mpr fun e he => ?_
  rw [decide_eq_true_eq]
  rintro rfl
  rw [get?_eq_some_iff.mpr he] at h
  exact nomatch h

/-! ## Buckets -/

/-- `d.get(k, [])`. -/
def bucket (d : Dict α (List γ)) (k : α) : List γ := (d.get? k).getD []

/-- The item is appended to the bucket of its key. -/
def add (d : Dict α (List γ)) (k : α) (x : γ) : Dict α (List γ) := d.set k (d.bucket k ++ [x])

/-- Everything in the buckets. -/
def contents (d : Dict α (List γ)) : List γ := d.values.flatten

/-- Every item with a key is added, one after the other. -/
def addAll (key : γ → Option α) (d : Dict α (List γ)) (xs : List γ) : Dict α (List γ) :=
  xs.foldl (fun d x =>
    match key x with
    | none => d
    | some k => d.add k x) d

/-- The contents are those of the buckets. -/
theorem mem_contents_iff {d : Dict α (List γ)} {x : γ} :
    x ∈ d.contents ↔ ∃ k, x ∈ d.bucket k := by
  rw [contents, values, List.mem_flatten]
  constructor
  · rintro ⟨_, hmem, hx⟩
    obtain ⟨⟨k, xs⟩, he, rfl⟩ := List.mem_map.mp hmem
    refine ⟨k, ?_⟩
    rwa [bucket, get?_eq_some_iff.mpr he, Option.getD_some]
  · rintro ⟨k, hx⟩
    cases hget : d.get? k with
    | none => simp [bucket, hget] at hx
    | some xs =>
      rw [bucket, hget, Option.getD_some] at hx
      exact ⟨xs, List.mem_map_of_mem (f := Prod.snd) (get?_eq_some_iff.mp hget), hx⟩

/-- A key that was deleted has an empty bucket. -/
theorem bucket_delete (d : Dict α (List γ)) (k k' : α) :
    (d.delete k).bucket k' = if k' = k then [] else d.bucket k' := by
  rw [bucket, get?_delete]
  split
  · rfl
  · rfl

/-- A bucket and what is in the others. -/
theorem contents_perm (d : Dict α (List γ)) (k : α) :
    d.contents.Perm (d.bucket k ++ (d.delete k).contents) := by
  cases hget : d.get? k with
  | none => rw [bucket, hget, Option.getD_none, List.nil_append, contents, contents, values, values,
      items_delete hget]
  | some xs =>
    rw [bucket, hget, Option.getD_some]
    exact ((items_perm hget).map Prod.snd).flatten

/-- An element is added to the bucket of its key. -/
theorem bucket_add (d : Dict α (List γ)) (k k' : α) (x : γ) :
    (d.add k x).bucket k' = if k' = k then d.bucket k' ++ [x] else d.bucket k' := by
  rw [bucket, add, get?_set]
  split
  · rename_i h
    rw [h, Option.getD_some]
  · rfl

/-- An element is added to the contents. -/
theorem contents_add (d : Dict α (List γ)) (k : α) (x : γ) :
    (d.add k x).contents.Perm (d.contents ++ [x]) := by
  -- the other keys are not touched
  have hdelete : ((d.add k x).delete k).items.Perm (d.delete k).items := by
    refine (List.perm_ext_iff_of_nodup (nodup_items _) (nodup_items _)).mpr fun e => ?_
    rw [mem_items_delete, mem_items_delete, add, mem_items_set]
    constructor
    · rintro ⟨hne, rfl | he⟩
      · exact absurd rfl hne
      · exact he
    · exact fun he => ⟨he.1, Or.inr he⟩
  -- the bucket of the key is the old one and the element
  have hadded := (d.add k x).contents_perm k
  rw [bucket_add, if_pos rfl] at hadded
  refine hadded.trans ?_
  rw [List.append_assoc]
  refine (List.Perm.append_left _ ?_).trans (((d.contents_perm k).append_right [x]).trans
    (List.Perm.of_eq (List.append_assoc ..))).symm
  exact List.perm_append_comm.trans (((hdelete.map Prod.snd).flatten).append_right _)

/-- A bucket gets the items with its key, in their order. -/
theorem bucket_addAll (key : γ → Option α) (d : Dict α (List γ)) (xs : List γ) (k : α) :
    (addAll key d xs).bucket k = d.bucket k ++ xs.filter fun x => key x = some k := by
  induction xs generalizing d with
  | nil => simp [addAll]
  | cons x xs ih =>
    rw [addAll, List.foldl_cons]
    cases hkey : key x with
    | none =>
      -- an element without a key is left out
      dsimp only
      rw [List.filter_cons_of_neg (by simp [hkey])]
      exact ih d
    | some k' =>
      -- an element with a key goes into its bucket
      dsimp only
      refine (ih (d.add k' x)).trans ?_
      rw [bucket_add]
      -- it is the key that is looked for
      by_cases h : k = k'
      · rw [if_pos h, List.filter_cons_of_pos (by simp [hkey, h]), List.append_assoc,
          List.singleton_append]
      · rw [if_neg h, List.filter_cons_of_neg (by simp [hkey, Ne.symm h])]

/-- The items with a key are in the buckets. -/
theorem contents_addAll (key : γ → Option α) (d : Dict α (List γ)) (xs : List γ) :
    (addAll key d xs).contents.Perm (d.contents ++ xs.filter fun x => (key x).isSome) := by
  induction xs generalizing d with
  | nil => simp [addAll]
  | cons x xs ih =>
    rw [addAll, List.foldl_cons]
    cases hkey : key x with
    | none =>
      -- an element without a key is left out
      dsimp only
      rw [List.filter_cons_of_neg (by simp [hkey])]
      exact ih d
    | some k =>
      -- one with a key is among the contents
      dsimp only
      refine (ih (d.add k x)).trans ?_
      rw [List.filter_cons_of_pos (by simp [hkey])]
      refine ((d.contents_add k x).append_right _).trans (List.Perm.of_eq ?_)
      rw [List.append_assoc, List.singleton_append]

end Dict

end Python
