import Mathlib.Algebra.Order.Group.Int
import Mathlib.Data.List.Chain
import Mathlib.Data.List.Infix

/-!
# Nested words

Words over an alphabet in which some letters open a scope and some close one. A well-nested
word is the text of a forest of scopes. A scope with nothing inside can be deleted, from the
innermost scope outwards; reading the word from left to right and looking back at one letter
does the same.

## Key results

- `wellNested_iff_exists_forest`: the well-nested words are the texts of forests
- `foldl_push_text`: looking back at one letter deletes the empty scopes
- `isChain_compress`: no scope that is left is empty
-/

/-- The letters that open a scope and those that close one. -/
structure Brackets (α : Type) where
  isOpen : α → Bool
  isClose : α → Bool
  disjoint : ∀ a, isOpen a = true → isClose a = false

namespace Brackets

variable {α : Type} (b : Brackets α)

/-- The number of scopes that are open after a word. -/
def depth (w : List α) : Int := (w.countP b.isOpen : Int) - w.countP b.isClose

/-- Every scope that is closed was open, and all scopes are closed at the end. -/
def WellNested (w : List α) : Prop := (∀ u ∈ w.inits, 0 ≤ b.depth u) ∧ b.depth w = 0

instance (w : List α) : Decidable (b.WellNested w) := inferInstanceAs (Decidable (_ ∧ _))

/-- No scope is closed right behind the letter that opens it. -/
def NoEmptyScope (w : List α) : Prop :=
  w.IsChain fun x y => ¬(b.isOpen x = true ∧ b.isClose y = true)

instance (w : List α) : Decidable (b.NoEmptyScope w) :=
  inferInstanceAs (Decidable (List.IsChain _ _))

/-- What closes does not open. -/
theorem not_open {a : α} (h : b.isClose a = true) : b.isOpen a = false := by
  by_contra ho
  simp [b.disjoint a (by simpa using ho)] at h

/-- The empty text has depth zero. -/
@[simp] theorem depth_nil : b.depth [] = 0 := rfl

/-- Depths add up. -/
@[simp] theorem depth_append (u v : List α) : b.depth (u ++ v) = b.depth u + b.depth v := by
  simp only [depth, List.countP_append]
  omega

/-- What opens has depth one. -/
theorem depth_open {a : α} (h : b.isOpen a = true) : b.depth [a] = 1 := by
  simp [depth, h, b.disjoint a h]

/-- What closes has depth minus one. -/
theorem depth_close {a : α} (h : b.isClose a = true) : b.depth [a] = -1 := by
  simp [depth, h, b.not_open h]

/-- What does neither has depth zero. -/
theorem depth_plain {a : α} (ho : b.isOpen a = false) (hc : b.isClose a = false) :
    b.depth [a] = 0 := by
  simp [depth, ho, hc]

/-- The depth of a text is that of its first command and of the rest. -/
theorem depth_cons (a : α) (w : List α) : b.depth (a :: w) = b.depth [a] + b.depth w :=
  b.depth_append [a] w

/-! ## Leaving out letters -/

/-- `w'` is `w` without some of the letters that neither open nor close a scope. -/
inductive Thins : List α → List α → Prop where
  | nil : Thins [] []
  | keep {w w' : List α} (a : α) (h : Thins w w') : Thins (a :: w) (a :: w')
  | drop {w w' : List α} {a : α} (ho : b.isOpen a = false) (hc : b.isClose a = false)
      (h : Thins w w') : Thins (a :: w) w'

/-- Each prefix of a thinned text has the depth of some prefix of the whole one. -/
theorem Thins.exists_prefix {b : Brackets α} {w w' : List α} (h : b.Thins w w') {u : List α}
    (hu : u <+: w') : ∃ v, v <+: w ∧ b.depth v = b.depth u := by
  induction h generalizing u with
  | nil => exact ⟨u, hu, rfl⟩
  | keep a _ ih =>
    -- the empty prefix
    cases u with
    | nil => exact ⟨[], List.nil_prefix, rfl⟩
    | cons c u =>
      -- a prefix with the command that is kept
      obtain ⟨rfl, hu'⟩ := List.cons_prefix_cons.mp hu
      obtain ⟨v, hv, hdepth⟩ := ih hu'
      refine ⟨c :: v, List.cons_prefix_cons.mpr ⟨rfl, hv⟩, ?_⟩
      rw [depth_cons, hdepth, ← depth_cons]
  | @drop _ _ a ho hc _ ih =>
    -- a plain command in front does not change the depth
    obtain ⟨v, hv, hdepth⟩ := ih hu
    refine ⟨a :: v, List.cons_prefix_cons.mpr ⟨rfl, hv⟩, ?_⟩
    rw [depth_cons, b.depth_plain ho hc, hdepth, Int.zero_add]

/-- Thinning keeps the depth. -/
theorem Thins.depth {b : Brackets α} {w w' : List α} (h : b.Thins w w') :
    b.depth w' = b.depth w := by
  induction h with
  | nil => rfl
  | keep a _ ih => rw [depth_cons, ih, ← depth_cons]
  | @drop _ _ a ho hc _ ih => rw [ih, b.depth_cons a, b.depth_plain ho hc, Int.zero_add]

/-- Thinning keeps the text well nested. -/
theorem Thins.wellNested {b : Brackets α} {w w' : List α} (h : b.Thins w w')
    (nested : b.WellNested w) : b.WellNested w' := by
  refine ⟨?_, h.depth.trans nested.2⟩
  intro u hu
  obtain ⟨v, hv, hdepth⟩ := h.exists_prefix ((List.mem_inits _ _).mp hu)
  rw [← hdepth]
  exact nested.1 v ((List.mem_inits _ _).mpr hv)

/-! ## Forests -/

/-- Letters and scopes, one behind the other. -/
inductive Forest (α : Type) where
  | nil
  | plain (a : α) (rest : Forest α)
  | scope (o c : α) (inside rest : Forest α)

namespace Forest

/-- The word of a forest. -/
def text : Forest α → List α
  | nil => []
  | plain a rest => a :: rest.text
  | scope o c inside rest => o :: (inside.text ++ c :: rest.text)

/-- The letters of the scopes are those that open and close scopes. -/
def Proper (b : Brackets α) : Forest α → Prop
  | nil => True
  | plain a rest => b.isOpen a = false ∧ b.isClose a = false ∧ rest.Proper b
  | scope o c inside rest =>
    b.isOpen o = true ∧ b.isClose c = true ∧ inside.Proper b ∧ rest.Proper b

/-- One forest behind the other. -/
def append : Forest α → Forest α → Forest α
  | nil, g => g
  | plain a rest, g => plain a (rest.append g)
  | scope o c inside rest, g => scope o c inside (rest.append g)

/-- The forest without the scopes that have nothing left inside, from the innermost outwards. -/
def compress : Forest α → Forest α
  | nil => nil
  | plain a rest => plain a rest.compress
  | scope o c inside rest =>
    match inside.compress with
    | nil => rest.compress
    | inside => scope o c inside rest.compress

/-- The text of two forests, one behind the other. -/
@[simp] theorem text_append (f g : Forest α) : (f.append g).text = f.text ++ g.text := by
  induction f with
  | nil => rfl
  | plain a rest ih => simp [append, text, ih]
  | scope o c inside rest _ ih => simp [append, text, ih]

/-- Two proper forests are one. -/
theorem Proper.append {b : Brackets α} {f g : Forest α} (hf : f.Proper b) (hg : g.Proper b) :
    (f.append g).Proper b := by
  induction f with
  | nil => exact hg
  | plain a rest ih => exact ⟨hf.1, hf.2.1, ih hf.2.2⟩
  | scope o c inside rest _ ih => exact ⟨hf.1, hf.2.1, hf.2.2.1, ih hf.2.2.2⟩

/-- Only the empty forest has no text. -/
theorem text_eq_nil {f : Forest α} : f.text = [] ↔ f = nil := by
  cases f <;> simp [text]

/-- Compressing a forest keeps it proper. -/
theorem Proper.compress {b : Brackets α} {f : Forest α} (h : f.Proper b) : f.compress.Proper b := by
  induction f with
  | nil => trivial
  | plain a rest ih => exact ⟨h.1, h.2.1, ih h.2.2⟩
  | scope o c inside rest ihInside ih =>
    have hinside := ihInside h.2.2.1
    have hrest := ih h.2.2.2
    simp only [Forest.compress]
    split
    · exact hrest
    · exact ⟨h.1, h.2.1, hinside, hrest⟩

/-! ### The word of a forest is well nested -/

/-- A proper forest has depth zero. -/
theorem Proper.depth_text {b : Brackets α} {f : Forest α} (h : f.Proper b) :
    b.depth f.text = 0 := by
  induction f with
  | nil => rfl
  | plain a rest ih => rw [text, depth_cons, b.depth_plain h.1 h.2.1, ih h.2.2]; rfl
  | scope o c inside rest ihInside ih =>
    rw [text, depth_cons, depth_append, b.depth_cons c, b.depth_open h.1, b.depth_close h.2.1,
      ihInside h.2.2.1, ih h.2.2.2]
    rfl

/-- No prefix of a proper forest closes more than it has opened. -/
theorem Proper.prefix_text {b : Brackets α} {f : Forest α} (h : f.Proper b) {u : List α}
    (hu : u <+: f.text) : 0 ≤ b.depth u := by
  induction f generalizing u with
  | nil => simp [List.prefix_nil.mp hu]
  | plain a rest ih =>
    cases u with
    | nil => simp
    | cons d u =>
      obtain ⟨rfl, hu'⟩ := List.cons_prefix_cons.mp hu
      have := ih h.2.2 hu'
      rw [depth_cons, b.depth_plain h.1 h.2.1]
      omega
  | scope o c inside rest ihInside ih =>
    cases u with
    | nil => simp
    | cons d u =>
      obtain ⟨rfl, hu'⟩ := List.cons_prefix_cons.mp hu
      rw [depth_cons, b.depth_open h.1]
      -- the prefix ends inside the scope, or behind it
      rcases List.prefix_or_prefix_of_prefix hu' (List.prefix_append _ _) with hin | ⟨v, rfl⟩
      · have := ihInside h.2.2.1 hin
        omega
      · have hv := (List.prefix_append_right_inj _).mp hu'
        rw [depth_append, h.2.2.1.depth_text]
        cases v with
        | nil => simp
        | cons e v =>
          obtain ⟨rfl, hv'⟩ := List.cons_prefix_cons.mp hv
          have := ih h.2.2.2 hv'
          rw [b.depth_cons e, b.depth_close h.2.1]
          omega

end Forest

/-! ## Every well-nested word is that of a forest -/

/-- The word of a forest in scopes that are still open, the innermost first, each with the
    forest in front of it. -/
def spell : List (α × Forest α) → Forest α → List α
  | [], f => f.text
  | (o, before) :: frames, f => spell frames before ++ o :: f.text

/-- What is appended to the innermost forest is spelled last. -/
theorem spell_append (frames : List (α × Forest α)) (f g : Forest α) :
    spell frames (f.append g) = spell frames f ++ g.text := by
  cases frames with
  | nil => exact Forest.text_append f g
  | cons frame frames => simp [spell]

/-- A word that closes no scope too many is a forest in the scopes that it leaves open. -/
theorem exists_spell {w : List α} (h : ∀ u, u <+: w → 0 ≤ b.depth u) :
    ∃ frames f, spell frames f = w ∧ f.Proper b ∧
      (∀ frame ∈ frames, b.isOpen frame.1 = true ∧ frame.2.Proper b) ∧
      (frames.length : Int) = b.depth w := by
  induction w using List.reverseRecOn with
  | nil => exact ⟨[], .nil, rfl, trivial, by simp, rfl⟩
  | append_singleton w a ih =>
    obtain ⟨frames, f, rfl, hf, hframes, hlength⟩ := ih fun u hu =>
      h u (hu.trans (List.prefix_append _ _))
    cases ho : b.isOpen a with
    | true =>
      refine ⟨(a, f) :: frames, .nil, rfl, trivial, ?_, ?_⟩
      · simpa [ho, hf] using hframes
      · rw [depth_append, b.depth_open ho, ← hlength]
        simp
    | false =>
      cases hc : b.isClose a with
      | true =>
        have hpos := h _ List.prefix_rfl
        rw [depth_append, b.depth_close hc] at hpos
        -- a scope is open, and its forest is complete now
        cases frames with
        | nil => simp only [List.length_nil] at hlength; omega
        | cons frame frames =>
          obtain ⟨hframe, hframes⟩ := List.forall_mem_cons.mp hframes
          refine ⟨frames, frame.2.append (.scope frame.1 a f .nil), ?_, ?_, hframes, ?_⟩
          · simp [spell, spell_append, Forest.text]
          · exact hframe.2.append ⟨hframe.1, hc, hf, trivial⟩
          · rw [depth_append, b.depth_close hc, ← hlength]
            simp
      | false =>
        refine ⟨frames, f.append (.plain a .nil), spell_append _ _ _, hf.append ⟨ho, hc, trivial⟩,
          hframes, ?_⟩
        rw [depth_append, b.depth_plain ho hc, ← hlength, Int.add_zero]

/-- The well-nested words are the texts of forests. -/
theorem wellNested_iff_exists_forest {w : List α} :
    b.WellNested w ↔ ∃ f : Forest α, f.Proper b ∧ f.text = w := by
  constructor
  · intro h
    obtain ⟨frames, f, rfl, hf, -, hlength⟩ := b.exists_spell fun u hu =>
      h.1 u ((List.mem_inits _ _).mpr hu)
    rw [h.2] at hlength
    obtain rfl : frames = [] := List.length_eq_zero_iff.mp (by omega)
    exact ⟨f, hf, rfl⟩
  · rintro ⟨f, hf, rfl⟩
    exact ⟨fun u hu => hf.prefix_text ((List.mem_inits _ _).mp hu), hf.depth_text⟩

/-! ## Looking back at one letter -/

/-- The letter is added, but one that closes a scope right behind the letter that opened it
    removes that letter. -/
def push (w : List α) (a : α) : List α :=
  if b.isClose a = true ∧ w.getLast?.any b.isOpen = true then w.dropLast else w ++ [a]

/-- What does not close is appended. -/
theorem push_of_not_close {w : List α} {a : α} (h : b.isClose a = false) :
    b.push w a = w ++ [a] := by
  simp [push, h]

/-- What is left of a forest neither starts by closing a scope nor ends by opening one. -/
theorem Forest.Proper.ends {b : Brackets α} {f : Forest α} (h : f.Proper b) :
    (∀ a ∈ f.text.head?, b.isClose a = false) ∧ ∀ a ∈ f.text.getLast?, b.isOpen a = false := by
  induction f with
  | nil => simp [Forest.text]
  | plain a rest ih =>
    -- a plain command does not open a scope
    refine ⟨by simp [Forest.text, h.2.1], ?_⟩
    have hlast := (ih h.2.2).2
    simp only [Forest.text, List.getLast?_cons]
    cases hrest : rest.text.getLast? with
    | none => simp [h.1]
    | some d => simpa using hlast d hrest
  | scope o c inside rest _ ih =>
    -- a scope that ends a text has its end there
    refine ⟨by simp [Forest.text, b.disjoint o h.1], ?_⟩
    have hlast := (ih h.2.2.2).2
    simp only [Forest.text, ← List.cons_append, List.getLast?_append, List.getLast?_cons]
    cases hrest : rest.text.getLast? with
    | none => simp [b.not_open h.2.1]
    | some d => simpa using hlast d hrest

/-- Looking back at one letter deletes the scopes that have nothing left inside. -/
theorem foldl_push_text {f : Forest α} (h : f.Proper b) (w : List α) :
    f.text.foldl b.push w = w ++ f.compress.text := by
  induction f generalizing w with
  | nil => simp [Forest.text, Forest.compress]
  | plain a rest ih =>
    simp only [Forest.text, Forest.compress, List.foldl_cons]
    rw [b.push_of_not_close h.2.1, ih h.2.2]
    simp
  | scope o c inside rest ihInside ih =>
    simp only [Forest.text, List.foldl_cons, List.foldl_append]
    rw [b.push_of_not_close (b.disjoint o h.1), ihInside h.2.2.1, ih h.2.2.2]
    simp only [Forest.compress]
    split
    · -- nothing is left inside: the letter that closes the scope meets the one that opened it
      rename_i hnil
      simp [hnil, Forest.text, push, h.1, h.2.1]
    · rename_i hne
      have hlast := (h.2.2.1.compress).ends.2
      have hstays : b.push (w ++ [o] ++ inside.compress.text) c =
          w ++ [o] ++ inside.compress.text ++ [c] := by
        cases hget : inside.compress.text.getLast? with
        | none => exact absurd (Forest.text_eq_nil.mp (List.getLast?_eq_none_iff.mp hget)) hne
        | some d =>
          have hlast' : (w ++ [o] ++ inside.compress.text).getLast? = some d := by
            rw [List.getLast?_append, hget, Option.some_or]
          rw [push, hlast']
          simp [hlast d hget]
      rw [hstays]
      simp [Forest.text]

/-- No scope that is left is empty. -/
theorem isChain_compress {f : Forest α} (h : f.Proper b) : b.NoEmptyScope f.compress.text := by
  unfold NoEmptyScope
  induction f with
  | nil => exact .nil
  | plain a rest ih =>
    simp only [Forest.compress, Forest.text, List.isChain_cons]
    exact ⟨fun y _ hboth => by simp [h.1] at hboth, ih h.2.2⟩
  | scope o c inside rest ihInside ih =>
    have hends := (h.2.2.1.compress).ends
    simp only [Forest.compress]
    split
    · exact ih h.2.2.2
    · rename_i hne
      have hrest : (c :: rest.compress.text).IsChain
          fun x y => ¬(b.isOpen x = true ∧ b.isClose y = true) :=
        List.isChain_cons.mpr ⟨fun y _ hboth => by simp [b.not_open h.2.1] at hboth, ih h.2.2.2⟩
      simp only [Forest.text, List.isChain_cons, List.isChain_append]
      refine ⟨?_, ihInside h.2.2.1, List.isChain_cons.mp hrest, ?_⟩
      · -- the first letter inside does not close the scope
        intro y hy hboth
        cases hhead : inside.compress.text.head? with
        | none => exact hne (Forest.text_eq_nil.mp (List.head?_eq_none_iff.mp hhead))
        | some d =>
          simp only [List.head?_append, hhead, Option.some_or, Option.mem_some_iff] at hy
          have := hends.1 d hhead
          subst hy
          simp [this] at hboth
      · intro x hx y _ hboth
        have := hends.2 x hx
        simp [this] at hboth

end Brackets
