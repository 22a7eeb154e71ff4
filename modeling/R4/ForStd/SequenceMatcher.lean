import Mathlib.Data.List.Basic
import Mathlib.Data.List.Pairwise
import Mathlib.Logic.Function.Basic

/-!
# Comparing sequences in Python

`difflib.SequenceMatcher(None, a, b)`: the longest block that two sequences have in common is
found, then those to its left and to its right, and so on, and from the blocks comes the list of
steps that make one sequence into the other. Elements that are popular in a long second sequence
do not start a block, so the block that is found need not be the longest one, and the steps need
not be few. But they are always right, and two sequences that are equal need none.

## Key results

- `findLongestMatch_spec`: what is found is a common block inside of the window
- `tiles_getOpcodes`: the steps go through both sequences from their start to their end
- `flatMap_first`, `flatMap_second`: put together, they are the two sequences
- `forall_equal_iff`: there is nothing to do if the sequences are equal, and only then
-/

namespace Python

/-- A common block: `size` elements, from `a` in the first and from `b` in the second sequence. -/
structure Match where
  a : Nat
  b : Nat
  size : Nat
deriving DecidableEq, Repr

/-- What to do with a piece of the first sequence. -/
inductive Tag where
  | replace
  | delete
  | insert
  | equal
deriving DecidableEq, Repr

/-- A step: `a[i1:i2]` becomes `b[j1:j2]`. -/
structure Opcode where
  tag : Tag
  i1 : Nat
  i2 : Nat
  j1 : Nat
  j2 : Nat
deriving DecidableEq, Repr

/-- `xs[i:j]`, for `i` and `j` that are not negative. -/
def slice {α : Type} (xs : List α) (i j : Nat) : List α := (xs.take j).drop i

namespace SequenceMatcher

variable {α : Type}

/-! ## Common blocks -/

/-- `size` elements are the same from `i` and from `j` on. -/
def Common (a b : List α) (i j size : Nat) : Prop :=
  ∀ t < size, ∃ x, a[i + t]? = some x ∧ b[j + t]? = some x

/-- Nothing is common anywhere. -/
theorem common_zero (a b : List α) (i j : Nat) : Common a b i j 0 :=
  fun _ h => absurd h (Nat.not_lt_zero _)

/-- A common block grows at its end. -/
theorem Common.succ_right {a b : List α} {i j size : Nat} (h : Common a b i j size) {x : α}
    (ha : a[i + size]? = some x) (hb : b[j + size]? = some x) : Common a b i j (size + 1) := by
  intro t ht
  rcases Nat.lt_or_eq_of_le (Nat.le_of_lt_succ ht) with hlt | rfl
  · exact h t hlt
  · exact ⟨x, ha, hb⟩

/-- A common block grows at its start. -/
theorem Common.succ_left {a b : List α} {i j size : Nat} (h : Common a b (i + 1) (j + 1) size)
    {x : α} (ha : a[i]? = some x) (hb : b[j]? = some x) : Common a b i j (size + 1) := by
  intro t ht
  cases t with
  | zero => exact ⟨x, ha, hb⟩
  | succ t =>
    obtain ⟨y, hy⟩ := h t (Nat.lt_of_succ_lt_succ ht)
    exact ⟨y, by rwa [Nat.add_right_comm, Nat.add_assoc, Nat.add_right_comm, Nat.add_assoc] at hy⟩

variable [DecidableEq α]

/-! ## The longest match -/

/-- An element of which a long sequence has more than one percent. -/
def isPopular (b : List α) (x : α) : Bool := 200 ≤ b.length && b.length / 100 + 1 < b.count x

/-- `b2j.get(x, [])`: the places of an element, unless it is popular. -/
def b2j (b : List α) (x : α) : List Nat :=
  if isPopular b x then [] else (List.range b.length).filter fun j => b[j]? = some x

/-- The places in `b` of `a[i]`. -/
def row (a b : List α) (i : Nat) : List Nat := (a[i]?.map (b2j b)).getD []

/-- The inner loop of `find_longest_match`, for `a[i]`: the best match, and the lengths of the
    matches that end there. `j2len j` is `j2len.get(j, 0)` for the element before. -/
def scanRow (i blo bhi : Nat) (j2len : Nat → Nat) :
    List Nat → Match → (Nat → Nat) → Match × (Nat → Nat)
  | [], best, newj2len => (best, newj2len)
  | j :: js, best, newj2len =>
    if j < blo then scanRow i blo bhi j2len js best newj2len
    else if bhi ≤ j then (best, newj2len)
    else
      let k := (if j = 0 then 0 else j2len (j - 1)) + 1
      scanRow i blo bhi j2len js (if best.size < k then ⟨i + 1 - k, j + 1 - k, k⟩ else best)
        (Function.update newj2len j k)

/-- The outer loop, from `a[i]` on for `n` elements. -/
def scanRows (a b : List α) (blo bhi : Nat) : Nat → Nat → Match → (Nat → Nat) → Match
  | 0, _, best, _ => best
  | n + 1, i, best, j2len =>
    let (best, newj2len) := scanRow i blo bhi j2len (row a b i) best fun _ => 0
    scanRows a b blo bhi n (i + 1) best newj2len

/-- The loop that extends a match to the left. -/
def extendLeft (a b : List α) (alo blo : Nat) : Nat → Nat → Nat → Match
  | i + 1, j + 1, size =>
    if alo < i + 1 ∧ blo < j + 1 ∧ a[i]? = b[j]? then extendLeft a b alo blo i j (size + 1)
    else ⟨i + 1, j + 1, size⟩
  | i, j, size => ⟨i, j, size⟩

/-- The loop that extends a match to the right, by at most `n` elements. -/
def extendRight (a b : List α) (ahi bhi : Nat) : Nat → Match → Match
  | 0, m => m
  | n + 1, m =>
    if m.a + m.size < ahi ∧ m.b + m.size < bhi ∧ a[m.a + m.size]? = b[m.b + m.size]? then
      extendRight a b ahi bhi n ⟨m.a, m.b, m.size + 1⟩
    else m

/-- `find_longest_match(alo, ahi, blo, bhi)`. -/
def findLongestMatch (a b : List α) (alo ahi blo bhi : Nat) : Match :=
  let best := scanRows a b blo bhi (ahi - alo) alo ⟨alo, blo, 0⟩ fun _ => 0
  let best := extendLeft a b alo blo best.a best.b best.size
  extendRight a b ahi bhi (ahi - (best.a + best.size)) best

/-! ## Blocks and steps -/

/-- The blocks of a window, in their order. A window gets smaller on both sides of a block, so
    `ahi - alo` rounds are enough. -/
def blocksIn (a b : List α) : Nat → Nat → Nat → Nat → Nat → List Match
  | 0, _, _, _, _ => []
  | n + 1, alo, ahi, blo, bhi =>
    let m := findLongestMatch a b alo ahi blo bhi
    if m.size = 0 then []
    else
      let left := if alo < m.a ∧ blo < m.b then blocksIn a b n alo m.a blo m.b else []
      let right :=
        if m.a + m.size < ahi ∧ m.b + m.size < bhi then
          blocksIn a b n (m.a + m.size) ahi (m.b + m.size) bhi
        else []
      left ++ m :: right

/-- The loop that joins adjacent blocks. -/
def joinAdjacent : Match → List Match → List Match
  | m, [] => if m.size = 0 then [] else [m]
  | m, m' :: rest =>
    if m.a + m.size = m'.a ∧ m.b + m.size = m'.b then
      joinAdjacent ⟨m.a, m.b, m.size + m'.size⟩ rest
    else (if m.size = 0 then [] else [m]) ++ joinAdjacent m' rest

/-- `get_matching_blocks()`. The last block is a sentinel. -/
def getMatchingBlocks (a b : List α) : List Match :=
  joinAdjacent ⟨0, 0, 0⟩ (blocksIn a b a.length 0 a.length 0 b.length) ++
    [⟨a.length, b.length, 0⟩]

/-- The step between two blocks. -/
def gap (i ai j bj : Nat) : List Opcode :=
  if i < ai ∧ j < bj then [⟨.replace, i, ai, j, bj⟩]
  else if i < ai then [⟨.delete, i, ai, j, bj⟩]
  else if j < bj then [⟨.insert, i, ai, j, bj⟩]
  else []

/-- The loop of `get_opcodes`. -/
def opcodesFrom : Nat → Nat → List Match → List Opcode
  | _, _, [] => []
  | i, j, m :: rest =>
    gap i m.a j m.b ++
      (if m.size = 0 then [] else [⟨.equal, m.a, m.a + m.size, m.b, m.b + m.size⟩]) ++
      opcodesFrom (m.a + m.size) (m.b + m.size) rest

/-- `get_opcodes()`. -/
def getOpcodes (a b : List α) : List Opcode := opcodesFrom 0 0 (getMatchingBlocks a b)

example : getOpcodes "qabxcd".toList "abycdf".toList =
    [⟨.delete, 0, 1, 0, 0⟩, ⟨.equal, 1, 3, 0, 2⟩, ⟨.replace, 3, 4, 2, 3⟩, ⟨.equal, 4, 6, 3, 5⟩,
      ⟨.insert, 6, 6, 5, 6⟩] := by decide +kernel

/-! ## What is found is a common block -/

/-- A common block inside of a window. -/
structure IsMatch (a b : List α) (alo ahi blo bhi : Nat) (m : Match) : Prop where
  aLo : alo ≤ m.a
  aHi : m.a + m.size ≤ ahi
  bLo : blo ≤ m.b
  bHi : m.b + m.size ≤ bhi
  common : Common a b m.a m.b m.size

/-- A length that is kept for `a[i - 1]` and `b[j]`: so many elements before them are the same. -/
def EndsAt (a b : List α) (alo blo i j k : Nat) : Prop :=
  k = 0 ∨ (alo + k ≤ i ∧ blo + k ≤ j + 1 ∧ Common a b (i - k) (j + 1 - k) k)

/-- The places of an element are those where it is in `b`, unless it is popular. -/
theorem mem_row {a b : List α} {i j : Nat} :
    j ∈ row a b i ↔ ∃ x, a[i]? = some x ∧ isPopular b x = false ∧ b[j]? = some x := by
  unfold row b2j
  cases ha : a[i]? with
  | none => simp
  | some x =>
    cases hx : isPopular b x with
    | true => simp [hx]
    | false =>
      have hlt : b[j]? = some x → j < b.length := fun hj => (List.getElem?_eq_some_iff.mp hj).1
      simp only [Option.map_some, Option.getD_some, hx, Bool.false_eq_true, if_false,
        List.mem_filter, List.mem_range, decide_eq_true_eq, Option.some.injEq, exists_eq_left',
        true_and]
      exact ⟨And.right, fun hj => ⟨hlt hj, hj⟩⟩

/-- A length is one more than that of the pair before. -/
theorem EndsAt.step {a b : List α} {alo blo i j : Nat} {j2len : Nat → Nat}
    (h : ∀ j, EndsAt a b alo blo i j (j2len j)) (hi : alo ≤ i) (hj : blo ≤ j)
    (hrow : j ∈ row a b i) :
    EndsAt a b alo blo (i + 1) j ((if j = 0 then 0 else j2len (j - 1)) + 1) := by
  obtain ⟨x, ha, -, hb⟩ := mem_row.mp hrow
  have hone : EndsAt a b alo blo (i + 1) j 1 :=
    .inr ⟨Nat.succ_le_succ hi, Nat.succ_le_succ hj,
      (common_zero a b i j).succ_right ha hb⟩
  split
  · exact hone
  · rename_i hne
    rcases h (j - 1) with hzero | ⟨halo, hblo, hcommon⟩
    · rw [hzero]
      exact hone
    · -- the pair goes behind the match that ended before it
      right
      refine ⟨by omega, by omega, ?_⟩
      have hj' : j - 1 + 1 = j := by omega
      rw [hj'] at hblo hcommon
      rw [Nat.add_sub_add_right, Nat.add_sub_add_right]
      refine hcommon.succ_right (x := x) ?_ ?_
      · rwa [Nat.sub_add_cancel (by omega)]
      · rwa [Nat.sub_add_cancel (by omega)]

/-- What holds after an element of `a`: the best match is one, and the lengths are right. -/
structure RowOk (a b : List α) (alo ahi blo bhi i : Nat) (best : Match) (j2len : Nat → Nat) :
    Prop where
  best : IsMatch a b alo ahi blo bhi best
  lengths : ∀ j, EndsAt a b alo blo i j (j2len j)

/-- The inner loop keeps the best match a match, and the lengths those of what ends there. -/
theorem scanRow_ok {a b : List α} {alo ahi blo bhi i : Nat} {j2len : Nat → Nat}
    (h : ∀ j, EndsAt a b alo blo i j (j2len j)) (hlo : alo ≤ i) (hhi : i < ahi) {js : List Nat}
    (hjs : ∀ j ∈ js, j ∈ row a b i) {best : Match} {newj2len : Nat → Nat}
    (ok : RowOk a b alo ahi blo bhi (i + 1) best newj2len) :
    RowOk a b alo ahi blo bhi (i + 1) (scanRow i blo bhi j2len js best newj2len).1
      (scanRow i blo bhi j2len js best newj2len).2 := by
  induction js generalizing best newj2len with
  | nil => exact ok
  | cons j js ih =>
    obtain ⟨hj, hjs⟩ := List.forall_mem_cons.mp hjs
    rw [scanRow]
    split
    · -- the place is in front of the window
      exact ih hjs ok
    · rename_i hblo
      split
      · -- the place is behind the window, and so are all that follow
        exact ok
      · rename_i hbhi
        -- the length of the match that ends here
        have hstep := EndsAt.step h hlo (Nat.not_lt.mp hblo) hj
        generalize (if j = 0 then 0 else j2len (j - 1)) + 1 = k at hstep
        refine ih hjs ⟨?_, fun j' => ?_⟩
        · -- it is the best match, if it is longer than that
          split
          · rename_i hk
            obtain ⟨halo, hblo', hcommon⟩ := hstep.resolve_left (by omega)
            exact ⟨by dsimp only; omega, by dsimp only; omega, by dsimp only; omega,
              by dsimp only; omega, hcommon⟩
          · exact ok.best
        · -- the lengths of the row, with this one
          rw [Function.update_apply]
          split
          · rename_i heq
            exact heq ▸ hstep
          · exact ok.lengths j'

/-- The outer loop finds a match. -/
theorem scanRows_isMatch {a b : List α} {alo ahi blo bhi n i : Nat} (hlo : alo ≤ i)
    (hhi : i + n ≤ ahi) {best : Match} {j2len : Nat → Nat}
    (ok : RowOk a b alo ahi blo bhi i best j2len) :
    IsMatch a b alo ahi blo bhi (scanRows a b blo bhi n i best j2len) := by
  induction n generalizing i best j2len with
  | zero => exact ok.best
  | succ n ih =>
    rw [scanRows]
    have hnew : RowOk a b alo ahi blo bhi (i + 1) best fun _ => 0 :=
      ⟨ok.best, fun _ => .inl rfl⟩
    exact ih (Nat.le_succ_of_le hlo) (by omega)
      (scanRow_ok ok.lengths hlo (by omega) (fun _ hj => hj) hnew)

/-- Extending a match to the left gives a match. -/
theorem extendLeft_isMatch {a b : List α} {alo ahi blo bhi i j size : Nat} (ha : ahi ≤ a.length)
    (h : IsMatch a b alo ahi blo bhi ⟨i, j, size⟩) :
    IsMatch a b alo ahi blo bhi (extendLeft a b alo blo i j size) := by
  induction i, j, size using extendLeft.induct a b alo blo with
  | case1 i j size hsame ih =>
    -- the elements in front of the match are the same
    rw [extendLeft, if_pos hsame]
    obtain ⟨hi, hj, heq⟩ := hsame
    have haHi := h.aHi
    have hbHi := h.bHi
    have hget := List.getElem?_eq_getElem (show i < a.length by dsimp only at haHi; omega)
    exact ih ⟨Nat.le_of_lt_succ hi, by dsimp only at haHi ⊢; omega, Nat.le_of_lt_succ hj,
      by dsimp only at hbHi ⊢; omega, h.common.succ_left hget (heq ▸ hget)⟩
  | case2 i j size hdiffer =>
    -- they differ
    rw [extendLeft, if_neg hdiffer]
    exact h
  | case3 i j size hend =>
    -- one of the windows begins here
    rw [extendLeft]
    · exact h
    · exact hend

/-- Extending a match to the right gives a match. -/
theorem extendRight_isMatch {a b : List α} {alo ahi blo bhi n : Nat} {m : Match}
    (ha : ahi ≤ a.length) (h : IsMatch a b alo ahi blo bhi m) :
    IsMatch a b alo ahi blo bhi (extendRight a b ahi bhi n m) := by
  induction n generalizing m with
  | zero => exact h
  | succ n ih =>
    rw [extendRight]
    split
    · rename_i hsame
      obtain ⟨hi, hj, heq⟩ := hsame
      have hget := List.getElem?_eq_getElem (show m.a + m.size < a.length by omega)
      exact ih ⟨h.aLo, hi, h.bLo, hj, h.common.succ_right hget (heq ▸ hget)⟩
    · exact h

/-- What is found is a common block inside of the window. -/
theorem findLongestMatch_spec {a b : List α} {alo ahi blo bhi : Nat} (halo : alo ≤ ahi)
    (hblo : blo ≤ bhi) (ha : ahi ≤ a.length) :
    IsMatch a b alo ahi blo bhi (findLongestMatch a b alo ahi blo bhi) := by
  have hstart : RowOk a b alo ahi blo bhi alo ⟨alo, blo, 0⟩ fun _ => 0 :=
    ⟨⟨Nat.le_refl _, halo, Nat.le_refl _, hblo, common_zero a b alo blo⟩, fun _ => .inl rfl⟩
  have hbest := scanRows_isMatch (n := ahi - alo) (Nat.le_refl _) (by omega) hstart
  exact extendRight_isMatch ha (extendLeft_isMatch ha hbest)

/-! ## The blocks of a window -/

/-- Blocks in their order, from `(i, j)` to `(ahi, bhi)`. -/
inductive Blocks (a b : List α) (ahi bhi : Nat) : Nat → Nat → List Match → Prop where
  | nil {i j : Nat} (hi : i ≤ ahi) (hj : j ≤ bhi) : Blocks a b ahi bhi i j []
  | cons {i j : Nat} {m : Match} {rest : List Match} (hi : i ≤ m.a) (hj : j ≤ m.b)
      (common : Common a b m.a m.b m.size)
      (h : Blocks a b ahi bhi (m.a + m.size) (m.b + m.size) rest) :
      Blocks a b ahi bhi i j (m :: rest)

omit [DecidableEq α] in
/-- Blocks of two windows, one behind the other. -/
theorem Blocks.append {a b : List α} {ahi bhi ahi' bhi' i j : Nat} {left right : List Match}
    (h : Blocks a b ahi bhi i j left) (h' : Blocks a b ahi' bhi' ahi bhi right) :
    Blocks a b ahi' bhi' i j (left ++ right) := by
  induction h with
  | nil hi hj =>
    cases h' with
    | nil hi' hj' => exact .nil (Nat.le_trans hi hi') (Nat.le_trans hj hj')
    | cons hi' hj' common h' => exact .cons (Nat.le_trans hi hi') (Nat.le_trans hj hj') common h'
  | cons hi hj common _ ih => exact .cons hi hj common ih

/-- The recursion over windows finds blocks in their order. -/
theorem blocks_blocksIn {a b : List α} {n alo ahi blo bhi : Nat} (halo : alo ≤ ahi)
    (hblo : blo ≤ bhi) (ha : ahi ≤ a.length) :
    Blocks a b ahi bhi alo blo (blocksIn a b n alo ahi blo bhi) := by
  induction n generalizing alo ahi blo bhi with
  | zero => exact .nil halo hblo
  | succ n ih =>
    rw [blocksIn]
    dsimp only
    have hm := findLongestMatch_spec (b := b) halo hblo ha
    generalize findLongestMatch a b alo ahi blo bhi = m at hm
    split
    · exact .nil halo hblo
    · have haHi := hm.aHi
      have hbHi := hm.bHi
      -- the window to the left of the block, and the one to its right
      have hleft : Blocks a b m.a m.b alo blo
          (if alo < m.a ∧ blo < m.b then blocksIn a b n alo m.a blo m.b else []) := by
        split
        · exact ih hm.aLo hm.bLo (by omega)
        · exact .nil hm.aLo hm.bLo
      have hright : Blocks a b ahi bhi (m.a + m.size) (m.b + m.size)
          (if m.a + m.size < ahi ∧ m.b + m.size < bhi then
            blocksIn a b n (m.a + m.size) ahi (m.b + m.size) bhi else []) := by
        split
        · exact ih haHi hbHi ha
        · exact .nil haHi hbHi
      exact hleft.append (.cons (Nat.le_refl _) (Nat.le_refl _) hm.common hright)

omit [DecidableEq α] in
/-- A block and one that goes on where it ends. -/
theorem Common.join {a b : List α} {m m' : Match} (h : Common a b m.a m.b m.size)
    (h' : Common a b m'.a m'.b m'.size) (ha : m.a + m.size = m'.a) (hb : m.b + m.size = m'.b) :
    Common a b m.a m.b (m.size + m'.size) := by
  intro t ht
  by_cases hlt : t < m.size
  · exact h t hlt
  · obtain ⟨x, hx⟩ := h' (t - m.size) (by omega)
    refine ⟨x, ?_⟩
    rwa [← ha, ← hb, Nat.add_assoc, Nat.add_assoc, Nat.add_sub_cancel' (Nat.not_lt.mp hlt)] at hx

omit [DecidableEq α] in
/-- Joining adjacent blocks keeps them in order. -/
theorem Blocks.joinAdjacent {a b : List α} {ahi bhi i j : Nat} {m : Match} {rest : List Match}
    (h : Blocks a b ahi bhi i j (m :: rest)) :
    Blocks a b ahi bhi i j (SequenceMatcher.joinAdjacent m rest) := by
  induction rest generalizing i j m with
  | nil =>
    rw [SequenceMatcher.joinAdjacent]
    split
    · -- a match without elements is left out
      rename_i hsize
      cases h with
      | cons hi hj _ h =>
        cases h with
        | nil hi' hj' =>
          rw [hsize, Nat.add_zero] at hi' hj'
          exact .nil (Nat.le_trans hi hi') (Nat.le_trans hj hj')
    · exact h
  | cons m' rest ih =>
    cases h with
    | cons hi hj common h =>
      -- the match and the one behind it
      cases h with
      | cons hi' hj' common' h =>
        rw [SequenceMatcher.joinAdjacent]
        split
        · -- they are adjacent, and become one
          rename_i hadjacent
          obtain ⟨ha, hb⟩ := hadjacent
          refine ih (.cons hi hj (common.join common' ha hb) ?_)
          dsimp only
          rwa [← Nat.add_assoc, ← Nat.add_assoc, ha, hb]
        · -- the first one is empty, or goes into the list
          split
          · rename_i hsize
            rw [hsize, Nat.add_zero] at hi' hj'
            exact ih (.cons (Nat.le_trans hi hi') (Nat.le_trans hj hj') common' h)
          · exact .cons hi hj common (ih (.cons hi' hj' common' h))

/-! ## The steps -/

/-- What a step is about: pieces of both sequences, which are the same if nothing is done. -/
inductive Step (a b : List α) : Opcode → Prop where
  | replace {i1 i2 j1 j2 : Nat} (hi : i1 < i2) (hj : j1 < j2) : Step a b ⟨.replace, i1, i2, j1, j2⟩
  | delete {i1 i2 j : Nat} (hi : i1 < i2) : Step a b ⟨.delete, i1, i2, j, j⟩
  | insert {i j1 j2 : Nat} (hj : j1 < j2) : Step a b ⟨.insert, i, i, j1, j2⟩
  | equal {i1 i2 j1 j2 : Nat} (hi : i1 < i2) (hj : j1 < j2) (heq : slice a i1 i2 = slice b j1 j2) :
      Step a b ⟨.equal, i1, i2, j1, j2⟩

/-- Steps from `(i, j)` to `(i', j')`, each from where the one before it ends. -/
inductive Tiles (a b : List α) (i' j' : Nat) : Nat → Nat → List Opcode → Prop where
  | nil : Tiles a b i' j' i' j' []
  | cons {o : Opcode} {rest : List Opcode} (step : Step a b o)
      (h : Tiles a b i' j' o.i2 o.j2 rest) : Tiles a b i' j' o.i1 o.j1 (o :: rest)

omit [DecidableEq α] in
/-- The gap before a block is one step, or none. -/
theorem tiles_gap {a b : List α} {i ai j bj i' j' : Nat} {rest : List Opcode} (hi : i ≤ ai)
    (hj : j ≤ bj) (h : Tiles a b i' j' ai bj rest) :
    Tiles a b i' j' i j (gap i ai j bj ++ rest) := by
  unfold gap
  split
  · -- both sequences have elements here
    rename_i hlt
    exact .cons (.replace hlt.1 hlt.2) h
  · rename_i hnot
    split
    · -- only the first one has
      rename_i hlt
      obtain rfl : j = bj := by omega
      exact .cons (.delete hlt) h
    · rename_i hge
      obtain rfl : i = ai := by omega
      split
      · -- only the second one has
        rename_i hlt
        exact .cons (.insert hlt) h
      · -- neither has: the blocks are adjacent
        obtain rfl : j = bj := by omega
        exact h

omit [DecidableEq α] in
/-- A common block is the same slice of both. -/
theorem Common.slice_eq {a b : List α} {i j size : Nat} (h : Common a b i j size) :
    slice a i (i + size) = slice b j (j + size) := by
  refine List.ext_getElem? fun t => ?_
  rw [slice, slice, List.getElem?_drop, List.getElem?_drop]
  by_cases ht : t < size
  · obtain ⟨x, ha, hb⟩ := h t ht
    rw [List.getElem?_take_of_lt (by omega), List.getElem?_take_of_lt (by omega), ha, hb]
  · rw [List.getElem?_take_eq_none (by omega), List.getElem?_take_eq_none (by omega)]

omit [DecidableEq α] in
/-- The steps between blocks that end with a sentinel. -/
theorem tiles_opcodesFrom {a b : List α} {ahi bhi i j : Nat} {blocks : List Match}
    (h : Blocks a b ahi bhi i j blocks) :
    Tiles a b ahi bhi i j (opcodesFrom i j (blocks ++ [⟨ahi, bhi, 0⟩])) := by
  induction h with
  | nil hi hj =>
    rw [List.nil_append, opcodesFrom, List.append_assoc]
    exact tiles_gap hi hj .nil
  | @cons i j m rest hi hj common _ ih =>
    rw [List.cons_append, opcodesFrom, List.append_assoc]
    refine tiles_gap hi hj ?_
    split
    · rename_i hsize
      rw [hsize, Nat.add_zero, Nat.add_zero] at ih
      rwa [hsize, Nat.add_zero, Nat.add_zero]
    · exact .cons (.equal (by omega) (by omega) common.slice_eq) ih

/-- The steps go through both sequences. -/
theorem tiles_getOpcodes (a b : List α) :
    Tiles a b a.length b.length 0 0 (getOpcodes a b) := by
  have hblocks := blocks_blocksIn (a := a) (b := b) (n := a.length) (Nat.zero_le a.length)
    (Nat.zero_le b.length) (Nat.le_refl _)
  have hfirst : Blocks a b a.length b.length 0 0
      (⟨0, 0, 0⟩ :: blocksIn a b a.length 0 a.length 0 b.length) :=
    .cons (Nat.le_refl _) (Nat.le_refl _) (common_zero a b 0 0) hblocks
  exact tiles_opcodesFrom hfirst.joinAdjacent

/-- A slice and what comes behind it. -/
theorem slice_append_drop {β : Type} {xs : List β} {i j : Nat} (h : i ≤ j) :
    slice xs i j ++ xs.drop j = xs.drop i := by
  rw [slice, List.drop_take, ← Nat.add_sub_cancel' h, ← List.drop_drop, Nat.add_sub_cancel_left,
    List.take_append_drop]

omit [DecidableEq α] in
/-- A step goes forward. -/
theorem Step.le {a b : List α} {o : Opcode} (h : Step a b o) : o.i1 ≤ o.i2 ∧ o.j1 ≤ o.j2 := by
  cases h with
  | replace hi hj => exact ⟨Nat.le_of_lt hi, Nat.le_of_lt hj⟩
  | delete hi => exact ⟨Nat.le_of_lt hi, Nat.le_refl _⟩
  | insert hj => exact ⟨Nat.le_refl _, Nat.le_of_lt hj⟩
  | equal hi hj => exact ⟨Nat.le_of_lt hi, Nat.le_of_lt hj⟩

omit [DecidableEq α] in
/-- What steps tile is made of steps. -/
theorem Tiles.step {a b : List α} {i j i' j' : Nat} {opcodes : List Opcode}
    (h : Tiles a b i' j' i j opcodes) {o : Opcode} (ho : o ∈ opcodes) : Step a b o := by
  induction h with
  | nil => exact absurd ho List.not_mem_nil
  | cons step _ ih =>
    rcases List.mem_cons.mp ho with rfl | ho
    · exact step
    · exact ih ho

omit [DecidableEq α] in
/-- The pieces on the first side, of any sequence, and what is left of it. -/
theorem Tiles.flatMap_first {β : Type} {a b : List α} {i j i' j' : Nat} {opcodes : List Opcode}
    (h : Tiles a b i' j' i j opcodes) (xs : List β) :
    (opcodes.flatMap fun o => slice xs o.i1 o.i2) ++ xs.drop i' = xs.drop i := by
  induction h with
  | nil => rfl
  | cons step _ ih => rw [List.flatMap_cons, List.append_assoc, ih, slice_append_drop step.le.1]

omit [DecidableEq α] in
/-- The pieces on the second side, of any sequence, and what is left of it. -/
theorem Tiles.flatMap_second {β : Type} {a b : List α} {i j i' j' : Nat} {opcodes : List Opcode}
    (h : Tiles a b i' j' i j opcodes) (xs : List β) :
    (opcodes.flatMap fun o => slice xs o.j1 o.j2) ++ xs.drop j' = xs.drop j := by
  induction h with
  | nil => rfl
  | cons step _ ih => rw [List.flatMap_cons, List.append_assoc, ih, slice_append_drop step.le.2]

omit [DecidableEq α] in
/-- If there are only equal pieces, the sequences are the same. -/
theorem Tiles.eq_of_equal {a b : List α} {i j i' j' : Nat} {opcodes : List Opcode}
    (h : Tiles a b i' j' i j opcodes) (hequal : ∀ o ∈ opcodes, o.tag = .equal) :
    (opcodes.flatMap fun o => slice a o.i1 o.i2) = opcodes.flatMap fun o => slice b o.j1 o.j2 := by
  induction h with
  | nil => rfl
  | cons step _ ih =>
    obtain ⟨htag, hequal⟩ := List.forall_mem_cons.mp hequal
    rw [List.flatMap_cons, List.flatMap_cons, ih hequal]
    cases step with
    | equal _ _ heq => rw [heq]
    | replace | delete | insert => simp at htag

/-- The pieces on the first side are any sequence that is as long as the first one. -/
theorem flatMap_first {β : Type} (a b : List α) {xs : List β} (h : xs.length = a.length) :
    ((getOpcodes a b).flatMap fun o => slice xs o.i1 o.i2) = xs := by
  have hpieces := (tiles_getOpcodes a b).flatMap_first xs
  rwa [← h, List.drop_length, List.append_nil] at hpieces

/-- The pieces on the second side are any sequence that is as long as the second one. -/
theorem flatMap_second {β : Type} (a b : List α) {xs : List β} (h : xs.length = b.length) :
    ((getOpcodes a b).flatMap fun o => slice xs o.j1 o.j2) = xs := by
  have hpieces := (tiles_getOpcodes a b).flatMap_second xs
  rwa [← h, List.drop_length, List.append_nil] at hpieces

/-! ## Equal sequences -/

/-- The length that is computed for `a[i]` and `b[j]` when the whole sequences are compared. -/
def run (a b : List α) : Nat → Nat → Nat
  | 0, j => if j ∈ row a b 0 then 1 else 0
  | i + 1, 0 => if 0 ∈ row a b (i + 1) then 1 else 0
  | i + 1, j + 1 => if j + 1 ∈ row a b (i + 1) then run a b i j + 1 else 0

/-- In a sequence that is compared with itself, an element is among its places, and so is any
    other that is the same. -/
theorem mem_row_self {a : List α} {i j : Nat} (h : j ∈ row a a i) :
    i ∈ row a a i ∧ j ∈ row a a j := by
  obtain ⟨x, hi, hx, hj⟩ := mem_row.mp h
  exact ⟨mem_row.mpr ⟨x, hi, hx, hi⟩, mem_row.mpr ⟨x, hj, hx, hj⟩⟩

/-- No run ends at a pair whose elements differ or are popular. -/
theorem run_eq_zero {a b : List α} {i j : Nat} (h : j ∉ row a b i) : run a b i j = 0 := by
  cases i with
  | zero => exact if_neg h
  | succ i =>
    cases j with
    | zero => exact if_neg h
    | succ j => exact if_neg h

/-- The lengths on the diagonal are the greatest in their row and in their column. -/
theorem run_le_diagonal (a : List α) (i j : Nat) :
    run a a i j ≤ run a a i i ∧ run a a i j ≤ run a a j j := by
  -- an element that is in some row is in its own row, so it starts a match of at least one
  have hfirst : ∀ {i j k : Nat}, j ∈ row a a i → k = i ∨ k = j → 1 ≤ run a a k k := by
    intro i j k h hk
    have hmem : k ∈ row a a k := by
      rcases hk with rfl | rfl
      · exact (mem_row_self h).1
      · exact (mem_row_self h).2
    cases k with
    | zero => exact Nat.le_of_eq (if_pos hmem).symm
    | succ k =>
      rw [run, if_pos hmem]
      exact Nat.succ_le_succ (Nat.zero_le _)
  induction i generalizing j with
  | zero =>
    -- in the first row a match has length one at most
    by_cases h : j ∈ row a a 0
    · rw [run, if_pos h]
      exact ⟨hfirst h (.inl rfl), hfirst h (.inr rfl)⟩
    · rw [run_eq_zero h]
      exact ⟨Nat.zero_le _, Nat.zero_le _⟩
  | succ i ih =>
    -- a match that goes on is longer by one, and so is that on the diagonal
    by_cases h : j ∈ row a a (i + 1)
    · cases j with
      | zero =>
        rw [show run a a (i + 1) 0 = 1 from if_pos h]
        exact ⟨hfirst h (.inl rfl), hfirst h (.inr rfl)⟩
      | succ j =>
        obtain ⟨hi, hj⟩ := mem_row_self h
        rw [run, if_pos h, run, if_pos hi, run, if_pos hj]
        exact ⟨Nat.succ_le_succ (ih j).1, Nat.succ_le_succ (ih j).2⟩
    · -- nothing matches here
      rw [run_eq_zero h]
      exact ⟨Nat.zero_le _, Nat.zero_le _⟩

/-- The length before `(i, j)`, as the loop looks it up. -/
theorem run_of_mem {a b : List α} {i j : Nat} {j2len : Nat → Nat}
    (h : ∀ j, j2len j = if i = 0 then 0 else run a b (i - 1) j) (hj : j ∈ row a b i) :
    (if j = 0 then 0 else j2len (j - 1)) + 1 = run a b i j := by
  cases i with
  | zero =>
    rw [run, if_pos hj, h]
    simp
  | succ i =>
    cases j with
    | zero => exact (if_pos hj).symm
    | succ j =>
      rw [run, if_pos hj, if_neg (Nat.succ_ne_zero j), h, if_neg (Nat.succ_ne_zero i)]
      rfl

/-- The places are in ascending order. -/
theorem row_sorted (a b : List α) (i : Nat) : (row a b i).Pairwise (· < ·) := by
  unfold row
  cases a[i]? with
  | none => exact List.Pairwise.nil
  | some x =>
    dsimp only [Option.map_some, Option.getD_some]
    unfold b2j
    split
    · exact List.Pairwise.nil
    · exact List.Pairwise.filter _ List.pairwise_lt_range

/-- A match on the diagonal that is at least as long as those that end before `i`. -/
structure Diagonal (a : List α) (i : Nat) (best : Match) : Prop where
  same : best.a = best.b
  longest : ∀ j < i, run a a j j ≤ best.size

/-- The lengths after a row. -/
theorem scanRow_lengths {a b : List α} {i : Nat} {j2len : Nat → Nat}
    (h : ∀ j, j2len j = if i = 0 then 0 else run a b (i - 1) j) {js : List Nat}
    (hjs : ∀ j ∈ js, j ∈ row a b i) (best : Match) {newj2len : Nat → Nat} (j : Nat) :
    (scanRow i 0 b.length j2len js best newj2len).2 j =
      if j ∈ js then run a b i j else newj2len j := by
  induction js generalizing best newj2len with
  | nil => rfl
  | cons j' js ih =>
    obtain ⟨hj', hjs⟩ := List.forall_mem_cons.mp hjs
    obtain ⟨x, -, -, hx⟩ := mem_row.mp hj'
    -- a place in `b` is inside of the window
    have hlt := (List.getElem?_eq_some_iff.mp hx).1
    rw [scanRow, if_neg (Nat.not_lt_zero j'), if_neg (Nat.not_le.mpr hlt)]
    dsimp only
    -- the lengths are those of the rest, with that of this place
    rw [ih hjs, run_of_mem h hj', Function.update_apply]
    by_cases hmem : j ∈ js
    · -- the place is looked at again further on
      rw [if_pos hmem, if_pos (List.mem_cons_of_mem _ hmem)]
    · by_cases heq : j = j'
      · -- it is this one
        subst heq
        rw [if_neg hmem, if_pos rfl, if_pos List.mem_cons_self]
      · -- it is not looked at at all
        rw [if_neg hmem, if_neg heq, if_neg (by simp [hmem, heq])]

/-- In a row only the place on the diagonal can bring a longer match: those before it belong to
    rows that are done, and those behind it are no longer than the one on the diagonal. -/
theorem scanRow_diagonal {a : List α} {i : Nat} {j2len : Nat → Nat}
    (h : ∀ j, j2len j = if i = 0 then 0 else run a a (i - 1) j) {js : List Nat}
    (hjs : ∀ j ∈ js, j ∈ row a a i) (hsorted : js.Pairwise (· < ·)) {best : Match}
    {newj2len : Nat → Nat} (diagonal : Diagonal a i best)
    (hseen : run a a i i ≤ best.size ∨ i ∈ js) :
    Diagonal a (i + 1) (scanRow i 0 a.length j2len js best newj2len).1 := by
  induction js generalizing best newj2len with
  | nil =>
    have hi := hseen.resolve_right List.not_mem_nil
    refine ⟨diagonal.same, fun j hj => ?_⟩
    rcases Nat.lt_or_eq_of_le (Nat.le_of_lt_succ hj) with hlt | rfl
    · exact diagonal.longest j hlt
    · exact hi
  | cons j js ih =>
    obtain ⟨hj, hjs⟩ := List.forall_mem_cons.mp hjs
    obtain ⟨hfirst, hsorted⟩ := List.pairwise_cons.mp hsorted
    obtain ⟨x, -, -, hx⟩ := mem_row.mp hj
    have hlt := (List.getElem?_eq_some_iff.mp hx).1
    rw [scanRow, if_neg (Nat.not_lt_zero j), if_neg (Nat.not_le.mpr hlt)]
    dsimp only
    rw [run_of_mem h hj]
    rcases Nat.lt_trichotomy j i with hji | rfl | hij
    · -- the match on the diagonal that ends here has been seen
      rw [if_neg (Nat.not_lt.mpr (Nat.le_trans (run_le_diagonal a i j).2 (diagonal.longest j hji)))]
      refine ih hjs hsorted diagonal (hseen.imp_right fun hmem => ?_)
      exact (List.mem_cons.mp hmem).resolve_left (Nat.ne_of_gt hji)
    · split
      · rename_i hlonger
        refine ih hjs hsorted ⟨rfl, fun j' hj' => ?_⟩ (.inl (Nat.le_refl _))
        exact Nat.le_trans (diagonal.longest j' hj') (Nat.le_of_lt hlonger)
      · rename_i hnot
        exact ih hjs hsorted diagonal (.inl (Nat.not_lt.mp hnot))
    · have hi : run a a i i ≤ best.size := by
        refine hseen.resolve_right fun hmem => ?_
        rcases List.mem_cons.mp hmem with rfl | hmem
        · exact Nat.lt_irrefl _ hij
        · exact Nat.lt_asymm hij (hfirst i hmem)
      rw [if_neg (Nat.not_lt.mpr (Nat.le_trans (run_le_diagonal a i j).1 hi))]
      exact ih hjs hsorted diagonal (.inl hi)

/-- The best match of a sequence with itself is on the diagonal. -/
theorem scanRows_diagonal {a : List α} {n i : Nat} {best : Match} {j2len : Nat → Nat}
    (h : ∀ j, j2len j = if i = 0 then 0 else run a a (i - 1) j) (diagonal : Diagonal a i best) :
    (scanRows a a 0 a.length n i best j2len).a = (scanRows a a 0 a.length n i best j2len).b := by
  induction n generalizing i best j2len with
  | zero => exact diagonal.same
  | succ n ih =>
    rw [scanRows]
    refine ih (fun j => ?_) (scanRow_diagonal h (fun _ hj => hj) (row_sorted a a i) diagonal ?_)
    · rw [scanRow_lengths h (fun _ hj => hj), if_neg (Nat.succ_ne_zero i), Nat.add_sub_cancel]
      split
      · rfl
      · rename_i hmem
        exact (run_eq_zero hmem).symm
    · by_cases hmem : i ∈ row a a i
      · exact .inr hmem
      · exact .inl (Nat.le_trans (Nat.le_of_eq (run_eq_zero hmem)) (Nat.zero_le _))

/-- The match of a sequence with itself grows to the start. -/
theorem extendLeft_diagonal (a : List α) (i size : Nat) :
    extendLeft a a 0 0 i i size = ⟨0, 0, i + size⟩ := by
  induction i generalizing size with
  | zero =>
    rw [extendLeft, Nat.zero_add]
    simp
  | succ i ih =>
    rw [extendLeft, if_pos ⟨Nat.succ_pos i, Nat.succ_pos i, rfl⟩, ih]
    congr 1
    omega

/-- It grows to the end. -/
theorem extendRight_diagonal {a : List α} {n size : Nat} (h : size + n = a.length) :
    extendRight a a a.length a.length n ⟨0, 0, size⟩ = ⟨0, 0, a.length⟩ := by
  induction n generalizing size with
  | zero =>
    rw [Nat.add_zero] at h
    rw [h]
    rfl
  | succ n ih =>
    have hlt : 0 + size < a.length := by omega
    rw [extendRight]
    dsimp only
    rw [if_pos ⟨hlt, hlt, rfl⟩]
    exact ih (by omega)

/-- A sequence and itself have all in common. -/
theorem findLongestMatch_self (a : List α) :
    findLongestMatch a a 0 a.length 0 a.length = ⟨0, 0, a.length⟩ := by
  -- the rows from the start keep the best match on the diagonal
  have hstart : Diagonal a 0 ⟨0, 0, 0⟩ := ⟨rfl, fun _ h => absurd h (Nat.not_lt_zero _)⟩
  have hlengths : ∀ j : Nat, (fun _ => 0) j = if 0 = 0 then 0 else run a a (0 - 1) j :=
    fun _ => rfl
  have hsame := scanRows_diagonal (n := a.length) hlengths hstart
  have hok : RowOk a a 0 a.length 0 a.length 0 ⟨0, 0, 0⟩ fun _ => 0 :=
    ⟨⟨Nat.le_refl _, Nat.zero_le _, Nat.le_refl _, Nat.zero_le _, common_zero a a 0 0⟩,
      fun _ => .inl rfl⟩
  -- the best match is one
  have hbest := scanRows_isMatch (n := a.length) (Nat.le_refl _) (Nat.le_of_eq (Nat.zero_add _)) hok
  unfold findLongestMatch
  dsimp only
  rw [Nat.sub_zero]
  generalize scanRows a a 0 a.length a.length 0 ⟨0, 0, 0⟩ (fun _ => 0) = best at hsame hbest
  have hle := hbest.aHi
  -- being on the diagonal, it is extended to the start and to the end
  rw [← hsame, extendLeft_diagonal]
  dsimp only
  exact extendRight_diagonal (by omega)

/-- Equal sequences need no steps. -/
theorem getOpcodes_self (a : List α) :
    ∀ o ∈ getOpcodes a a, o.tag = .equal := by
  -- the only block is the whole list
  have hblocks : blocksIn a a a.length 0 a.length 0 a.length =
      if a.length = 0 then [] else [⟨0, 0, a.length⟩] := by
    cases hlength : a.length with
    | zero => rfl
    | succ n =>
      rw [blocksIn, ← hlength, findLongestMatch_self]
      simp
  unfold getOpcodes getMatchingBlocks
  rw [hblocks]
  split
  · -- an empty list has no steps
    rename_i hnil
    simp [joinAdjacent, opcodesFrom, gap, hnil]
  · -- everything is equal
    rename_i hne
    simp [joinAdjacent, opcodesFrom, gap, hne]

/-- There is nothing to do if the sequences are equal, and only then. -/
theorem forall_equal_iff {a b : List α} : (∀ o ∈ getOpcodes a b, o.tag = .equal) ↔ a = b := by
  constructor
  · intro h
    rw [← flatMap_first a b rfl, (tiles_getOpcodes a b).eq_of_equal h, flatMap_second a b rfl]
  · rintro rfl
    exact getOpcodes_self a

end SequenceMatcher

end Python
