import Mathlib.Data.Prod.Lex
import R4.Native.FuzzyUrl

/-!
# The score of a URL

The score of a URL packs two counts into one integer: the path fragments that match, and below
them the query values that match. A path fragment weighs one more than there are query items,
so scores compare as the pairs of counts do.

## Key results

- `score_ne_mismatch_iff`: the URLs that match
- `score_eq_ofNat`: the score in terms of the two counts
- `scores_order_lexicographically`: scores compare as the counts
-/

namespace R4.FuzzyUrlMatcher

open StdString QUrlMethods

variable {U : Type} [QUrlMethods U]

/-- The URLs differ in their path fragments and query values at most. -/
structure SameShape (url other : U) : Prop where
  sameHost : host url = host other
  samePath : (pathFragments url).length = (pathFragments other).length
  sameHasQuery : hasQuery url = hasQuery other
  sameNumber : (queryItems url).length = (queryItems other).length
  sameHasFragment : hasFragment url = hasFragment other
  keys : ∀ item ∈ queryItems url, hasQueryItem other item.1 = true

/-- The path fragments that are equal to those in the same place. -/
def matchingFragments (fragments others : List StdString) : Nat :=
  (fragments.zip others).countP fun p => p.1 = p.2

/-- The query items whose value is that of the other URL. -/
def matchingValues (other : U) (items : List (StdString × StdString)) : Nat :=
  items.countP fun item => item.2 = queryItemValue other item.1

/-- No more fragments match than there are. -/
theorem matchingFragments_le (fragments others : List StdString) :
    matchingFragments fragments others ≤ fragments.length := by
  have hcount := List.countP_le_length (p := fun p : StdString × StdString => p.1 = p.2)
    (l := fragments.zip others)
  rw [List.length_zip] at hcount
  exact Nat.le_trans hcount (Nat.min_le_left _ _)

/-- No more values match than there are items. -/
theorem matchingValues_le (other : U) (items : List (StdString × StdString)) :
    matchingValues other items ≤ items.length := List.countP_le_length

/-! ## The loops -/

/-- A query has a score if the other one has all its keys. -/
theorem scoreQuery_isSome_iff {other : U} {items : List (StdString × StdString)}
    {score : UInt32} : (scoreQuery other items score).isSome ↔
      ∀ item ∈ items, hasQueryItem other item.1 = true := by
  induction items generalizing score with
  | nil => simp [scoreQuery]
  | cons item items ih =>
    by_cases hkey : hasQueryItem other item.1 = true
    · simp [scoreQuery, hkey, ih]
    · simp [scoreQuery, hkey]

/-- A matching query value scores 1. -/
theorem scoreQuery_eq {other : U} {items : List (StdString × StdString)}
    (h : ∀ item ∈ items, hasQueryItem other item.1 = true) (n : Nat) :
    scoreQuery other items (UInt32.ofNat n) =
      some (UInt32.ofNat (n + matchingValues other items)) := by
  induction items generalizing n with
  | nil => rfl
  | cons item items ih =>
    have hrest := ih fun item hitem => h item (List.mem_cons_of_mem _ hitem)
    rw [scoreQuery, if_pos (h item List.mem_cons_self), matchingValues, List.countP_cons]
    by_cases hvalue : item.2 = queryItemValue other item.1
    · have hadd : UInt32.ofNat n + 1 = UInt32.ofNat (n + 1) := (UInt32.ofNat_add n 1).symm
      rw [if_pos hvalue, if_pos (by simpa using hvalue), hadd, hrest, matchingValues,
        Nat.add_assoc, Nat.add_comm 1]
    · rw [if_neg hvalue, if_neg (by simpa using hvalue), hrest, matchingValues, Nat.add_zero]

/-- A matching path fragment scores `scorePath`. -/
theorem scoreFragments_eq (scorePath n : Nat) (fragments others : List StdString) :
    scoreFragments (UInt32.ofNat scorePath) fragments others (UInt32.ofNat n) =
      UInt32.ofNat (n + scorePath * matchingFragments fragments others) := by
  induction fragments generalizing others n with
  | nil => simp [scoreFragments, matchingFragments]
  | cons fragment fragments ih =>
    cases others with
    | nil => simp [scoreFragments, matchingFragments]
    | cons other others =>
      rw [scoreFragments, matchingFragments, List.zip_cons_cons, List.countP_cons]
      by_cases hfragment : fragment = other
      · rw [if_pos hfragment, if_pos (by simpa using hfragment), ← UInt32.ofNat_add, ih,
          matchingFragments, Nat.mul_succ, Nat.add_assoc n, Nat.add_comm scorePath]
      · rw [if_neg hfragment, if_neg (by simpa using hfragment), ih, matchingFragments,
          Nat.add_zero]

/-! ## The score -/

/-- A URL that is rejected has no score. -/
theorem sameShape_of_score {url other : U} (hne : ¬equals url other = true)
    (h : score url other ≠ mismatch) : SameShape url other := by
  unfold score at h
  rw [if_neg hne] at h
  -- none of the rejections applies
  repeat' split at h
  all_goals try exact absurd rfl h
  rename_i hhost hpath hquery hitems hfragment _ score hscore
  refine ⟨not_not.mp hhost, not_not.mp hpath, not_not.mp hquery, not_not.mp hitems,
    not_not.mp hfragment, ?_⟩
  exact scoreQuery_isSome_iff.mp (by rw [hscore]; rfl)

/-- The score of a URL that is not rejected, in an `unsigned int`. -/
theorem score_eq_ofNat {url other : U} (hne : ¬equals url other = true)
    (shape : SameShape url other) : score url other =
      UInt32.ofNat (1 + matchingValues other (queryItems url) + ((queryItems url).length + 1) *
        matchingFragments (pathFragments url) (pathFragments other)) := by
  obtain ⟨hhost, hpath, hquery, hitems, hfragment, hkeys⟩ := shape
  have hscored : scoreQuery other (queryItems url) 1 =
      some (UInt32.ofNat (1 + matchingValues other (queryItems url))) := scoreQuery_eq hkeys 1
  have hweight : UInt32.ofNat (queryItems url).length + 1 =
      UInt32.ofNat ((queryItems url).length + 1) := (UInt32.ofNat_add _ 1).symm
  rw [score, if_neg hne, if_neg (not_not.mpr hhost), if_neg (not_not.mpr hpath),
    if_neg (not_not.mpr hquery), if_neg (not_not.mpr hitems), if_neg (not_not.mpr hfragment),
    hscored]
  dsimp only
  rw [hweight, scoreFragments_eq]

/-- The score of a URL that is not rejected, as long as it is no larger than an
    `unsigned int`. -/
theorem score_toNat {url other : U} (hne : ¬equals url other = true) (shape : SameShape url other)
    (hsize : ((queryItems url).length + 1) * ((pathFragments url).length + 1) < 2 ^ 32) :
    (score url other).toNat = 1 + matchingValues other (queryItems url) +
      ((queryItems url).length + 1) *
        matchingFragments (pathFragments url) (pathFragments other) := by
  have hvalues := matchingValues_le other (queryItems url)
  have hfragments := Nat.mul_le_mul_left ((queryItems url).length + 1)
    (matchingFragments_le (pathFragments url) (pathFragments other))
  rw [Nat.mul_add, Nat.mul_one] at hsize
  rw [score_eq_ofNat hne shape, UInt32.toNat_ofNat', Nat.mod_eq_of_lt (by omega)]

/-- The URLs that match, as long as the score is no larger than an `unsigned int`. -/
theorem score_ne_mismatch_iff {url other : U}
    (hsize : ((queryItems url).length + 1) * ((pathFragments url).length + 1) < 2 ^ 32) :
    score url other ≠ mismatch ↔ equals url other = true ∨ SameShape url other := by
  by_cases heq : equals url other = true
  · simp [score, heq, fullMatch, mismatch]
  · constructor
    · exact fun h => Or.inr (sameShape_of_score heq h)
    · rintro (h | shape) hzero
      · exact absurd h heq
      · have hscore := score_toNat heq shape hsize
        rw [hzero, show mismatch.toNat = 0 from rfl] at hscore
        omega

/-! ## The order of the scores -/

/-- A digit and what is above it compare as a pair. -/
theorem add_mul_lt_iff_lex {weight m n m' n' : Nat} (hn : n < weight) (hn' : n' < weight) :
    n + weight * m < n' + weight * m' ↔ toLex (m, n) < toLex (m', n') := by
  rw [Prod.Lex.toLex_lt_toLex]
  have hmul : ∀ {a b : Nat}, a < b → weight * a + weight ≤ weight * b := fun h =>
    Nat.mul_succ .. ▸ Nat.mul_le_mul_left weight h
  rcases Nat.lt_trichotomy m m' with hlt | rfl | hgt
  · have := hmul hlt
    exact iff_of_true (by omega) (Or.inl hlt)
  · simp
  · have := hmul hgt
    refine iff_of_false (by omega) ?_
    rintro (hlt | ⟨rfl, -⟩)
    · exact absurd hlt (Nat.lt_asymm hgt)
    · exact absurd hgt (Nat.lt_irrefl _)

/-- A candidate that is neither an exact match nor a mismatch. -/
def Candidate (url other : U) : Prop := ¬equals url other = true ∧ score url other ≠ mismatch

instance (url other : U) : Decidable (Candidate url other) :=
  inferInstanceAs (Decidable (_ ∧ _))

/-- The matching path fragments first, then the matching query values. -/
def matchCounts (url other : U) : Nat ×ₗ Nat :=
  toLex (matchingFragments (pathFragments url) (pathFragments other),
    matchingValues other (queryItems url))

/-- Scores order the candidates by the number of matching path fragments and then by the number
    of matching query values, and they lie strictly between `MISMATCH` and `MATCH`. -/
theorem scores_order_lexicographically (url : U)
    (hsize : ((queryItems url).length + 1) * ((pathFragments url).length + 1) < 2 ^ 32 - 1) :
    (∀ other, Candidate url other →
      mismatch < score url other ∧ score url other < fullMatch) ∧
    ∀ other other', Candidate url other → Candidate url other' →
      (score url other < score url other' ↔ matchCounts url other < matchCounts url other') := by
  -- the score is one number in base one more than the number of items
  have hscore : ∀ other, Candidate url other → (score url other).toNat =
      1 + (matchingValues other (queryItems url) + ((queryItems url).length + 1) *
        matchingFragments (pathFragments url) (pathFragments other)) := by
    intro other h
    rw [score_toNat h.1 (sameShape_of_score h.1 h.2) (by omega), Nat.add_assoc]
  have hvalues := fun other : U => matchingValues_le other (queryItems url)
  refine ⟨fun other h => ?_, fun other other' h h' => ?_⟩
  · -- both parts are small enough
    have hfragments := Nat.mul_le_mul_left ((queryItems url).length + 1)
      (matchingFragments_le (pathFragments url) (pathFragments other))
    have := hvalues other
    rw [Nat.mul_add, Nat.mul_one] at hsize
    constructor
    · rw [UInt32.lt_iff_toNat_lt, hscore other h, show mismatch.toNat = 0 from rfl]
      omega
    · rw [UInt32.lt_iff_toNat_lt, hscore other h, show fullMatch.toNat = 2 ^ 32 - 1 from rfl]
      omega
  · -- such numbers are ordered as their digits
    rw [UInt32.lt_iff_toNat_lt, hscore other h, hscore other' h', Nat.add_lt_add_iff_left]
    exact add_mul_lt_iff_lex (Nat.lt_succ_of_le (hvalues other))
      (Nat.lt_succ_of_le (hvalues other'))

/-- A query item: its key as it stands in the URL, and its key and value, decoded. -/
structure ParsedItem where
  encodedKey : StdString
  key : StdString
  value : StdString
deriving DecidableEq

/-- A URL, as Qt 4 parses it. -/
structure ParsedUrl where
  host : StdString
  path : StdString
  query : Option (List ParsedItem)
  fragment : Option StdString
deriving DecidableEq

/-- The items of the query, none if there is no query. -/
def ParsedUrl.items (url : ParsedUrl) : List ParsedItem := url.query.getD []

/-- Qt 4 looks for the encoded key, which is the key itself where it is made of letters. -/
instance : QUrlMethods ParsedUrl where
  equals url other := url = other
  host := ParsedUrl.host
  path := ParsedUrl.path
  hasQuery url := url.query.isSome
  queryItems url := url.items.map fun item => (item.key, item.value)
  hasFragment url := url.fragment.isSome
  hasQueryItem url key := url.items.any fun item => item.encodedKey = key
  queryItemValue url key :=
    ((url.items.find? fun item => item.encodedKey = key).map ParsedItem.value).getD []

/-- `http://a/f?k=v`. -/
def pageOfHost (fragment value : String) : ParsedUrl where
  host := "a".toList
  path := '/' :: fragment.toList
  query := some [⟨"k".toList, "k".toList, value.toList⟩]
  fragment := none

/-- A matching query value does not make up for a path fragment that differs. -/
theorem scores_order_lexicographically_of_page :
    score (pageOfHost "x" "1") (pageOfHost "y" "1") <
      score (pageOfHost "x" "1") (pageOfHost "x" "2") := by
  have hsize : ((queryItems (pageOfHost "x" "1")).length + 1) *
      ((pathFragments (pageOfHost "x" "1")).length + 1) < 2 ^ 32 - 1 := by decide
  refine ((scores_order_lexicographically (pageOfHost "x" "1") hsize).2 _ _ ?_ ?_).mpr ?_
  · decide
  · decide
  · decide

end R4.FuzzyUrlMatcher
