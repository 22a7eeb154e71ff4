import R4.Spec.UrlScore

/-!
# The query keys of URLs that match

URLs should match if they have the same query keys. The matcher compares the number of query items
and looks for each key of one URL in the other. With a key that is repeated this is less: all keys
of `?a=1&a=2` are found in `?a=1&b=2`, but not the other way round. Nor need a lookup find a key
that is encoded in another way.

## Key results

- `score_eq_mismatch_iff`: the URLs that do not match, whatever their sizes
- `matchesByKeys_iff`: when a match means the same keys, and is symmetric
- `matchesByKeys_iff_of_findsKeys`: the same where lookups find exactly the decoded keys
-/

namespace R4.FuzzyUrlMatcher

open QUrlMethods

variable {U : Type} [QUrlMethods U]

/-- The URLs are not rejected before their query keys are looked at. -/
structure SameOutline (url other : U) : Prop where
  sameHost : host url = host other
  samePath : (pathFragments url).length = (pathFragments other).length
  sameHasQuery : hasQuery url = hasQuery other
  sameNumber : (queryItems url).length = (queryItems other).length
  sameHasFragment : hasFragment url = hasFragment other

/-- The keys of a URL, as often as they occur. -/
def queryKeys (url : U) : List StdString := (queryItems url).map Prod.fst

/-- The URLs have the same keys, each as often. -/
def SameKeys (url other : U) : Prop := (queryKeys url).Perm (queryKeys other)

/-- The score of the counts is a multiple of `2 ^ 32`: an `unsigned int` holds it as
    `MISMATCH`. -/
def Wraps (url other : U) : Prop :=
  2 ^ 32 ∣ 1 + matchingValues other (queryItems url) + ((queryItems url).length + 1) *
    matchingFragments (pathFragments url) (pathFragments other)

/-- The keys of one URL are found in the other, and the score does not wrap around. -/
def Accepts (url other : U) : Prop :=
  (∀ key ∈ queryKeys url, hasQueryItem other key = true) ∧ ¬Wraps url other

/-- URLs whose scores are no larger than an `unsigned int`. -/
theorem not_wraps {url other : U}
    (hsize : ((queryItems url).length + 1) * ((pathFragments url).length + 1) < 2 ^ 32) :
    ¬Wraps url other := by
  have hvalues := matchingValues_le other (queryItems url)
  have hfragments := Nat.mul_le_mul_left ((queryItems url).length + 1)
    (matchingFragments_le (pathFragments url) (pathFragments other))
  rw [Nat.mul_add, Nat.mul_one] at hsize
  exact Nat.not_dvd_of_pos_of_lt (by omega) (by omega)

/-! ## Keys -/

/-- The shape of a URL is its outline and its keys. -/
theorem sameShape_iff {url other : U} :
    SameShape url other ↔
      SameOutline url other ∧ ∀ key ∈ queryKeys url, hasQueryItem other key = true := by
  constructor
  · intro shape
    refine ⟨⟨shape.sameHost, shape.samePath, shape.sameHasQuery, shape.sameNumber,
      shape.sameHasFragment⟩, fun key hkey => ?_⟩
    obtain ⟨item, hitem, rfl⟩ := List.mem_map.mp hkey
    exact shape.keys item hitem
  · rintro ⟨⟨sameHost, samePath, sameHasQuery, sameNumber, sameHasFragment⟩, hkeys⟩
    refine ⟨sameHost, samePath, sameHasQuery, sameNumber, sameHasFragment, fun item hitem => ?_⟩
    exact hkeys item.1 (List.mem_map_of_mem hitem)

theorem SameOutline.symm {url other : U} (h : SameOutline url other) : SameOutline other url :=
  ⟨h.sameHost.symm, h.samePath.symm, h.sameHasQuery.symm, h.sameNumber.symm,
    h.sameHasFragment.symm⟩

/-! ## The score -/

/-- The URLs that do not match, whatever their sizes. -/
theorem score_eq_mismatch_iff {url other : U} :
    score url other = mismatch ↔
      ¬equals url other = true ∧ (¬SameOutline url other ∨ ¬Accepts url other) := by
  by_cases hequal : equals url other = true
  · simp [score, hequal, fullMatch, mismatch]
  · rw [and_iff_right hequal]
    by_cases shape : SameShape url other
    · -- the score is that of the counts
      obtain ⟨outline, hkeys⟩ := sameShape_iff.mp shape
      have hzero : score url other = mismatch ↔ Wraps url other := by
        rw [score_eq_ofNat hequal shape, ← UInt32.toNat_inj, UInt32.toNat_ofNat', Wraps]
        exact (Nat.dvd_iff_mod_eq_zero ..).symm
      have haccepts : Accepts url other ↔ ¬Wraps url other := and_iff_right hkeys
      rw [hzero, or_iff_right (not_not.mpr outline), haccepts, not_not]
    · have hscore : score url other = mismatch := by
        by_contra h
        exact shape (sameShape_of_score hequal h)
      rw [sameShape_iff, not_and_or] at shape
      exact iff_of_true hscore (shape.imp_right fun hkeys haccepts => hkeys haccepts.1)

/-- A match means that the URLs have the same keys, and the other one matches back. -/
def MatchesByKeys (url other : U) : Prop :=
  (score url other ≠ mismatch → SameKeys url other) ∧
    (score url other = mismatch ↔ score other url = mismatch)

instance (url other : U) : Decidable (MatchesByKeys url other) :=
  inferInstanceAs (Decidable ((score url other ≠ mismatch → List.Perm _ _) ∧ _))

/-- What is documented of `==`: it is symmetric, and equal URLs have the same query. -/
structure EqualsCompares (url other : U) : Prop where
  symm : equals url other = equals other url
  sameItems : equals url other = true → queryItems url = queryItems other

/-- A match means the same keys, and is symmetric, exactly for URLs that are equal or differ in
    their outline, that have the same keys and accept each other, or of which neither accepts the
    other. -/
theorem matchesByKeys_iff {url other : U} (compares : EqualsCompares url other) :
    MatchesByKeys url other ↔ equals url other = true ∨ ¬SameOutline url other ∨
      (SameKeys url other ∧ Accepts url other ∧ Accepts other url) ∨
      (¬Accepts url other ∧ ¬Accepts other url) := by
  have hscore : score url other = mismatch ↔ _ := score_eq_mismatch_iff
  have hback : score other url = mismatch ↔ _ := score_eq_mismatch_iff
  rw [← compares.symm] at hback
  by_cases hequal : equals url other = true
  · -- both scores are `MATCH`
    refine iff_of_true ⟨fun _ => ?_, ?_⟩ (Or.inl hequal)
    · rw [SameKeys, queryKeys, queryKeys, compares.sameItems hequal]
    · rw [hscore, hback]
      exact iff_of_false (fun h => h.1 hequal) fun h => h.1 hequal
  rw [and_iff_right hequal] at hscore hback
  by_cases outline : SameOutline url other
  · rw [or_iff_right (not_not.mpr outline)] at hscore
    rw [or_iff_right (not_not.mpr outline.symm)] at hback
    rw [MatchesByKeys, ne_eq, hscore, hback, not_not, or_iff_right hequal,
      or_iff_right (not_not.mpr outline)]
    constructor
    · rintro ⟨hkeys, hsymm⟩
      by_cases haccepts : Accepts url other
      · have hback : Accepts other url := by
          by_contra h
          exact hsymm.mpr h haccepts
        exact Or.inl ⟨hkeys haccepts, haccepts, hback⟩
      · exact Or.inr ⟨haccepts, hsymm.mp haccepts⟩
    · rintro (⟨hperm, haccepts, hback⟩ | ⟨hurl, hother⟩)
      · exact ⟨fun _ => hperm, iff_of_false (not_not.mpr haccepts) (not_not.mpr hback)⟩
      · exact ⟨fun haccepts => absurd haccepts hurl, iff_of_true hurl hother⟩
  · have hmismatch := hscore.mpr (Or.inl outline)
    have hmismatch' := hback.mpr (Or.inl fun h => outline h.symm)
    exact iff_of_true ⟨fun h => absurd hmismatch h, iff_of_true hmismatch hmismatch'⟩
      (Or.inr (Or.inl outline))

/-! ## Lookups that find the decoded keys -/

/-- A lookup finds the keys of the query, and no others. -/
def FindsKeys (url : U) : Prop := ∀ key, hasQueryItem url key = true ↔ key ∈ queryKeys url

/-- What a URL accepts, if lookups find the keys. -/
theorem FindsKeys.accepts_iff {url other : U} (h : FindsKeys other) :
    Accepts url other ↔ queryKeys url ⊆ queryKeys other ∧ ¬Wraps url other := by
  rw [Accepts, List.subset_def]
  simp only [h _]

/-- If lookups find the keys, URLs with the same keys need not wrap around, and of the others each
    has a key that the other has not, unless its score wraps around. -/
theorem matchesByKeys_iff_of_findsKeys {url other : U} (compares : EqualsCompares url other)
    (hurl : FindsKeys url) (hother : FindsKeys other) :
    MatchesByKeys url other ↔ equals url other = true ∨ ¬SameOutline url other ∨
      (SameKeys url other ∧ ¬Wraps url other ∧ ¬Wraps other url) ∨
      ((queryKeys url ⊆ queryKeys other → Wraps url other) ∧
        (queryKeys other ⊆ queryKeys url → Wraps other url)) := by
  have hsame : SameKeys url other ∧ Accepts url other ∧ Accepts other url ↔
      SameKeys url other ∧ ¬Wraps url other ∧ ¬Wraps other url := by
    rw [hother.accepts_iff, hurl.accepts_iff]
    refine and_congr_right fun hperm => ?_
    rw [and_iff_right hperm.subset, and_iff_right hperm.symm.subset]
  rw [matchesByKeys_iff compares, hsame, hother.accepts_iff, hurl.accepts_iff]
  simp only [not_and_not_right]

/-- `http://a/x?` with a query of two items. -/
def pageOfItems (key key' : String) : ParsedUrl where
  host := "a".toList
  path := "/x".toList
  query := some [⟨key.toList, key.toList, "1".toList⟩, ⟨key'.toList, key'.toList, "2".toList⟩]
  fragment := none

/-- `http://a/y?%61=1&b=2`. -/
def encodedPage : ParsedUrl where
  host := "a".toList
  path := "/y".toList
  query := some [⟨"%61".toList, "a".toList, "1".toList⟩, ⟨"b".toList, "b".toList, "2".toList⟩]
  fragment := none

/-- The order of the keys does not matter. -/
theorem matchesByKeys_iff_of_reordered :
    MatchesByKeys (pageOfItems "a" "b") (pageOfItems "b" "a") := by
  have compares : EqualsCompares (pageOfItems "a" "b") (pageOfItems "b" "a") :=
    ⟨by decide, fun h => absurd h (by decide)⟩
  refine (matchesByKeys_iff compares).mpr (Or.inr (Or.inr (Or.inl ⟨?_, ⟨?_, ?_⟩, ?_, ?_⟩)))
  · exact List.Perm.swap _ _ _
  · decide
  · exact not_wraps (by decide)
  · decide
  · exact not_wraps (by decide)

/-- `?a=1&a=2` matches `?a=1&b=2`, which does not match it. The keys of `?%61=1&b=2` are those of
    `?a=1&b=2`, but it does not match back: the lookup of `a` finds nothing. -/
theorem repeated_key_matches :
    ¬MatchesByKeys (pageOfItems "a" "a") (pageOfItems "a" "b") ∧
      ¬MatchesByKeys encodedPage (pageOfItems "a" "b") := by
  constructor
  · decide +kernel
  · decide +kernel

end R4.FuzzyUrlMatcher
