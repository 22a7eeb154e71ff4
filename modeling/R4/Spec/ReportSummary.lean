import R4.ForStd.Counting
import R4.Spec.ReportRace

/-!
# The totals of a report add up

The summary of a website counts its races by their classification, and by the tags that the
classification left behind. Both agree: a race counts as high because of one of five tags, so each
of their counters is at most that of the high races, and together they are at least as many. One
of the tags that are counted is misspelled, and no race has it.

## Key results

- `verdictOk_classify`: a classification and its tags go together
- `processRaces_counts`: what every run of the loop counts, whatever could be parsed
- `Judged.tallied`: how the counters of one pass are related
- `totals_add_up`: how the counters of the summary are related
-/

namespace R4.ReportReader

open Python (Dict)

variable {D X : Type}

/-! ## Tags -/

/-- The details for a list of tags. -/
def details (tags : List String) : StdString := tags.flatMap fun tag => tag.toList ++ [' ']

/-- A tag is found in the details if it is in one of their tags. -/
theorem contains_details {needle : String} (hspace : ' ' ∉ needle.toList)
    (hne : needle.toList ≠ []) (tags : List String) :
    contains needle (details tags) = tags.any fun tag => contains needle tag.toList := by
  induction tags with
  | nil =>
    rw [List.any_nil, details, List.flatMap_nil, contains, decide_eq_false_iff_not]
    exact fun h => hne (List.infix_nil.mp h)
  | cons tag tags ih =>
    have hsplit : contains needle (details (tag :: tags)) =
        (contains needle tag.toList || contains needle (details tags)) := by
      unfold contains
      rw [details, List.flatMap_cons, List.append_assoc, List.singleton_append,
        ← Bool.decide_or, decide_eq_decide]
      exact List.infix_append_cons_iff hspace
    rw [hsplit, ih, List.any_cons]

/-- The tags of a race that counts as high. -/
def classifierTags : List String := r4Classifiers ++ erClassifiers

/-- The other tags. -/
def otherTags : List String :=
  ["R4_HEAP_MISMATCH", "ER_LATE_EVENT_ATTACH", "R4_EVENTS_COMMUTE", "ER_RACE_WITH_UNLOAD",
    "R4_DOM_TIMER_AD_HOC_SYNC[DELAY]", "R4_DOM_TIMER_AD_HOC_SYNC[EARLY]"]

/-- The tags that go with a classification. -/
def TagsOk (classification : String) (tags : List String) : Prop :=
  classification = "NORMAL" ∧ (∀ tag ∈ tags, tag ∉ classifierTags) ∨
    classification = "HIGH" ∧ (∃ tag ∈ tags, tag ∈ classifierTags) ∨ classification = "LOW"

/-- A classification and its tags go together. -/
def VerdictOk (v : Verdict) : Prop :=
  ∃ tags, v.details = details tags ∧ (∀ tag ∈ tags, tag ∈ classifierTags ++ otherTags) ∧
    TagsOk v.classification tags

/-- Nothing speaks against `NORMAL`. -/
theorem verdictOk_normal : VerdictOk ⟨"NORMAL", []⟩ :=
  ⟨[], rfl, List.forall_mem_nil _, .inl ⟨rfl, List.forall_mem_nil _⟩⟩

/-- A tag is added behind the others. -/
theorem details_concat (tags : List String) (tag : String) :
    details tags ++ tag.toList ++ [' '] = details (tags ++ [tag]) := by
  simp [details]

/-- A tag is added that does not make a race high. -/
theorem VerdictOk.flag {v : Verdict} (h : VerdictOk v) (condition : Bool) {tag : String}
    (htag : tag ∈ otherTags) : VerdictOk (v.flag condition tag) := by
  cases condition with
  | false => exact h
  | true =>
    obtain ⟨tags, hdetails, hknown, hok⟩ := h
    -- none of the other tags makes a race high
    have hdisjoint : ∀ tag ∈ otherTags, tag ∉ classifierTags := by decide
    refine ⟨tags ++ [tag], ?_, ?_, ?_⟩
    · rw [← details_concat, ← hdetails]
      rfl
    · rw [List.forall_mem_append]
      exact ⟨hknown, by simp [htag]⟩
    · -- a tag that classifies nothing leaves the reasons as they are
      rcases hok with ⟨hnormal, hnone⟩ | ⟨hhigh, other, hother, hclassifier⟩ | hlow
      · -- the race stays normal
        refine .inl ⟨hnormal, List.forall_mem_append.mpr ⟨hnone, ?_⟩⟩
        rw [List.forall_mem_singleton]
        exact hdisjoint tag htag
      · -- it stays high, for the same reason
        exact .inr (.inl ⟨hhigh, other, List.mem_append_left _ hother, hclassifier⟩)
      · exact .inr (.inr hlow)

/-- A trigger sets the classification. -/
theorem VerdictOk.set {v : Verdict} (h : VerdictOk v) (condition : Bool)
    {classification tag : String}
    (htag : classification = "HIGH" ∧ tag ∈ classifierTags ∨
      classification = "LOW" ∧ tag ∈ otherTags) :
    VerdictOk (v.set condition classification tag) := by
  cases condition with
  | false => exact h
  | true =>
    obtain ⟨tags, hdetails, hknown, -⟩ := h
    refine ⟨tags ++ [tag], ?_, ?_, ?_⟩
    · rw [← details_concat, ← hdetails]
      rfl
    · rw [List.forall_mem_append, List.forall_mem_singleton]
      refine ⟨hknown, List.mem_append.mpr ?_⟩
      exact htag.imp And.right And.right
    · -- the classification is set along with the tag
      rcases htag with ⟨rfl, hclassifier⟩ | ⟨rfl, -⟩
      · -- the tag is the reason why the race is high
        have hlast : tag ∈ tags ++ [tag] := by simp
        exact .inr (.inl ⟨rfl, tag, hlast, hclassifier⟩)
      · exact .inr (.inr rfl)

/-- A classification and its tags go together, whatever the race. -/
theorem verdictOk_classify (e : Evidence) : VerdictOk (classify e) := by
  unfold classify
  dsimp only
  -- the six low triggers, the five high ones before them, and the flag
  iterate 6 refine VerdictOk.set ?_ _ (.inr ⟨rfl, by decide⟩)
  iterate 5 refine VerdictOk.set ?_ _ (.inl ⟨rfl, by decide⟩)
  exact verdictOk_normal.flag _ (by decide)

/-- The classification gives a verdict with its reasons. -/
theorem verdictOk_classifyRace {c : Comparer X} {baseData raceData : RaceData RaceContent}
    {erClassificationDetails : StdString} {visualStateMatch htmlStateMatch : Bool} {v : Verdict}
    (h : classifyRace c baseData raceData erClassificationDetails visualStateMatch htmlStateMatch =
      some v) : VerdictOk v := by
  unfold classifyRace at h
  split at h
  · obtain ⟨memory, -, rfl⟩ := Option.map_eq_some_iff.mp h
    exact verdictOk_classify _
  · obtain rfl := Option.some.inj h
    exact verdictOk_normal

/-- A classifier is found in the details if it is one of their tags. -/
theorem contains_classifier {needle : String} (hneedle : needle ∈ classifierTags)
    {tags : List String} (hknown : ∀ tag ∈ tags, tag ∈ classifierTags ++ otherTags) :
    contains needle (details tags) = true ↔ needle ∈ tags := by
  have hspace : ∀ needle ∈ classifierTags, ' ' ∉ needle.toList ∧ needle.toList ≠ [] := by
    decide +kernel
  -- no tag is a part of another
  have hparts : ∀ needle ∈ classifierTags, ∀ tag ∈ classifierTags ++ otherTags,
      contains needle tag.toList = true ↔ needle = tag := by decide +kernel
  rw [contains_details (hspace _ hneedle).1 (hspace _ hneedle).2, List.any_eq_true]
  constructor
  · rintro ⟨tag, htag, hcontains⟩
    rw [(hparts _ hneedle _ (hknown _ htag)).mp hcontains]
    exact htag
  · exact fun hmem => ⟨needle, hmem, (hparts _ hneedle _ (hknown _ hmem)).mpr rfl⟩

/-- What the counters see of a verdict. -/
structure Sound (v : Verdict) : Prop where
  known : v.classification = "NORMAL" ∨ v.classification = "HIGH" ∨ v.classification = "LOW"
  classified : v.classification = "HIGH" → ∃ tag ∈ classifierTags, contains tag v.details = true
  high : ∀ tag ∈ classifierTags, contains tag v.details = true → v.classification ≠ "LOW" →
    v.classification = "HIGH"
  misspelled : contains "ER_RACE_WTIH_UNLOAD" v.details = false

/-- A verdict with its reasons is sound. -/
theorem VerdictOk.sound {v : Verdict} (h : VerdictOk v) : Sound v := by
  obtain ⟨tags, hdetails, hknown, hok⟩ := h
  have hcontains : ∀ tag ∈ classifierTags, contains tag v.details = true ↔ tag ∈ tags :=
    fun tag htag => hdetails ▸ contains_classifier htag hknown
  refine ⟨hok.imp And.left (Or.imp_left And.left), fun hhigh => ?_,
    fun tag htag hmem hlow => ?_, ?_⟩
  · -- a high race is neither normal nor low
    rcases hok with ⟨hnormal, -⟩ | ⟨-, tag, htag, hclassifier⟩ | hlow
    · rw [hnormal] at hhigh
      exact absurd hhigh (by decide)
    · exact ⟨tag, hclassifier, (hcontains tag hclassifier).mpr htag⟩
    · rw [hlow] at hhigh
      exact absurd hhigh (by decide)
  · -- a race with a classifier is not normal, and stays high unless it is low
    rcases hok with ⟨-, hnone⟩ | ⟨hhigh, -⟩ | hlow'
    · exact absurd htag (hnone tag ((hcontains tag htag).mp hmem))
    · exact hhigh
    · exact absurd hlow' hlow
  · -- the misspelled tag is part of no tag
    have hparts : ∀ tag ∈ classifierTags ++ otherTags,
        contains "ER_RACE_WTIH_UNLOAD" tag.toList = false := by decide +kernel
    rw [hdetails, contains_details (by decide) (by decide), List.any_eq_false]
    intro tag htag
    rw [hparts tag (hknown tag htag)]
    exact Bool.false_ne_true

/-! ## The loop -/

/-- An iteration adds the row and the counters of a race that was compared. -/
theorem reportRace_counts {w : Website D X} {raceData : RaceData D} {totals totals' : Totals X}
    (hkeys : ∀ key ∈ summaryKeys, (totals.1.get? key).isSome)
    (h : reportRace w raceData totals = some totals') :
    ∃ p baseData, parseOrigin w raceData.origin = .ok baseData ∧
      processRace w raceData baseData = some p ∧ totals'.2 = totals.2 ++ [p.summary] ∧
      ∀ key, totals'.1.get? key =
        (totals.1.get? key).map fun n => n + if (key, true) ∈ counters p then 1 else 0 := by
  unfold reportRace at h
  split at h
  · simp at h
  · rename_i baseData hbase
    simp only [Option.bind_eq_bind, Option.bind_eq_some_iff, Option.pure_def,
      Option.some.injEq] at h
    obtain ⟨p, hp, summary, hsummary, rfl⟩ := h
    obtain ⟨summary', hadded, hget⟩ := addRace_spec totals.1 hkeys p
    obtain rfl := Option.some.inj (hsummary.symm.trans hadded)
    exact ⟨p, baseData, hbase, hp, rfl, hget⟩

/-- What the passes of the loop compare. -/
inductive Passes (w : Website D X) :
    List StdString → Option (RaceData D) → List (ProcessedRace D X) → Prop
  | nil {last : Option (RaceData D)} : Passes w [] last []
  | cons {race : StdString} {races : List StdString} {last : Option (RaceData D)}
      {raceData baseData : RaceData D} {p : ProcessedRace D X} {praces : List (ProcessedRace D X)}
      (hrace : PassRace w last race raceData)
      (hbase : parseOrigin w raceData.origin = .ok baseData)
      (hp : processRace w raceData baseData = some p)
      (hrest : Passes w races (some raceData) praces) :
      Passes w (race :: races) last (p :: praces)

/-- There is one pass for each race of the list. -/
theorem Passes.length_eq {w : Website D X} {races : List StdString} {last : Option (RaceData D)}
    {praces : List (ProcessedRace D X)} (h : Passes w races last praces) :
    praces.length = races.length := by
  induction h with
  | nil => rfl
  | cons _ _ _ _ ih => rw [List.length_cons, ih, List.length_cons]

/-- Each pass has compared a race with its base. -/
theorem Passes.processed {w : Website D X} {races : List StdString} {last : Option (RaceData D)}
    {praces : List (ProcessedRace D X)} (h : Passes w races last praces) :
    ∀ p ∈ praces, ∃ raceData baseData, processRace w raceData baseData = some p := by
  induction h with
  | nil => exact List.forall_mem_nil _
  | cons _ _ hp _ ih => exact List.forall_mem_cons.mpr ⟨⟨_, _, hp⟩, ih⟩

/-- A pass increases this counter. -/
def increases (key : StdString) (p : ProcessedRace D X) : Bool :=
  (counters p).any fun counter => counter.1 == key && counter.2

/-- It does if the condition of the counter is met. -/
theorem increases_eq_true_iff {key : StdString} {p : ProcessedRace D X} :
    increases key p = true ↔ (key, true) ∈ counters p := by
  simp only [increases, List.any_eq_true, Bool.and_eq_true, beq_iff_eq]
  constructor
  · rintro ⟨⟨key', condition⟩, hmem, rfl, rfl⟩
    exact hmem
  · exact fun hmem => ⟨_, hmem, rfl, rfl⟩

/-- Whatever could be parsed, a run of the loop that ends has finished a pass for each race, and
    adds a row and the counters of each pass. -/
theorem processRaces_counts {w : Website D X} {races : List StdString}
    {last : Option (RaceData D)} {totals totals' : Totals X}
    (hkeys : ∀ key ∈ summaryKeys, (totals.1.get? key).isSome)
    (h : processRaces w races last totals = some totals') :
    ∃ praces, Passes w races last praces ∧
      totals'.2 = totals.2 ++ praces.map ProcessedRace.summary ∧
      ∀ key, totals'.1.get? key =
        (totals.1.get? key).map fun n => n + praces.countP (increases key) := by
  induction races generalizing last totals with
  | nil =>
    obtain rfl := Option.some.inj h
    exact ⟨[], .nil, by simp, by simp⟩
  | cons race races ih =>
    -- the race is reported, and the loop goes on with its data
    obtain ⟨raceData, added, hrace, hadded, hrest⟩ := processRaces_cons h
    obtain ⟨p, baseData, hbase, hp, hrow, hget⟩ := reportRace_counts hkeys hadded
    -- a race takes no counter away
    have hadded_keys : ∀ key ∈ summaryKeys, (added.1.get? key).isSome := by
      intro key hkey
      rw [hget, Option.isSome_map]
      exact hkeys key hkey
    obtain ⟨praces, hpasses, hrows, hcounts⟩ := ih hadded_keys hrest
    refine ⟨p :: praces, .cons hrace hbase hp hpasses, ?_, fun key => ?_⟩
    · rw [hrows, hrow, List.append_assoc]
      rfl
    · -- this pass increases the counter, or does not
      rw [hcounts, hget, Option.map_map, List.countP_cons]
      refine congrArg (fun f => Option.map f (totals.1.get? key)) (funext fun n => ?_)
      simp only [Function.comp_apply, increases_eq_true_iff]
      omega

/-! ## The totals -/

/-- A counter is increased under its own condition. -/
theorem increases_eq {p : ProcessedRace D X} {key : StdString} {condition : Bool}
    (h : (key, condition) ∈ counters p) : increases key p = condition := by
  rw [Bool.eq_iff_iff, increases_eq_true_iff]
  constructor
  · intro htrue
    have hnodup : ((counters p).map Prod.fst).Nodup := (map_fst_counters p).symm ▸ nodup_summaryKeys
    exact congrArg Prod.snd (List.inj_on_of_nodup_map hnodup h htrue rfl)
  · rintro rfl
    exact h

/-- A counter of the summary. -/
def Totals.counter (totals : Totals X) (key : StdString) : Nat := (totals.1.get? key).getD 0

/-- The key of the counter of a tag that makes a race high. -/
def classifierKey (tag : String) : StdString :=
  tagKey (if tag ∈ r4Classifiers then "r4_classifier_" else "er_classifier_") tag

/-- How the counters of a summary are related. -/
structure AddsUp (totals : Totals X) (races : List StdString) : Prop where
  count : totals.counter "count".toList = races.length ∧ totals.2.length = races.length
  classified : totals.counter "r4_high".toList + totals.counter "r4_normal".toList +
    totals.counter "r4_low".toList = races.length
  classifier : ∀ tag ∈ classifierTags,
    totals.counter (classifierKey tag) ≤ totals.counter "r4_high".toList
  high : totals.counter "r4_high".toList ≤
    (classifierTags.map fun tag => totals.counter (classifierKey tag)).sum
  only : ∀ tag ∈ r4Classifiers, totals.counter (tagKey "r4_classifiers_only_" tag) ≤
    min (totals.counter (tagKey "r4_classifier_" tag)) (totals.counter "er_low".toList)
  results : totals.counter "equal".toList + totals.counter "diff".toList +
    totals.counter "timeout".toList + totals.counter "error".toList ≤ races.length
  erClassified : totals.counter "er_high".toList + totals.counter "er_normal".toList +
    totals.counter "er_low".toList + totals.counter "er_unknown".toList ≤ races.length
  misspelled : totals.counter (tagKey "r4_tag_" "ER_RACE_WTIH_UNLOAD") = 0

/-- A race whose classification the counters see like that. -/
def Judged (p : ProcessedRace D X) : Prop :=
  ∃ v, Sound v ∧ p.comparison.r4Classification = v.classification.toList ∧
    p.comparison.r4ClassificationDetails = v.details

/-- Every race that is processed is judged. -/
theorem judged_processRace {c : Comparer X} {files : StdString → RunDirectory}
    {erClassification : RaceData RaceContent → StdString × StdString}
    {raceData baseData : RaceData RaceContent} {p : ProcessedRace RaceContent (Distances X)}
    (h : processRace (Website.ofRuns c files erClassification) raceData baseData = some p) :
    Judged p := by
  obtain ⟨comparison, hcompared, rfl⟩ := Option.map_eq_some_iff.mp h
  obtain ⟨result, hresult, rfl⟩ := Option.map_eq_some_iff.mp hcompared
  obtain ⟨v, hv, rfl⟩ := Option.map_eq_some_iff.mp hresult
  exact ⟨v, (verdictOk_classifyRace hv).sound, rfl, rfl⟩

/-- The classification is this one. -/
def isClassified (classification : String) (p : ProcessedRace D X) : Bool :=
  p.comparison.r4Classification == classification.toList

/-- The condition on a counter of a tag that makes a race high. -/
def hasClassifier (tag : String) (p : ProcessedRace D X) : Bool :=
  contains tag p.comparison.r4ClassificationDetails && !isClassified "LOW" p

/-- A race is classified in one way. -/
theorem countP_isClassified {p : ProcessedRace D X} (h : Judged p) :
    ([isClassified "HIGH", isClassified "NORMAL", isClassified "LOW"].countP
      fun condition => condition p) = 1 := by
  obtain ⟨v, hv, hclassification, -⟩ := h
  simp only [isClassified, hclassification, List.countP_cons, List.countP_nil]
  rcases hv.known with heq | heq | heq
  all_goals
    rw [heq]
    decide

/-- A race with a classifier is high. -/
theorem isClassified_high_of_hasClassifier {p : ProcessedRace D X} (h : Judged p) {tag : String}
    (htag : tag ∈ classifierTags) (hhas : hasClassifier tag p = true) :
    isClassified "HIGH" p = true := by
  obtain ⟨v, hv, hclassification, hdetails⟩ := h
  rw [hasClassifier, isClassified, hclassification, hdetails, Bool.and_eq_true,
    Bool.not_eq_true', beq_eq_false_iff_ne] at hhas
  have hhigh := hv.high tag htag hhas.1 fun hlow => hhas.2 (congrArg String.toList hlow)
  rw [isClassified, hclassification, hhigh]
  exact beq_self_eq_true _

/-- A race that is high has a classifier. -/
theorem exists_hasClassifier {p : ProcessedRace D X} (h : Judged p)
    (hhigh : isClassified "HIGH" p = true) :
    ∃ tag ∈ classifierTags, hasClassifier tag p = true := by
  obtain ⟨v, hv, hclassification, hdetails⟩ := h
  rw [isClassified, hclassification, beq_iff_eq, String.toList_inj] at hhigh
  obtain ⟨tag, htag, hcontains⟩ := hv.classified hhigh
  refine ⟨tag, htag, ?_⟩
  rw [hasClassifier, isClassified, hclassification, hdetails, hcontains, hhigh]
  decide

/-- The counter of each of the five tags. -/
theorem mem_counters_classifier {tag : String} (h : tag ∈ classifierTags)
    (p : ProcessedRace D X) : (classifierKey tag, hasClassifier tag p) ∈ counters p := by
  have hdisjoint : ∀ tag ∈ erClassifiers, tag ∉ r4Classifiers := by decide
  unfold classifierKey
  simp only [counters, List.mem_append]
  rcases List.mem_append.mp h with h | h
  · rw [if_pos h]
    exact .inl (.inl (.inl (.inl (.inr (List.mem_map_of_mem h)))))
  · rw [if_neg (hdisjoint tag h)]
    exact .inl (.inl (.inl (.inr (List.mem_map_of_mem h))))

/-- A race with one classifier has its counter for that. -/
theorem mem_counters_only {tag : String} (h : tag ∈ r4Classifiers) (p : ProcessedRace D X) :
    (tagKey "r4_classifiers_only_" tag,
      hasClassifier tag p && p.erClassification == "LOW".toList) ∈ counters p := by
  simp only [counters, List.mem_append]
  exact .inl (.inl (.inr (List.mem_map_of_mem h)))

/-- A race with a tag has its counter for that. -/
theorem mem_counters_r4Tag {tag : String} (h : tag ∈ r4Tags) (p : ProcessedRace D X) :
    (tagKey "r4_tag_" tag, contains tag p.comparison.r4ClassificationDetails) ∈ counters p := by
  simp only [counters, List.mem_append]
  exact .inr (List.mem_map_of_mem h)

/-- The condition on the counters of equal and of different races. -/
def hasResult (result : String) (equal : Bool) (p : ProcessedRace D X) : Bool :=
  p.raceData.result == result.toList && p.comparison.isEqual == equal

/-- EventRacer's classification is not known. -/
def isUnknown (p : ProcessedRace D X) : Bool :=
  p.erClassification == "UNKNOWN".toList || p.erClassification == "PARSE_ERROR".toList

/-- How the counters of one pass are related. -/
structure Tallied (p : ProcessedRace D X) : Prop where
  classified :
    (["r4_high", "r4_normal", "r4_low"].countP fun key => increases key.toList p) = 1
  classifier : ∀ tag ∈ classifierTags, increases (classifierKey tag) p = true →
    increases "r4_high".toList p = true
  high : increases "r4_high".toList p = true →
    ∃ tag ∈ classifierTags, increases (classifierKey tag) p = true
  only : ∀ tag ∈ r4Classifiers, increases (tagKey "r4_classifiers_only_" tag) p = true →
    increases (tagKey "r4_classifier_" tag) p = true ∧ increases "er_low".toList p = true
  results : (["equal", "diff", "timeout", "error"].countP fun key => increases key.toList p) ≤ 1
  erClassified :
    (["er_high", "er_normal", "er_low", "er_unknown"].countP fun key =>
      increases key.toList p) ≤ 1
  misspelled : increases (tagKey "r4_tag_" "ER_RACE_WTIH_UNLOAD") p = false

/-- The counters of the classification. -/
theorem increases_classified (p : ProcessedRace D X) :
    increases "r4_high".toList p = isClassified "HIGH" p ∧
      increases "r4_normal".toList p = isClassified "NORMAL" p ∧
      increases "r4_low".toList p = isClassified "LOW" p :=
  ⟨increases_eq (by simp [counters, isClassified]), increases_eq (by simp [counters, isClassified]),
    increases_eq (by simp [counters, isClassified])⟩

/-- A pass increases at most one of the counters of the results. -/
theorem countP_results_le_one (p : ProcessedRace D X) :
    (["equal", "diff", "timeout", "error"].countP fun key => increases key.toList p) ≤ 1 := by
  have hequal : increases "equal".toList p = hasResult "FINISHED" true p :=
    increases_eq (by simp [counters, hasResult])
  have hdiff : increases "diff".toList p = hasResult "FINISHED" false p :=
    increases_eq (by simp [counters, hasResult])
  have htimeout : increases "timeout".toList p = (p.raceData.result == "TIMEOUT".toList) :=
    increases_eq (by simp [counters])
  have herror : increases "error".toList p = (p.raceData.result == "ERROR".toList) :=
    increases_eq (by simp [counters])
  refine List.countP_le_one ?_
  simp only [List.pairwise_cons, List.forall_mem_cons, hequal, hdiff, htimeout, herror]
  simp +contextual [hasResult]

/-- A pass increases at most one of the counters of EventRacer's classification. -/
theorem countP_erClassified_le_one (p : ProcessedRace D X) :
    (["er_high", "er_normal", "er_low", "er_unknown"].countP fun key =>
      increases key.toList p) ≤ 1 := by
  have hhigh : increases "er_high".toList p = (p.erClassification == "HIGH".toList) :=
    increases_eq (by simp [counters])
  have hnormal : increases "er_normal".toList p = (p.erClassification == "NORMAL".toList) :=
    increases_eq (by simp [counters])
  have hlow : increases "er_low".toList p = (p.erClassification == "LOW".toList) :=
    increases_eq (by simp [counters])
  have hunknown : increases "er_unknown".toList p = isUnknown p :=
    increases_eq (by simp [counters, isUnknown])
  refine List.countP_le_one ?_
  simp only [List.pairwise_cons, List.forall_mem_cons, hhigh, hnormal, hlow, hunknown]
  simp +contextual [isUnknown]

/-- The counters of a pass are related like that, whatever it compares. -/
theorem Judged.tallied {p : ProcessedRace D X} (h : Judged p) : Tallied p := by
  obtain ⟨hhigh, hnormal, hlow⟩ := increases_classified p
  have hclassifier : ∀ tag ∈ classifierTags,
      increases (classifierKey tag) p = hasClassifier tag p :=
    fun tag htag => increases_eq (mem_counters_classifier htag p)
  refine ⟨?_, fun tag htag => ?_, ?_, fun tag htag => ?_, countP_results_le_one p,
    countP_erClassified_le_one p, ?_⟩
  · -- the race is high, normal or low
    have hone := countP_isClassified h
    simp only [List.countP_cons, List.countP_nil] at hone ⊢
    rw [hhigh, hnormal, hlow]
    exact hone
  · -- each classifier makes it high
    rw [hclassifier tag htag, hhigh]
    exact isClassified_high_of_hasClassifier h htag
  · -- and it is high because of one of them
    rw [hhigh]
    intro hp
    obtain ⟨tag, htag, hhas⟩ := exists_hasClassifier h hp
    exact ⟨tag, htag, (hclassifier tag htag).trans hhas⟩
  · -- a race that has only the tag of one classifier is low for EventRacer
    have hkey : classifierKey tag = tagKey "r4_classifier_" tag := by
      rw [classifierKey, if_pos htag]
    have her : increases "er_low".toList p = (p.erClassification == "LOW".toList) :=
      increases_eq (by simp [counters])
    rw [increases_eq (mem_counters_only htag p), ← hkey,
      hclassifier tag (List.mem_append_left _ htag), her, Bool.and_eq_true]
    exact id
  · -- the misspelled tag is never set
    obtain ⟨v, hv, -, hdetails⟩ := h
    rw [increases_eq (mem_counters_r4Tag (by decide) p), hdetails, hv.misspelled]

/-- Totals that have a row and the counters of each pass. -/
structure Counted (totals : Totals X) (praces : List (ProcessedRace D X)) : Prop where
  rows : totals.2 = praces.map ProcessedRace.summary
  counters : ∀ key ∈ summaryKeys, totals.counter key = praces.countP (increases key)

/-- A run of the loop that ends counts its passes. -/
theorem process_counts {w : Website D X} {races : List StdString} {totals : Totals X}
    (h : process w races = some totals) :
    ∃ praces, Passes w races none praces ∧ Counted totals praces := by
  have hkeys : ∀ key ∈ summaryKeys, (initialSummary.get? key).isSome := by
    intro key hkey
    rw [get?_initialSummary hkey]
    rfl
  obtain ⟨praces, hpasses, hrows, hcounts⟩ := processRaces_counts hkeys h
  refine ⟨praces, hpasses, hrows, fun key hkey => ?_⟩
  rw [Totals.counter, hcounts, get?_initialSummary hkey, Option.map_some, Option.getD_some,
    Nat.zero_add]

section Sums

variable {totals : Totals X} {praces : List (ProcessedRace D X)} (h : Counted totals praces)
include h

/-- The sum of some counters, by the passes that increase them. -/
theorem Counted.sum_eq {keys : List StdString} (hkeys : ∀ key ∈ keys, key ∈ summaryKeys) :
    (keys.map totals.counter).sum =
      ((keys.map increases).map fun condition => praces.countP condition).sum := by
  rw [List.map_map]
  exact congrArg List.sum (List.map_congr_left fun key hkey => h.counters key (hkeys key hkey))

/-- Counters of which each pass increases one. -/
theorem Counted.sum_eq_length (keys : List String)
    (hkeys : ∀ key ∈ keys, key.toList ∈ summaryKeys)
    (hone : ∀ p ∈ praces, (keys.countP fun key => increases key.toList p) = 1) :
    ((keys.map String.toList).map totals.counter).sum = praces.length := by
  rw [h.sum_eq (List.forall_mem_map.mpr hkeys)]
  refine List.sum_map_countP_eq_length fun p hp => ?_
  rw [List.countP_map, List.countP_map]
  exact hone p hp

/-- Counters of which each pass increases one at most. -/
theorem Counted.sum_le_length (keys : List String)
    (hkeys : ∀ key ∈ keys, key.toList ∈ summaryKeys)
    (hone : ∀ p ∈ praces, (keys.countP fun key => increases key.toList p) ≤ 1) :
    ((keys.map String.toList).map totals.counter).sum ≤ praces.length := by
  rw [h.sum_eq (List.forall_mem_map.mpr hkeys)]
  refine List.sum_map_countP_le_length fun p hp => ?_
  rw [List.countP_map, List.countP_map]
  exact hone p hp

/-- A counter that is increased with another one only. -/
theorem Counted.le_of_increases {key other : StdString} (hkey : key ∈ summaryKeys)
    (hother : other ∈ summaryKeys)
    (hle : ∀ p ∈ praces, increases key p = true → increases other p = true) :
    totals.counter key ≤ totals.counter other := by
  rw [h.counters key hkey, h.counters other hother]
  exact List.countP_mono_left hle

end Sums

/-- The counters of the tags are counters of the summary. -/
theorem classifierKey_mem_summaryKeys : ∀ tag ∈ classifierTags,
    classifierKey tag ∈ summaryKeys := by decide +kernel

/-- The counters add up if those of each pass are related. -/
theorem Counted.addsUp {totals : Totals X} {praces : List (ProcessedRace D X)}
    {races : List StdString} (h : Counted totals praces) (hlength : praces.length = races.length)
    (htallied : ∀ p ∈ praces, Tallied p) : AddsUp totals races := by
  have hhigh : "r4_high".toList ∈ summaryKeys := by decide +kernel
  refine ⟨⟨?_, ?_⟩, ?_, fun tag htag => ?_, ?_, fun tag htag => ?_, ?_, ?_, ?_⟩
  · -- every pass increases the first counter
    have hcount : ∀ p : ProcessedRace D X, increases "count".toList p = true :=
      fun p => increases_eq (by simp [R4.ReportReader.counters])
    rw [h.counters _ (by decide +kernel), List.countP_eq_length.mpr fun p _ => hcount p, hlength]
  · rw [h.rows, List.length_map, hlength]
  · -- each pass increases one of the three counters of the classification
    rw [← hlength, ← h.sum_eq_length _ (by decide +kernel) fun p hp => (htallied p hp).classified]
    simp [Nat.add_assoc]
  · exact h.le_of_increases (classifierKey_mem_summaryKeys tag htag) hhigh
      fun p hp => (htallied p hp).classifier tag htag
  · -- the sum over the tags counts every high race at least once
    have hsum : (classifierTags.map fun tag => totals.counter (classifierKey tag)) =
        (classifierTags.map classifierKey).map totals.counter := by
      rw [List.map_map]
      rfl
    rw [hsum, h.counters _ hhigh,
      h.sum_eq (List.forall_mem_map.mpr classifierKey_mem_summaryKeys)]
    refine List.countP_le_sum_map_countP fun p hp hp' => ?_
    obtain ⟨tag, htag, hincreases⟩ := (htallied p hp).high hp'
    exact ⟨_, List.mem_map_of_mem (List.mem_map_of_mem htag), hincreases⟩
  · -- the tags for which there is a counter of their own
    have hkeys : ∀ tag ∈ r4Classifiers, tagKey "r4_classifiers_only_" tag ∈ summaryKeys ∧
        tagKey "r4_classifier_" tag ∈ summaryKeys := by decide +kernel
    rw [Nat.le_min]
    constructor
    · exact h.le_of_increases (hkeys tag htag).1 (hkeys tag htag).2
        fun p hp hp' => ((htallied p hp).only tag htag hp').1
    · exact h.le_of_increases (hkeys tag htag).1 (by decide +kernel)
        fun p hp hp' => ((htallied p hp).only tag htag hp').2
  · -- each pass increases at most one of the counters of the results
    have hle := h.sum_le_length ["equal", "diff", "timeout", "error"] (by decide +kernel)
      fun p hp => (htallied p hp).results
    simpa [Nat.add_assoc, hlength] using hle
  · -- and at most one of those of EventRacer
    have hle := h.sum_le_length ["er_high", "er_normal", "er_low", "er_unknown"]
      (by decide +kernel) fun p hp => (htallied p hp).erClassified
    simpa [Nat.add_assoc, hlength] using hle
  · -- no pass has the misspelled tag
    rw [h.counters _ (by decide +kernel), List.countP_eq_zero]
    intro p hp
    rw [(htallied p hp).misspelled]
    exact Bool.false_ne_true

/-- The counters of a summary add up. A run of `process` that ends has finished a pass of the loop
    for each race, in which it compares that race or, where it could not be parsed, again the race
    of the pass before. The rows and counters are those of the passes. Each pass counts as high,
    normal or low; under a tag that makes a race high only if it is high, and under such a tag if
    it is; once at most under the results, and under EventRacer's classifications; and never under
    the misspelled tag. So the sums of the counters are related like that, too. -/
theorem totals_add_up {c : Comparer X} {files : StdString → RunDirectory}
    {erClassification : RaceData RaceContent → StdString × StdString} {races : List StdString}
    {totals : Totals (Distances X)}
    (h : process (Website.ofRuns c files erClassification) races = some totals) :
    ∃ praces, Passes (Website.ofRuns c files erClassification) races none praces ∧
      Counted totals praces ∧ (∀ p ∈ praces, Tallied p) ∧ AddsUp totals races := by
  obtain ⟨praces, hpasses, hcounted⟩ := process_counts h
  have htallied : ∀ p ∈ praces, Tallied p := by
    intro p hp
    obtain ⟨raceData, baseData, hprocessed⟩ := hpasses.processed p hp
    exact (judged_processRace hprocessed).tallied
  exact ⟨praces, hpasses, hcounted, htallied, hcounted.addsUp hpasses.length_eq htallied⟩

/-- A website with one race. -/
theorem totals_add_up_of_short :
    ∃ totals, process (Website.ofRuns plainComparer shortReplays fun _ => ("LOW".toList, []))
        ["race1".toList] = some totals ∧
      ∃ praces, Passes (Website.ofRuns plainComparer shortReplays fun _ => ("LOW".toList, []))
          ["race1".toList] none praces ∧
        Counted totals praces ∧ (∀ p ∈ praces, Tallied p) ∧ AddsUp totals ["race1".toList] := by
  -- the website has one race, whose base run and race are the short replays
  let website := Website.ofRuns plainComparer shortReplays fun _ => ("LOW".toList, [])
  obtain ⟨p, hp⟩ := exists_processRace_short fun _ => ("LOW".toList, [])
  have hrace := (shortReplay 8).parseRace_directory (w := website) "race1".toList
    (congrArg parseRaceFiles shortReplays_race) parseSchedule_short
  have hbase := (shortReplay 7).parseRace_directory (w := website) "base".toList
    (congrArg parseRaceFiles shortReplays_base) parseSchedule_short
  have horigin : parseOrigin website (some (Python.strip (decode (Utf8.encode "base".toList)))) =
      .ok ((shortReplay 7).raceData "base".toList [] noSchedules) := by
    rw [strip_shortOrigin]
    exact hbase
  -- the race can be parsed, and its pass ends
  have hreported : ∀ race ∈ ["race1".toList], Reported website race := by
    rw [List.forall_mem_singleton]
    exact ⟨_, _, p, hrace, horigin, hp⟩
  obtain ⟨summary, praces, hrun, -⟩ := processRaces_of_reported hreported none initialSummary
    (fun key hkey => by
      rw [get?_initialSummary hkey]
      rfl) []
  exact ⟨_, hrun, totals_add_up hrun⟩

end R4.ReportReader
