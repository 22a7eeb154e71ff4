import R4.Spec.UrlScore

/-!
# What fuzzy matching chooses

The candidates of an item are the waiting event actions of its type whose parameters are equal as
numbers. Some of these parameters are words, `true` and `false` of a timer and `Async` and
`InOrder` of a script, and all words are the number 0; and the URL of a candidate counts half when
the item has a parent, so the parent alone makes a candidate. So the best candidate need not
qualify, and a candidate that qualifies need not have a score.

## Key results

- `bestCandidate_first`: the first of the best candidates is chosen
- `fuzzy_choice_iff`: when a qualifying candidate is chosen if there is one
-/

namespace R4

open StdString

namespace ReplayScheduler

open FuzzyUrlMatcher (ParsedUrl)

variable {W U : Type} [QUrlMethods U]

/-! ## The choice -/

/-- What the fuzzy stage chooses for the item `d` among the waiting names, if anything. -/
def fuzzyChoice (env : ReplayEnv W) (d : EventActionDescriptor) (names : List StdString) :
    Option (Option EventActionDescriptor) := do
  let key ← fuzzyKey d.type d
  let (bestScore, best) ← bestCandidate env d.type key names 0 .null
  return if bestScore > 0 then some best else none

/-- The fuzzy stage runs what is chosen, and only that. -/
theorem tryFuzzy_cases {env : ReplayEnv W} {originalId : EventActionId} {d : EventActionDescriptor}
    {s s' : ReplayScheduler W} {found : Bool}
    (h : s.tryFuzzy env originalId d = some (found, s')) :
    fuzzyChoice env d (env.getWaitingNames s.world) = some none ∧ found = false ∧ s' = s ∨
    ∃ best details, fuzzyChoice env d (env.getWaitingNames s.world) = some (some best) ∧
      (s.report env "Event action fuzzy matched in best effort mode." details).runUnder env
        originalId best = some (found, s') := by
  simp only [tryFuzzy, Option.bind_eq_bind, Option.bind_eq_some_iff] at h
  obtain ⟨key, hkey, ⟨bestScore, best⟩, hbest, h⟩ := h
  have hchoice : fuzzyChoice env d (env.getWaitingNames s.world) =
      some (if bestScore > 0 then some best else none) := by
    simp only [fuzzyChoice, hkey, hbest, Option.bind_eq_bind, Option.bind_some, Option.pure_def]
  rw [hchoice]
  split at h
  · rename_i hpos
    exact Or.inr ⟨best, _, by rw [if_pos hpos], h⟩
  · rename_i hzero
    simp only [Option.pure_def, Option.some.injEq, Prod.mk.injEq] at h
    exact Or.inl ⟨by rw [if_neg hzero], h.1.symm, h.2.symm⟩

/-- The name at a place of the waiting names is that of the event action. -/
def WaitsAt (names : List StdString) (i : Nat) (c : EventActionDescriptor) : Prop :=
  names[i]?.bind EventActionDescriptor.deserialize = some c

/-- The parameters that have to be equal, apart from the URL and the parent of a timer. -/
def discriminating (type : StdString) : List Nat :=
  if type = "Network".toList then [1, 2]
  else if type = "HTMLDocumentParser".toList then [1]
  else if type = "DOMTimer".toList then [1, 2, 3, 5]
  else if type = "ScriptRunner".toList then [1, 2]
  else []

/-- A waiting event action qualifies for the item `d`: it has the same type, a URL that matches,
    and equal texts where it matters. -/
def Qualifies (parse : StdString → U) (d c : EventActionDescriptor) : Prop :=
  c.type = d.type ∧
  (∃ url other, d.getParameter 0 = some url ∧ c.getParameter 0 = some other ∧
    FuzzyUrlMatcher.score (parse url) (parse other) ≠ FuzzyUrlMatcher.mismatch) ∧
  ∀ i ∈ discriminating d.type, c.getParameter i = d.getParameter i

/-- The descriptors have the parameters that are read: anything else is a failed assertion. -/
structure Readable (d : EventActionDescriptor) (names : List StdString) : Prop where
  item : (fuzzyKey d.type d).isSome
  candidates : ∀ name ∈ names, ∃ c, EventActionDescriptor.deserialize name = some c ∧
    (c.type = d.type → (fuzzyKey d.type c).isSome)

/-- The choice is right: what is chosen qualifies, and something is chosen if anything
    qualifies. -/
def ChoosesQualifying (env : ReplayEnv W) (parse : StdString → U)
    (d : EventActionDescriptor) (names : List StdString) : Prop :=
  ∃ choice, fuzzyChoice env d names = some choice ∧
    (∀ best, choice = some best → (∃ i, WaitsAt names i best) ∧ Qualifies parse d best) ∧
    ((∃ i c, WaitsAt names i c ∧ Qualifies parse d c) → choice.isSome)

/-! ## Ranks -/

/-- Parameter `i`, read as a number. -/
def number (d : EventActionDescriptor) (i : Nat) : Nat := ((d.getParameter i).map toULong).getD 0

/-- The parent of a timer, 0 for anything else. -/
def parentNumber (type : StdString) (d : EventActionDescriptor) : Nat :=
  if type = "DOMTimer".toList then number d 4 else 0

/-- The score of the URLs, and for a timer with a parent half of it, and half of the largest score
    for the same parent. -/
def rank (parse : StdString → U) (d c : EventActionDescriptor) : Nat :=
  let score := FuzzyUrlMatcher.scoreText parse ((d.getParameter 0).getD [])
    ((c.getParameter 0).getD [])
  if parentNumber d.type d = 0 then score
  else score / 2 +
    if parentNumber d.type d = parentNumber d.type c then (2 ^ 32 - 1) / 2 else 0

/-- The waiting event action has the type of the item, parameters that are equal as numbers, and a
    positive rank. -/
def Competes (parse : StdString → U) (d c : EventActionDescriptor) : Prop :=
  c.type = d.type ∧ (∀ i ∈ discriminating d.type, number c i = number d i) ∧ 0 < rank parse d c

/-- Whatever competes without qualifying is outranked, or comes behind one of the same rank; and
    if anything qualifies, something competes. -/
def QualifyingPrevail (parse : StdString → U) (d : EventActionDescriptor)
    (names : List StdString) : Prop :=
  (∀ i c, WaitsAt names i c → Competes parse d c → ¬Qualifies parse d c →
    ∃ j c', WaitsAt names j c' ∧ Competes parse d c' ∧
      (rank parse d c < rank parse d c' ∨ rank parse d c = rank parse d c' ∧ j < i)) ∧
  ((∃ i c, WaitsAt names i c ∧ Qualifies parse d c) → ∃ i c, WaitsAt names i c ∧
    Competes parse d c)

/-- `sequenceNumber1` to `sequenceNumber5`, when the parameters can be read. -/
def sequence (type : StdString) (d : EventActionDescriptor) (i : Nat) : Nat :=
  if hasSequenceNumber type i then number d i else 0

/-- A sequence number that can be read. -/
theorem sequenceNumber_eq_some {type : StdString} {d : EventActionDescriptor} {i n : Nat}
    (h : sequenceNumber type d i = some n) : n = sequence type d i := by
  unfold sequenceNumber at h
  unfold sequence number
  split
  · rename_i hhas
    rw [if_pos hhas] at h
    rw [h, Option.getD_some]
  · rename_i hhas
    rw [if_neg hhas] at h
    exact (Option.some.inj h).symm

/-- The fields of a key that can be read. -/
theorem fuzzyKey_eq_some {type : StdString} {d : EventActionDescriptor} {key : FuzzyKey}
    (h : fuzzyKey type d = some key) : d.getParameter 0 = some key.url ∧
      key = ⟨key.url, sequence type d 1, sequence type d 2, sequence type d 3, sequence type d 4,
        sequence type d 5⟩ := by
  simp only [fuzzyKey, Option.bind_eq_bind, Option.bind_eq_some_iff, Option.pure_def,
    Option.some.injEq] at h
  obtain ⟨url, hurl, n₁, h₁, n₂, h₂, n₃, h₃, n₄, h₄, n₅, h₅, rfl⟩ := h
  rw [sequenceNumber_eq_some h₁, sequenceNumber_eq_some h₂, sequenceNumber_eq_some h₃,
    sequenceNumber_eq_some h₄, sequenceNumber_eq_some h₅]
  exact ⟨hurl, rfl⟩

/-- The numbers that are compared are those of the discriminating parameters. -/
theorem mem_discriminating_iff {type : StdString} {i : Nat} (hi : i ∈ [1, 2, 3, 5]) :
    i ∈ discriminating type ↔ hasSequenceNumber type i = true := by
  simp only [List.mem_cons, List.not_mem_nil, or_false] at hi
  unfold discriminating
  split
  · -- network events
    rename_i htype
    subst htype
    rcases hi with rfl | rfl | rfl | rfl <;> decide
  · split
    · -- parser events
      rename_i htype
      subst htype
      rcases hi with rfl | rfl | rfl | rfl <;> decide
    · split
      · -- timers
        rename_i htype
        subst htype
        rcases hi with rfl | rfl | rfl | rfl <;> decide
      · split
        · -- script runners
          rename_i htype
          subst htype
          rcases hi with rfl | rfl | rfl | rfl <;> decide
        · -- the other types have no numbers
          rename_i hnetwork hparser htimer hrunner
          rcases hi with rfl | rfl | rfl | rfl <;>
            simp only [hasSequenceNumber, Bool.or_eq_true, beq_iff_eq, hnetwork, hparser, htimer,
              hrunner, or_self, List.not_mem_nil]

/-- The fields that discriminate are numbers. -/
theorem mem_of_mem_discriminating {type : StdString} {i : Nat} (h : i ∈ discriminating type) :
    i ∈ [1, 2, 3, 5] := by
  unfold discriminating at h
  repeat' split at h
  all_goals revert h; simp; try omega

/-- The numbers of a candidate are those of the item where they are compared. -/
theorem sameNumbers_iff (type : StdString) (d c : EventActionDescriptor) :
    (∀ i ∈ discriminating type, number c i = number d i) ↔
      ∀ i ∈ [1, 2, 3, 5], sequence type c i = sequence type d i := by
  constructor
  · intro h i hi
    unfold sequence
    split
    · rename_i hhas
      exact h i ((mem_discriminating_iff hi).mpr hhas)
    · rfl
  · intro h i hi
    have hmem := mem_of_mem_discriminating hi
    have hhas := (mem_discriminating_iff hmem).mp hi
    have hsame := h i hmem
    rwa [sequence, sequence, if_pos hhas, if_pos hhas] at hsame

/-- The fourth number is that of the parent. -/
theorem sequence_four (type : StdString) (d : EventActionDescriptor) :
    sequence type d 4 = parentNumber type d := by
  simp only [sequence, hasSequenceNumber, beq_iff_eq, parentNumber]

/-- The score of a candidate is its rank if it competes, and 0 otherwise. -/
theorem candidateScore_eq {env : ReplayEnv W} {parse : StdString → U}
    (hscore : env.score = FuzzyUrlMatcher.scoreText parse) {d c : EventActionDescriptor}
    {next : FuzzyKey} (hnext : fuzzyKey d.type d = some next)
    (hkey : c.type = d.type → (fuzzyKey d.type c).isSome) :
    ∃ score, candidateScore env d.type next c = some score ∧
      (0 < score ↔ Competes parse d c) ∧ (Competes parse d c → score = rank parse d c) := by
  unfold candidateScore Competes
  by_cases htype : c.type = d.type
  · -- the type is the same, so the key can be read
    obtain ⟨key, hkey⟩ := Option.isSome_iff_exists.mp (hkey htype)
    obtain ⟨hurl, hnumbers⟩ := fuzzyKey_eq_some hkey
    obtain ⟨hurl', hnumbers'⟩ := fuzzyKey_eq_some hnext
    rw [if_neg (not_not.mpr htype), hkey, Option.map_some, hnumbers, hnumbers']
    refine ⟨_, rfl, ?_⟩
    dsimp only
    -- the score counts half for the URL and half for the parent, if there is one
    have hrank : rank parse d c = if parentNumber d.type d ≠ 0 then
        env.score next.url key.url / 2 +
          (if parentNumber d.type d = parentNumber d.type c then (2 ^ 32 - 1) / 2 else 0)
        else env.score next.url key.url := by
      simp only [rank, hurl, hurl', Option.getD_some, hscore, ne_eq, ite_not]
    -- the numbers agree
    by_cases hsame : ∀ i ∈ discriminating d.type, number c i = number d i
    · have hequal := (sameNumbers_iff d.type d c).mp hsame
      simp only [List.mem_cons, List.not_mem_nil, or_false, forall_eq_or_imp, forall_eq] at hequal
      rw [if_neg (by tauto), sequence_four, sequence_four, ← hrank]
      exact ⟨⟨fun hpos => ⟨htype, hsame, hpos⟩, fun h => h.2.2⟩, fun _ => rfl⟩
    · -- they do not, and there is no score
      have hdiffer := mt (sameNumbers_iff d.type d c).mpr hsame
      simp only [List.mem_cons, List.not_mem_nil, or_false, forall_eq_or_imp, forall_eq] at hdiffer
      rw [if_pos (by tauto)]
      exact ⟨⟨fun hpos => absurd hpos (Nat.lt_irrefl 0), fun h => absurd h.2.1 hsame⟩,
        fun h => absurd h.2.1 hsame⟩
  · -- another type has no score
    rw [if_pos htype]
    exact ⟨0, rfl, ⟨fun hpos => absurd hpos (Nat.lt_irrefl 0), fun h => absurd h.1 htype⟩,
      fun h => absurd h.1 htype⟩

/-! ## The first of the best -/

/-- The loop over the names keeps the first of the best candidates, if it is better than what it
    started with. -/
theorem bestCandidate_first {env : ReplayEnv W} {type : StdString} {next : FuzzyKey}
    {names : List StdString} (hnames : ∀ name ∈ names, ∃ c score,
      EventActionDescriptor.deserialize name = some c ∧
        candidateScore env type next c = some score)
    (bestScore : Nat) (best : EventActionDescriptor) :
    ∃ score c, bestCandidate env type next names bestScore best = some (score, c) ∧
      (score = bestScore ∧ c = best ∨
        bestScore < score ∧ ∃ i, WaitsAt names i c ∧ candidateScore env type next c = some score ∧
          ∀ j < i, ∀ c' score', WaitsAt names j c' →
            candidateScore env type next c' = some score' → score' < score) ∧
      ∀ j c' score', WaitsAt names j c' → candidateScore env type next c' = some score' →
        score' ≤ score := by
  induction names generalizing bestScore best with
  | nil => exact ⟨bestScore, best, rfl, Or.inl ⟨rfl, rfl⟩, by simp [WaitsAt]⟩
  | cons name names ih =>
    obtain ⟨c₀, score₀, hc₀, hscore₀⟩ := hnames name List.mem_cons_self
    have hzero : ∀ {c}, WaitsAt (name :: names) 0 c ↔ c = c₀ := by
      simp [WaitsAt, hc₀, eq_comm]
    have hsucc : ∀ {j c}, WaitsAt (name :: names) (j + 1) c ↔ WaitsAt names j c := by
      simp [WaitsAt]
    -- the first name is taken, or what there was is kept
    obtain ⟨b, d, hstep, htaken, hle⟩ : ∃ b d,
        bestCandidate env type next (name :: names) bestScore best =
          bestCandidate env type next names b d ∧
        (b = bestScore ∧ d = best ∨ bestScore < b ∧ b = score₀ ∧ d = c₀) ∧ score₀ ≤ b := by
      simp only [bestCandidate, hc₀, hscore₀, Option.bind_eq_bind, Option.bind_some]
      split
      · rename_i hbetter
        exact ⟨score₀, c₀, rfl, Or.inr ⟨hbetter, rfl, rfl⟩, Nat.le_refl _⟩
      · exact ⟨bestScore, best, rfl, Or.inl ⟨rfl, rfl⟩, by omega⟩
    obtain ⟨score, c, hbest, hchosen, hmax⟩ :=
      ih (fun n hn => hnames n (List.mem_cons_of_mem _ hn)) b d
    refine ⟨score, c, hstep.trans hbest, ?_, ?_⟩
    · rcases hchosen with ⟨rfl, rfl⟩ | ⟨hlt, i, hi, hscore, hfirst⟩
      · rcases htaken with hkept | ⟨hlt, rfl, rfl⟩
        · exact Or.inl hkept
        · exact Or.inr ⟨hlt, 0, hzero.mpr rfl, hscore₀, fun j hj => absurd hj (Nat.not_lt_zero j)⟩
      · refine Or.inr ⟨by omega, i + 1, hsucc.mpr hi, hscore, fun j hj c' score' hc' hscore' => ?_⟩
        cases j with
        | zero =>
          obtain rfl := hzero.mp hc'
          obtain rfl := Option.some.inj (hscore₀.symm.trans hscore')
          omega
        | succ j => exact hfirst j (by omega) c' score' (hsucc.mp hc') hscore'
    · intro j c' score' hc' hscore'
      cases j with
      | zero =>
        obtain rfl := hzero.mp hc'
        obtain rfl := Option.some.inj (hscore₀.symm.trans hscore')
        rcases hchosen with ⟨rfl, -⟩ | ⟨hlt, -⟩
        · exact hle
        · omega
      | succ j => exact hmax j c' score' (hsucc.mp hc') hscore'

/-- A qualifying candidate is chosen if there is one, and nothing else is ever chosen, exactly if
    whatever competes without qualifying is outranked, and something competes if anything
    qualifies. -/
theorem fuzzy_choice_iff {env : ReplayEnv W} {parse : StdString → U}
    (hscore : env.score = FuzzyUrlMatcher.scoreText parse) {d : EventActionDescriptor}
    {names : List StdString} (readable : Readable d names) :
    ChoosesQualifying env parse d names ↔ QualifyingPrevail parse d names := by
  obtain ⟨key, hkey⟩ := Option.isSome_iff_exists.mp readable.item
  -- the score of every waiting event action
  have hwaits : ∀ {i c}, WaitsAt names i c → ∃ score, candidateScore env d.type key c = some score ∧
      (0 < score ↔ Competes parse d c) ∧ (Competes parse d c → score = rank parse d c) := by
    intro i c hc
    obtain ⟨name, hname, hdeserialize⟩ := Option.bind_eq_some_iff.mp hc
    obtain ⟨c', hc', hread⟩ := readable.candidates name (List.mem_of_getElem? hname)
    obtain rfl := Option.some.inj (hc'.symm.trans hdeserialize)
    exact candidateScore_eq hscore hkey hread
  have hnames : ∀ name ∈ names, ∃ c score, EventActionDescriptor.deserialize name = some c ∧
      candidateScore env d.type key c = some score := by
    intro name hname
    obtain ⟨c, hc, hread⟩ := readable.candidates name hname
    obtain ⟨score, hcandidate, -⟩ := candidateScore_eq hscore hkey hread
    exact ⟨c, score, hc, hcandidate⟩
  obtain ⟨bestScore, best, hbest, hchosen, hmax⟩ := bestCandidate_first hnames 0 .null
  have hchoice : fuzzyChoice env d names = some (if bestScore > 0 then some best else none) := by
    simp only [fuzzyChoice, hkey, hbest, Option.bind_eq_bind, Option.bind_some, Option.pure_def]
  -- nothing that competes ranks higher than what is chosen
  have hcompetes : ∀ {i c}, WaitsAt names i c → Competes parse d c →
      rank parse d c ≤ bestScore ∧ candidateScore env d.type key c = some (rank parse d c) := by
    intro i c hc hcompete
    obtain ⟨score, hcandidate, -, hrank⟩ := hwaits hc
    obtain rfl := hrank hcompete
    exact ⟨hmax i c _ hc hcandidate, hcandidate⟩
  have hprevail : bestScore > 0 → ∃ i, WaitsAt names i best ∧ Competes parse d best ∧
      rank parse d best = bestScore ∧ ∀ j < i, ∀ c, WaitsAt names j c → Competes parse d c →
        rank parse d c < bestScore := by
    intro hpos
    rcases hchosen with ⟨rfl, -⟩ | ⟨-, i, hi, hcandidate, hfirst⟩
    · exact absurd hpos (Nat.lt_irrefl 0)
    · obtain ⟨score, hcandidate', hpositive, hrank⟩ := hwaits hi
      obtain rfl := Option.some.inj (hcandidate.symm.trans hcandidate')
      have hcompete := hpositive.mp hpos
      exact ⟨i, hi, hcompete, (hrank hcompete).symm, fun j hj c hc hcompete' =>
        hfirst j hj c _ hc (hcompetes hc hcompete').2⟩
  constructor
  · rintro ⟨choice, hthis, hqualifies, hsome⟩
    obtain rfl := Option.some.inj (hchoice.symm.trans hthis)
    constructor
    · intro i c hc hcompete hnot
      have hle := (hcompetes hc hcompete).1
      have hpos : bestScore > 0 := Nat.lt_of_lt_of_le hcompete.2.2 hle
      obtain ⟨j, hj, hcompete', hrank, hfirst⟩ := hprevail hpos
      have hbest := (hqualifies best (if_pos hpos)).2
      refine ⟨j, best, hj, hcompete', ?_⟩
      rcases Nat.lt_or_eq_of_le hle with hlt | heq
      · exact Or.inl (by omega)
      · refine Or.inr ⟨by omega, ?_⟩
        rcases Nat.lt_trichotomy i j with hlt | rfl | hlt
        · exact absurd (hfirst i hlt c hc hcompete) (by omega)
        · obtain rfl := Option.some.inj (hc.symm.trans hj)
          exact absurd hbest hnot
        · exact hlt
    · intro hexists
      have hpos : bestScore > 0 := by
        by_contra hzero
        have := hsome hexists
        rw [if_neg hzero] at this
        simp at this
      obtain ⟨i, hi, hcompete, -⟩ := hprevail hpos
      exact ⟨i, best, hi, hcompete⟩
  · rintro ⟨hbeaten, hexists⟩
    refine ⟨_, hchoice, ?_, ?_⟩
    · intro c hc
      by_cases hpos : bestScore > 0
      · rw [if_pos hpos, Option.some.injEq] at hc
        subst hc
        obtain ⟨i, hi, hcompete, hrank, hfirst⟩ := hprevail hpos
        refine ⟨⟨i, hi⟩, ?_⟩
        by_contra hnot
        obtain ⟨j, c, hc, hcompete', hbetter⟩ := hbeaten i best hi hcompete hnot
        have hle := (hcompetes hc hcompete').1
        rcases hbetter with hlt | ⟨heq, hlt⟩
        · omega
        · have := hfirst j hlt c hc hcompete'
          omega
      · simp [hpos] at hc
    · intro hqualify
      obtain ⟨i, c, hc, hcompete⟩ := hexists hqualify
      have hpos : bestScore > 0 :=
        Nat.lt_of_lt_of_le hcompete.2.2 (hcompetes hc hcompete).1
      rw [if_pos hpos]
      rfl

/-- A program whose register is empty, with the scores of `FuzzyUrlMatcher`. -/
def fuzzyRegister (parse : StdString → U) : ReplayEnv Unit where
  runEventAction _ _ _ _ w := some (false, w)
  getWaitingNames _ := []
  translateOldIdToNew _ id := id
  debugPrintNames _ := []
  hbAllocateEventActionId w := (1, w)
  actionLogStrictMode _ w := w
  warningCollectorSetCurrentEventAction _ w := w
  warningCollectorReport _ _ _ w := w
  score := FuzzyUrlMatcher.scoreText parse

/-- `http://a/`. -/
def urlOfHost : ParsedUrl := ⟨"a".toList, "/".toList, none, none⟩

/-- A timer of `http://a/` that fires again and again. -/
def intervalTimer : EventActionDescriptor :=
  .make .timer "DOMTimer".toList "http://a/,5,100,false,0,0".toList

/-- The same timer, but one that fires once. -/
def timeoutTimer : EventActionDescriptor :=
  .make .timer "DOMTimer".toList "http://a/,5,100,true,0,0".toList

/-- Timers can be read back from their names. -/
theorem readable_timers {timer : EventActionDescriptor}
    (htimer : EventActionDescriptor.deserialize timer.toString = some timer)
    (hkey : (fuzzyKey timeoutTimer.type timer).isSome) :
    Readable timeoutTimer [timer.toString] where
  item := by decide
  candidates := by
    intro name hname
    obtain rfl := List.mem_singleton.mp hname
    exact ⟨timer, htimer, fun _ => hkey⟩

/-- The only timer that waits is the one that is looked for. -/
theorem fuzzy_choice_of_timer :
    ChoosesQualifying (fuzzyRegister fun _ => urlOfHost) (fun _ => urlOfHost) timeoutTimer
      [timeoutTimer.toString] := by
  refine (fuzzy_choice_iff rfl (readable_timers (by decide) (by decide))).mpr ⟨?_, ?_⟩
  · intro i c hc hcompete hnot
    -- it qualifies
    obtain ⟨name, hname, hdeserialize⟩ := Option.bind_eq_some_iff.mp hc
    obtain rfl := List.mem_singleton.mp (List.mem_of_getElem? hname)
    obtain rfl : timeoutTimer = c :=
      Option.some.inj ((by decide : _ = some timeoutTimer).symm.trans hdeserialize)
    exact absurd ⟨rfl, ⟨_, _, rfl, rfl, by decide⟩, fun i _ => rfl⟩ hnot
  · intro _
    exact ⟨0, timeoutTimer, by unfold WaitsAt; decide, by unfold Competes; decide⟩

/-- A timer that fires once is matched with one that fires again and again. -/
theorem timeout_matched_with_interval :
    ¬∀ (parse : StdString → ParsedUrl) (d : EventActionDescriptor) (names : List StdString),
      isFuzzyType d.type = true → Readable d names →
        ChoosesQualifying (fuzzyRegister parse) parse d names := by
  intro h
  obtain ⟨choice, hchoice, hqualifies, -⟩ := h (fun _ => urlOfHost) timeoutTimer
    [intervalTimer.toString] (by decide) (readable_timers (by decide) (by decide))
  have hchosen : fuzzyChoice (fuzzyRegister fun _ => urlOfHost) timeoutTimer
      [intervalTimer.toString] = some (some intervalTimer) := by decide
  obtain rfl := Option.some.inj (hchosen.symm.trans hchoice)
  obtain ⟨-, -, hparameters⟩ := (hqualifies intervalTimer rfl).2
  exact absurd (hparameters 3 (by decide)) (by decide)

end ReplayScheduler

end R4
