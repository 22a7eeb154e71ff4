import R4.Spec.DispatchOrder
import R4.Spec.ReplayModes
import R4.Spec.ScheduleFile

/-!
# The history of a replay

A replay writes a schedule file too: the history of the event actions that it dispatched.
Every entry stands for one item of the schedule that is replayed, in the order in which the
items were consumed. For an item that was consumed before the second marker it is the item's own
descriptor, and for a later one it may be one that the item was matched with.

A recording has no markers, so what a replay of its file dispatches is what was recorded, in
the order of the recording, up to the ids and the translated parents of timers.

## Key results

- `records_runEventAction`: what an event action does to the history
- `standsFor_of_replayRuns`: the history and the consumed items go together
- `positions_of_finished`: where the event actions of the file are in the end
- `recording_replayed`: from the record run through its file to the end of the replay
-/

namespace R4.ReplayHistory

open DispatchOrder EventActionRegister ReplayScheduler

variable {O X : Type}

/-! ## What the register writes down -/

/-- An event action that has run is appended to the history, and one that has not run leaves
    it as it was. -/
def Records (entry : EventActionScheduleItem) (found : Bool) (w w' : Program O X) : Prop :=
  w'.1.dispatchHistory = w.1.dispatchHistory ++ if found then [entry] else []

/-- A provider that declined leaves no entry. -/
theorem Records.of_missed {entry : EventActionScheduleItem} {found : Bool} {w w₁ w' : Program O X}
    (h : Records entry false w w₁) (h' : Records entry found w₁ w') : Records entry found w w' := by
  rw [Records, h', h]
  simp

variable {address : O → Int}
  {call : O → EventActionDescriptor → Program O X → Option (Bool × Program O X)}

/-- At the end of the dispatch its entry is still the last one, and a declined one is removed. -/
theorem records_dispatch {w w₁ w₂ : Program O X} {r : EventActionRegister O} {e : HBState × X}
    {newId originalId : EventActionId} {d : EventActionDescriptor} {triggered : O} {found : Bool}
    (hstart : enterDispatch (hbPlatform address call) newId originalId d triggered w.1 w.2 =
      some w₁)
    (hcall : Effect false w₁ w₂) (hr : r.dispatchHistory = w₂.1.dispatchHistory) :
    Records (newId, d) found w (r.eventActionDispatchEnd found originalId, e) := by
  obtain ⟨_, -, rfl⟩ := Option.map_eq_some_iff.mp hstart
  have hkept : r.dispatchHistory = w.1.dispatchHistory ++ [(newId, d)] :=
    hr.trans (effect_keeps hcall).1
  cases found with
  | true => simp [Records, eventActionDispatchEnd, hkept]
  | false => simp [Records, eventActionDispatchEnd, hkept]

/-- The loop over the providers adds the entry of the event action, if one accepts. -/
theorem records_runProviders {w w' : Program O X} (acts : Acts false call)
    {newId originalId : EventActionId} (hnew : newId ≠ -1) {d : EventActionDescriptor}
    {providers : List (O × O)} {found : Bool}
    (h : runProviders (hbPlatform address call) newId originalId d providers w =
      some (found, w')) : Records (newId, d) found w w' := by
  induction providers generalizing w with
  | nil =>
    obtain ⟨rfl, rfl⟩ := Prod.mk.inj (Option.some.inj h)
    simp [Records]
  | cons e rest ih =>
    simp only [runProviders, runProvider, eventActionId, if_neg hnew, Option.bind_eq_bind,
      Option.bind_eq_some_iff, Option.pure_def, Option.some.injEq] at h
    obtain ⟨_, ⟨w₁, henter, ⟨done, w₂⟩, hcall, env, -, rfl⟩, h⟩ := h
    have hrecords : Records (newId, d) done w (w₂.1.eventActionDispatchEnd done originalId, env) :=
      records_dispatch henter (acts _ _ _ _ _ hcall) rfl
    -- a provider that declines leaves the history as it was, and the next one is offered
    cases done with
    | true =>
      obtain ⟨rfl, rfl⟩ := Prod.mk.inj (Option.some.inj h)
      exact hrecords
    | false => exact hrecords.of_missed (ih h)

/-- So does a handler that was registered. -/
theorem records_runHandler {w w' : Program O X} (acts : Acts false call)
    {newId originalId : EventActionId} (hnew : newId ≠ -1) {d : EventActionDescriptor}
    {found : Bool}
    (h : runHandler (hbPlatform address call) newId originalId d w = some (found, w')) :
    Records (newId, d) found w w' := by
  unfold runHandler at h
  split at h
  · obtain ⟨rfl, rfl⟩ := Prod.mk.inj (Option.some.inj h)
    simp [Records]
  · simp at h
  · simp only [eventActionId, if_neg hnew, Option.bind_eq_bind, Option.bind_eq_some_iff,
      Option.pure_def, Option.some.injEq, Prod.mk.injEq] at h
    obtain ⟨w₁, henter, ⟨done, w₂⟩, hcall, r, hpop, e, -, rfl, rfl⟩ := h
    exact records_dispatch henter (acts _ _ _ _ _ hcall) (popHandler_history hpop)

/-- What running an event action under a preallocated id does to the history. -/
theorem records_runEventAction {w w' : Program O X} (acts : Acts false call)
    {newId originalId : EventActionId} (hnew : newId ≠ -1) {d : EventActionDescriptor}
    {found : Bool}
    (h : runEventAction (hbPlatform address call) newId originalId d w = some (found, w')) :
    Records (newId, d) found w w' := by
  simp only [runEventAction, Option.bind_eq_bind, Option.bind_eq_some_iff] at h
  obtain ⟨⟨handled, w₁⟩, hproviders, h⟩ := h
  have hrecords := records_runProviders acts hnew hproviders
  cases handled with
  | true =>
    obtain ⟨rfl, rfl⟩ := Prod.mk.inj (Option.some.inj h)
    exact hrecords
  | false => exact hrecords.of_missed (records_runHandler acts hnew h)

/-! ## Which descriptor runs for an item -/

/-- A descriptor that an item with descriptor `e` can be matched with: it is of the same type and
    has the same sequence numbers. The URL and the parent of a timer may differ. -/
structure Similar (e d : EventActionDescriptor) : Prop where
  fuzzyType : isFuzzyType e.type = true
  type : d.type = e.type
  numbers : ∀ i, i = 1 ∨ i = 2 ∨ i = 3 ∨ i = 5 →
    sequenceNumber e.type d i = sequenceNumber e.type e i

/-- The numbers of a key are those of the descriptor. -/
theorem fuzzyKey_numbers {type : StdString} {d : EventActionDescriptor} {key : FuzzyKey}
    (h : fuzzyKey type d = some key) :
    sequenceNumber type d 1 = some key.number1 ∧ sequenceNumber type d 2 = some key.number2 ∧
      sequenceNumber type d 3 = some key.number3 ∧ sequenceNumber type d 5 = some key.number5 := by
  simp only [fuzzyKey, Option.bind_eq_bind, Option.bind_eq_some_iff, Option.pure_def,
    Option.some.injEq] at h
  obtain ⟨url, -, n1, h1, n2, h2, n3, h3, n4, -, n5, h5, rfl⟩ := h
  exact ⟨h1, h2, h3, h5⟩

variable {W : Type}

/-- A candidate with a score is similar. -/
theorem similar_of_candidateScore {env : ReplayEnv W} {e d : EventActionDescriptor} {key : FuzzyKey}
    {score : Nat} (htype : isFuzzyType e.type = true) (hkey : fuzzyKey e.type e = some key)
    (h : candidateScore env e.type key d = some score) (hscore : 0 < score) : Similar e d := by
  unfold candidateScore at h
  split at h
  · -- the candidate has another type, and no score
    rw [← Option.some.inj h] at hscore
    exact absurd hscore (Nat.lt_irrefl 0)
  · rename_i hsame
    obtain ⟨key', hkey', h⟩ := Option.map_eq_some_iff.mp h
    -- a number differs, and there is no score
    split at h
    · rw [← h] at hscore
      exact absurd hscore (Nat.lt_irrefl 0)
    · -- the four numbers agree, each of them one that both texts have
      rename_i hnumbers
      simp only [not_or, not_not] at hnumbers
      obtain ⟨hn1, hn2, hn3, hn5⟩ := hnumbers
      obtain ⟨h1, h2, h3, h5⟩ := fuzzyKey_numbers hkey
      obtain ⟨h1', h2', h3', h5'⟩ := fuzzyKey_numbers hkey'
      refine ⟨htype, not_not.mp hsame, fun i hi => ?_⟩
      rcases hi with rfl | rfl | rfl | rfl
      · rw [h1', h1, hn1]
      · rw [h2', h2, hn2]
      · rw [h3', h3, hn3]
      · rw [h5', h5, hn5]

/-- So is the best one, if it has a score. -/
theorem similar_of_bestCandidate {env : ReplayEnv W} {e d best : EventActionDescriptor}
    {key : FuzzyKey} {names : List StdString} {score bestScore : Nat}
    (htype : isFuzzyType e.type = true) (hkey : fuzzyKey e.type e = some key)
    (hd : 0 < score → Similar e d)
    (h : bestCandidate env e.type key names score d = some (bestScore, best)) :
    0 < bestScore → Similar e best := by
  induction names generalizing score d with
  | nil =>
    obtain ⟨rfl, rfl⟩ := Prod.mk.inj (Option.some.inj h)
    exact hd
  | cons name names ih =>
    simp only [bestCandidate, Option.bind_eq_bind, Option.bind_eq_some_iff] at h
    obtain ⟨candidate, -, score', hscore', h⟩ := h
    split at h
    · exact ih (similar_of_candidateScore htype hkey hscore') h
    · exact ih hd h

/-! ## One call of the scheduler -/

/-- The history of the program that is replayed in. -/
def history (s : ReplayScheduler (Program O X)) : List EventActionScheduleItem :=
  s.world.1.dispatchHistory

/-- The items that are event actions, each with the number of markers before it; `n` stand before
    the first item. -/
def markEvents : Nat → List ReplayItem → List (ReplayItem × Nat)
  | _, [] => []
  | n, x :: xs => if x.descriptor.isNull then markEvents (n + 1) xs else (x, n) :: markEvents n xs

/-- One more item is behind the markers that are among the others. -/
theorem markEvents_append (n : Nat) (xs : List ReplayItem) (x : ReplayItem) :
    markEvents n (xs ++ [x]) = markEvents n xs ++
      if x.descriptor.isNull then [] else [(x, n + xs.countP fun y => y.descriptor.isNull)] := by
  induction xs generalizing n with
  | nil =>
    rw [List.nil_append, markEvents, markEvents, markEvents, List.countP_nil, Nat.add_zero,
      List.nil_append]
    rfl
  | cons y xs ih =>
    rw [List.cons_append, markEvents, markEvents, List.countP_cons]
    split
    · rw [ih, Nat.add_right_comm, Nat.add_assoc]
    · rw [ih, Nat.add_zero, List.cons_append]

/-- Marking events leaves them in their order. -/
theorem map_fst_markEvents (n : Nat) (xs : List ReplayItem) :
    (markEvents n xs).map Prod.fst = xs.filter fun x => !x.descriptor.isNull := by
  induction xs generalizing n with
  | nil => rfl
  | cons x xs ih =>
    rw [markEvents]
    split
    · rename_i hx
      rw [ih, List.filter_cons_of_neg (by simp [hx])]
    · rename_i hx
      rw [List.map_cons, ih, List.filter_cons_of_pos (by simp [hx])]

/-- No more markers stand before an item than there are. -/
theorem le_of_mem_markEvents {n : Nat} {xs : List ReplayItem} {x : ReplayItem × Nat}
    (h : x ∈ markEvents n xs) : x.2 ≤ n + xs.countP fun y => y.descriptor.isNull := by
  induction xs generalizing n with
  | nil => exact absurd h List.not_mem_nil
  | cons y xs ih =>
    rw [markEvents] at h
    rw [List.countP_cons]
    split at h
    · -- a marker raises the number of those that come behind it
      rename_i hy
      have := ih h
      rw [if_pos hy]
      omega
    · -- the event itself, or one behind it
      rcases List.mem_cons.mp h with rfl | h
      · exact Nat.le_add_right _ _
      · have := ih h
        omega

/-- The consumed items that are event actions, each with the number of markers that were consumed
    before it. -/
def markedEvents (s : ReplayScheduler W) : List (ReplayItem × Nat) := markEvents 0 s.consumed

/-- The consumed items that are event actions. -/
def events (s : ReplayScheduler W) : List ReplayItem := (markedEvents s).map Prod.fst

/-- The events are the consumed items that are no markers. -/
theorem events_eq (s : ReplayScheduler W) :
    events s = s.consumed.filter fun x => !x.descriptor.isNull := map_fst_markEvents 0 s.consumed

/-- An event that is consumed is marked with the number of markers before it. -/
theorem markedEvents_append {s s' : ReplayScheduler W} {x : ReplayItem}
    (hx : x.descriptor.isNull = false) (h : s'.consumed = s.consumed ++ [x]) :
    markedEvents s' = markedEvents s ++ [(x, s.markersConsumed)] := by
  rw [markedEvents, h, markEvents_append, if_neg (by simp [hx]), Nat.zero_add]
  rfl

/-- An attempt on an item: an entry is written for the item's own descriptor, or in best effort
    mode for a similar one, if it succeeds. -/
structure Tried (e : EventActionDescriptor) (found : Bool) (s s' : ReplayScheduler (Program O X)) :
    Prop where
  history : ∃ d, (d = e ∨ s.mode = .bestEffort ∧ Similar e d) ∧
    history s' = history s ++ if found then [(s.nextEventActionId, d)] else []
  next : found = false → s'.nextEventActionId = s.nextEventActionId

variable {p : ProgramEnv O X} (acts : ∀ providers, Acts false (p.call providers))
include acts

/-- Running an event action adds its entry to the history, if it is found. -/
theorem history_runUnder {s s' : ReplayScheduler (Program O X)} {originalId : EventActionId}
    {d : EventActionDescriptor} {found : Bool} (hnew : s.nextEventActionId ≠ -1)
    (h : s.runUnder p.replayEnv originalId d = some (found, s')) :
    history s' = history s ++ (if found then [(s.nextEventActionId, d)] else []) ∧
      s'.nextEventActionId = s.nextEventActionId := by
  obtain ⟨hrun, hnext⟩ := runUnder_eq_some h
  exact ⟨records_runEventAction (acts _) hnew hrun, hnext⟩

/-- The exact attempt, and the fuzzy one after it. -/
theorem tried_tryDescriptor {s s' : ReplayScheduler (Program O X)} {originalId : EventActionId}
    {e : EventActionDescriptor} {found : Bool} (hnew : s.nextEventActionId ≠ -1)
    (h : s.tryDescriptor p.replayEnv originalId e = some (found, s')) : Tried e found s s' := by
  simp only [tryDescriptor, Option.bind_eq_bind, Option.bind_eq_some_iff] at h
  obtain ⟨⟨found₁, s₁⟩, h₁, ⟨found₂, s₂⟩, h₂, h⟩ := h
  obtain ⟨hexact, hnext⟩ := history_runUnder acts hnew h₁
  have hmode : s₁.mode = s.mode := (frame_runUnder h₁).mode
  -- what has been written when both stages are over
  have hstages : (∃ d, (d = e ∨ s.mode = .bestEffort ∧ Similar e d) ∧
      history s₂ = history s ++ if found₂ then [(s.nextEventActionId, d)] else []) ∧
      s₂.nextEventActionId = s.nextEventActionId := by
    unfold fuzzyStage at h₂
    split at h₂
    · rename_i hstage
      obtain ⟨hmissed, -, hbest, hfuzzy⟩ := hstage
      obtain rfl : found₁ = false := hmissed
      simp only [tryFuzzy, Option.bind_eq_bind, Option.bind_eq_some_iff] at h₂
      obtain ⟨key, hkey, ⟨bestScore, best⟩, hcandidate, h₂⟩ := h₂
      rw [if_neg Bool.false_ne_true, List.append_nil] at hexact
      split at h₂
      · rename_i hscore
        have hsimilar : Similar e best := similar_of_bestCandidate hfuzzy hkey
          (fun h => absurd h (Nat.lt_irrefl 0)) hcandidate hscore
        obtain ⟨hrun, hnext'⟩ := history_runUnder acts (by exact hnext ▸ hnew) h₂
        refine ⟨⟨best, .inr ⟨hmode ▸ hbest, hsimilar⟩, ?_⟩, hnext'.trans hnext⟩
        rw [hrun, ← hexact, ← hnext]
        rfl
      · obtain ⟨rfl, rfl⟩ := Prod.mk.inj (Option.some.inj h₂)
        exact ⟨⟨e, .inl rfl, by simp [hexact]⟩, hnext⟩
    · obtain ⟨rfl, rfl⟩ := Prod.mk.inj (Option.some.inj h₂)
      exact ⟨⟨e, .inl rfl, hexact⟩, hnext⟩
  obtain ⟨⟨d, hd, hhistory⟩, hnext'⟩ := hstages
  cases found₂ with
  | true =>
    obtain ⟨rfl, rfl⟩ := Prod.mk.inj (Option.some.inj h)
    exact ⟨⟨d, hd, hhistory⟩, fun hmissed => absurd hmissed (by decide)⟩
  | false =>
    obtain ⟨rfl, rfl⟩ := Prod.mk.inj (Option.some.inj h)
    exact ⟨⟨d, hd, hhistory⟩, fun _ => hnext'⟩

/-- An attempt on a stored item, which is patched where it is stored. -/
theorem tried_tryExecute {s s' : ReplayScheduler (Program O X)} {x x' : ReplayItem} {found : Bool}
    {inPlace : ReplayItem → ReplayScheduler (Program O X) → ReplayScheduler (Program O X)}
    (hplace : ∀ y t, (inPlace y t).world = t.world ∧ (inPlace y t).mode = t.mode ∧
      (inPlace y t).nextEventActionId = t.nextEventActionId)
    (hnull : x.descriptor.isNull = false) (hnew : s.nextEventActionId ≠ -1)
    (h : s.tryExecuteEventActionDescriptor p.replayEnv inPlace x = some (found, x', s')) :
    Tried x'.descriptor found s s' := by
  simp only [tryExecuteEventActionDescriptor, hnull, Bool.false_eq_true, if_false,
    Option.bind_eq_bind, Option.bind_eq_some_iff, Option.pure_def, Option.some.injEq,
    Prod.mk.injEq] at h
  obtain ⟨d, -, ⟨found', s₁⟩, htry, rfl, rfl, rfl⟩ := h
  -- the warnings get their event action, which is no concern of the history
  let s₀ : ReplayScheduler (Program O X) := { s with
    world := p.replayEnv.warningCollectorSetCurrentEventAction s.nextEventActionId s.world }
  obtain ⟨hworld, hmode, hnext⟩ := hplace { x with descriptor := d } s₀
  have htried := tried_tryDescriptor acts (fun hnone => hnew (hnext.symm.trans hnone)) htry
  obtain ⟨⟨d', hd', hhistory⟩, hkept⟩ := htried
  refine ⟨⟨d', hmode ▸ hd', ?_⟩, fun hmissed => (hkept hmissed).trans hnext⟩
  rw [hhistory, hnext, history, hworld]
  rfl

/-- What a call does to the history and to the consumed event actions. -/
inductive Appends (s s' : ReplayScheduler (Program O X)) : Prop where
  | nothing (h : history s' = history s) (hevents : markedEvents s' = markedEvents s)
  | entry (x : ReplayItem) (d : EventActionDescriptor)
      (hd : d = x.descriptor ∨ s.mode = .bestEffort ∧ Similar x.descriptor d)
      (h : history s' = history s ++ [(s.nextEventActionId, d)])
      (hevents : markedEvents s' = markedEvents s ++ [(x, s.markersConsumed)])

/-- The loop over the backlog. -/
theorem appends_tryBacklog {s s' : ReplayScheduler (Program O X)} {done todo : List ReplayItem}
    {success : Bool} (hnull : ∀ x ∈ todo, x.descriptor.isNull = false)
    (hnew : s.nextEventActionId ≠ -1)
    (h : tryBacklog p.replayEnv done todo s = some (success, s')) :
    if success then Appends s s'
    else history s' = history s ∧ s'.nextEventActionId = s.nextEventActionId ∧
      s'.mode = s.mode ∧ s'.consumed = s.consumed := by
  induction todo generalizing done s with
  | nil =>
    obtain ⟨rfl, rfl⟩ := Prod.mk.inj (Option.some.inj h)
    simp
  | cons x rest ih =>
    have hx := hnull x List.mem_cons_self
    simp only [tryBacklog, Option.bind_eq_bind, Option.bind_eq_some_iff] at h
    obtain ⟨⟨found, x', s₁⟩, htry, h⟩ := h
    -- switching strict mode off and on is no concern of the history
    obtain ⟨⟨d, hd, hhistory⟩, hnext⟩ :=
      tried_tryExecute acts (by exact fun _ _ => ⟨rfl, rfl, rfl⟩) hx (by exact hnew) htry
    obtain ⟨hn, -⟩ | ⟨-, hattempted, w, hframe⟩ := tryExecute_cases htry
    · rw [hx] at hn
      exact absurd hn (by decide)
    have hconsumed : s₁.consumed = s.consumed := hframe.consumed
    have hmode : s₁.mode = s.mode := hframe.mode
    cases found with
    | true =>
      obtain ⟨rfl, rfl⟩ := Prod.mk.inj (Option.some.inj h)
      have hmarkers : s₁.markersConsumed = s.markersConsumed := by
        rw [markersConsumed, markersConsumed, hconsumed]
      refine .entry x' d hd hhistory ?_
      rw [markedEvents_append (s := s₁) (hattempted.isNull.trans hx) rfl, hmarkers, markedEvents,
        markedEvents, hconsumed]
    | false =>
      have hrest := ih (fun y hy => hnull y (List.mem_cons_of_mem _ hy))
        (by exact (hnext rfl).symm ▸ hnew) h
      have hsame : history s₁ = history s := hhistory.trans (List.append_nil _)
      have hnext' : s₁.nextEventActionId = s.nextEventActionId := hnext rfl
      cases success with
      | true =>
        rw [if_pos rfl] at hrest ⊢
        cases hrest with
        | nothing h hevents =>
          exact .nothing (h.trans hsame) (hevents.trans (by simp [markedEvents, hconsumed]))
        | entry y d hd h hevents =>
          refine .entry y d (hmode ▸ hd) ?_
            (hevents.trans (by simp [markedEvents, markersConsumed, hconsumed]))
          rw [h, ← hsame, ← hnext']
          rfl
      | false =>
        obtain ⟨h₁, h₂, h₃, h₄⟩ := hrest
        exact ⟨h₁.trans hsame, h₂.trans hnext', h₃.trans hmode, h₄.trans hconsumed⟩

/-- The attempt on the next item. -/
theorem appends_tryHead {s s' : ReplayScheduler (Program O X)} {x : ReplayItem}
    {rest : List ReplayItem} {more : Bool} (hnew : s.nextEventActionId ≠ -1)
    (h : s.tryHead p.replayEnv x rest = some (more, s')) : Appends s s' := by
  simp only [tryHead, Option.bind_eq_bind, Option.bind_eq_some_iff] at h
  obtain ⟨⟨found, x', s₁⟩, htry, h⟩ := h
  cases hx : x.descriptor.isNull with
  | true =>
    obtain ⟨-, rfl, rfl, rfl⟩ | ⟨hn, -⟩ := tryExecute_cases htry
    · -- a marker is consumed without an attempt
      obtain ⟨-, rfl⟩ := Prod.mk.inj (Option.some.inj h)
      have hmarker : s.marker.world = s.world ∧ s.marker.consumed = s.consumed := by
        unfold marker
        split <;> exact ⟨rfl, rfl⟩
      refine .nothing ?_ ?_
      · exact congrArg (fun w => w.1.dispatchHistory) hmarker.1
      · simp [markedEvents, hmarker.2, markEvents_append, hx]
    · rw [hx] at hn
      exact absurd hn (by decide)
  | false =>
    obtain ⟨⟨d, hd, hhistory⟩, -⟩ :=
      tried_tryExecute acts (by exact fun _ _ => ⟨rfl, rfl, rfl⟩) hx (by exact hnew) htry
    obtain ⟨hn, -⟩ | ⟨-, hattempted, w, hframe⟩ := tryExecute_cases htry
    · rw [hx] at hn
      exact absurd hn (by decide)
    have hconsumed : s₁.consumed = s.consumed := hframe.consumed
    cases found with
    | true =>
      obtain ⟨-, rfl⟩ := Prod.mk.inj (Option.some.inj h)
      refine .entry x' d hd hhistory (markedEvents_append (hattempted.isNull.trans hx) ?_)
      rw [← hconsumed]
    | false =>
      have hsame : history s₁ = history s := hhistory.trans (List.append_nil _)
      have hevents : markedEvents s₁ = markedEvents s := by simp [markedEvents, hconsumed]
      -- skipped, or waited for
      simp only [Bool.false_eq_true, if_false] at h
      split at h
      · obtain ⟨-, rfl⟩ := Prod.mk.inj (Option.some.inj h)
        exact .nothing hsame hevents
      · split at h
        · obtain ⟨-, rfl⟩ := Prod.mk.inj (Option.some.inj h)
          exact .nothing hsame hevents
        · simp only [Option.bind_eq_some_iff, Option.pure_def, Option.some.injEq,
            Prod.mk.injEq] at h
          obtain ⟨interval, -, -, rfl⟩ := h
          exact .nothing hsame hevents

omit acts in
/-- What only makes reports leaves the history alone. -/
theorem history_of_quiets {s s' : ReplayScheduler (Program O X)}
    (h : Quiets p.replayEnv s s') : history s' = history s := by
  have hquiet : ∀ w w' : Program O X, Relation.ReflTransGen (Quiet p.replayEnv) w w' →
      w'.1.dispatchHistory = w.1.dispatchHistory := by
    intro w w' h
    induction h with
    | refl => rfl
    | tail _ h ih =>
      rw [← ih]
      cases h with
      | strictMode => rfl
      | setCurrentEventAction => rfl
      | report => rfl
  exact hquiet _ _ h.world

/-- A round of the scheduler adds the entries of what it consumes. -/
theorem appends_executeDelayedEventAction {s s' : ReplayScheduler (Program O X)} {more : Bool}
    (hnull : ∀ x ∈ s.scheduleBacklog, x.descriptor.isNull = false)
    (hnew : s.nextEventActionId ≠ -1)
    (h : s.executeDelayedEventAction p.replayEnv = some (more, s')) : Appends s s' := by
  have hstop : Appends s (s.stopRegister p.replayEnv .finished) :=
    .nothing (history_of_quiets (quiets_stopRegister p.replayEnv .finished s))
      (by simp [markedEvents, (idle_stopRegister p.replayEnv .finished s).consumed])
  unfold executeDelayedEventAction at h
  split at h
  · obtain ⟨-, rfl⟩ := Prod.mk.inj (Option.some.inj h)
    exact hstop
  · split at h
    · obtain ⟨-, rfl⟩ := Prod.mk.inj (Option.some.inj h)
      exact hstop
    · simp only [Option.bind_eq_bind, Option.bind_eq_some_iff] at h
      obtain ⟨⟨success, s₁⟩, hbacklog, h⟩ := h
      have happends := appends_tryBacklog acts hnull hnew hbacklog
      cases success with
      | true =>
        obtain ⟨-, rfl⟩ := Prod.mk.inj (Option.some.inj h)
        exact happends
      | false =>
        -- the backlog has been tried in vain
        obtain ⟨hhistory, hnext, hmode, hconsumed⟩ := happends
        have hevents : markedEvents s₁ = markedEvents s := by simp [markedEvents, hconsumed]
        have hmarkers : s₁.markersConsumed = s.markersConsumed := by
          simp only [markersConsumed, hconsumed]
        cases appends_tryHead acts (hnext ▸ hnew) h with
        | nothing h hevents' => exact .nothing (h.trans hhistory) (hevents'.trans hevents)
        | entry x d hd h hevents' =>
          rw [hmode] at hd
          rw [hnext, hhistory] at h
          rw [hevents, hmarkers] at hevents'
          exact .entry x d hd h hevents'

/-! ## Whole runs -/

/-- The entry stands for the item: it is the item's own descriptor, or one that is similar if two
    markers were consumed before the item. -/
def StandsFor (entry : EventActionScheduleItem) (x : ReplayItem × Nat) : Prop :=
  entry.2 = x.1.descriptor ∨ 2 ≤ x.2 ∧ Similar x.1.descriptor entry.2

/-- In every replay the entries of the history stand for the consumed event actions, one for
    each and in their order. -/
theorem standsFor_of_replayRuns {items : List EventActionScheduleItem}
    {s : ReplayScheduler (Program O X)} (r : (replayRuns p items).Reachable s) :
    List.Forall₂ StandsFor (history s) (markedEvents s) := by
  refine Lts.Reachable.invariant
    (P := fun s => List.Forall₂ StandsFor (history s) (markedEvents s)) ?_ ?_ r
  · rintro _ ⟨schedulerTimeout, r, e, w, hregister, -, heffect, rfl⟩
    -- nothing has been dispatched before the scheduler is there
    have hempty : w.1.dispatchHistory = [] := by
      rw [(effect_keeps heffect).1, hregister]
      rfl
    have hhistory : history (ReplayScheduler.init p.replayEnv items schedulerTimeout w) = [] :=
      hempty
    rw [hhistory]
    exact .nil
  · intro s l s' hs inv h
    have hreplay := replay_of_replayRuns hs
    have conserved := conserved_of_reachable hreplay
    cases h with
    | effect h =>
      rw [history, (effect_keeps h).1]
      exact inv
    | scheduler hl h =>
      have hnew : s.nextEventActionId ≠ -1 := by
        have hpositive := (replayOk_of_replayRuns acts hs).positive
        intro hnone
        rw [hnone] at hpositive
        exact absurd hpositive (by decide)
      cases h with
      | environment => exact absurd rfl hl
      | execute h =>
        cases appends_executeDelayedEventAction acts conserved.backlogEvents hnew h with
        | nothing h hevents => rw [h, hevents]; exact inv
        | entry x d hd h hevents =>
          rw [h, hevents]
          -- best effort mode begins at the second marker, so both are before this item
          refine List.rel_append inv (.cons ?_ .nil)
          exact hd.imp_right fun hfuzzy => ⟨conserved.bestEffort hfuzzy.1, hfuzzy.2⟩
      | eventTimeout h =>
        have hevents : markedEvents s' = markedEvents s := by
          simp [markedEvents, (idle_slEventActionTimeout h).consumed]
        rw [history_of_quiets (quiets_slEventActionTimeout h), hevents]
        exact inv
      | globalTimeout =>
        have hevents : markedEvents (s.timeout p.replayEnv) = markedEvents s := by
          simp [markedEvents, (idle_timeout p.replayEnv s).consumed]
        rw [history_of_quiets (quiets_timeout p.replayEnv s), hevents]
        exact inv

omit acts in
/-- A call that ends in an attempt or at a marker does not stop the replay. -/
theorem mode_ne_stop_of_ending {env : ReplayEnv W} {s s' : ReplayScheduler W}
    (h : Ending env s s') (hmode : s.mode ≠ .stop) : s'.mode ≠ .stop := by
  cases h with
  | hitBacklog _ h => exact fun hstop => hmode ((frame_runs h).mode.symm.trans hstop)
  | hitHead _ h => exact fun hstop => hmode ((frame_runs h).mode.symm.trans hstop)
  | marker =>
    simp only [marker]
    split <;> simp
  | skip => exact hmode
  | wait => exact hmode

omit acts in
/-- A replay is finished when the schedule has run out. -/
theorem schedule_nil_of_finished {env : ReplayEnv W} {items : List EventActionScheduleItem}
    {s : ReplayScheduler W} (r : (replay env items).Reachable s) (hstate : s.state = .finished) :
    s.schedule = [] := by
  refine Lts.Reachable.invariant
    (P := fun s => s.state = ReplaySchedulerState.finished → s.schedule = []) ?_ ?_ r hstate
  · rintro _ ⟨schedulerTimeout, w, rfl⟩ hstate
    exact absurd hstate (by simp [ReplayScheduler.init])
  · intro s l s' hs ih h hstate
    have conserved := conserved_of_reachable hs
    have ok := modeState_ok hs
    have hstep := modeStep_of_replayStep conserved h
    have ok' := ok.step hstep
    have hstop' : s'.mode = .stop := by
      refine ok'.stopped.mp (Bool.not_eq_false _ ▸ fun hdone => ?_)
      exact absurd (hstate.symm.trans (ok'.state.mpr hdone)) (by decide)
    by_cases hstop : s.mode = .stop
    · -- nothing is taken from the schedule after the stop
      obtain ⟨-, hsame, -⟩ := ok.step_of_stop hstop hstep
      have hnil : s.schedule = [] := ih (hsame.symm.trans hstate)
      cases h with
      | environment => exact hnil
      | execute h =>
        rcases executeDelayedEventAction_split conserved.backlogEvents h with ⟨-, rfl⟩ | ⟨hnot, -⟩
        · exact (idle_stopRegister env .finished s).schedule.trans hnil
        · exact absurd hstop hnot
      | eventTimeout h => exact (idle_slEventActionTimeout h).schedule.trans hnil
      | globalTimeout => exact (idle_timeout env s).schedule.trans hnil
    · have hlabel : stopReason l = .finished :=
        (state_of_modeStep hstep hstop hstop').symm.trans hstate
      cases h with
      | environment => exact absurd hstop' hstop
      | execute h =>
        rcases executeDelayedEventAction_split conserved.backlogEvents h with
          ⟨hdone, rfl⟩ | ⟨-, s₁, hattempts, hend⟩
        · rw [(idle_stopRegister env .finished s).schedule]
          exact hdone.resolve_right hstop
        · -- a call that ends in another way does not stop the replay
          have hmode : s₁.mode = s.mode := congrArg ModeState.mode (modeState_attempts hattempts)
          exact absurd hstop' (mode_ne_stop_of_ending hend (hmode ▸ hstop))
      | eventTimeout => exact absurd hlabel (by decide)
      | globalTimeout => exact absurd hlabel (by decide)

/-! ## From the recording to the replay -/

omit acts in
/-- The string of an item is that of its line, whatever its parent has become. -/
theorem toUnpatchedString_of_isItem {it : EventActionScheduleItem} {x : ReplayItem}
    (hpatched : it.2.isPatched = false) (h : IsItem it x) :
    x.descriptor.toUnpatchedString = it.2.toString := by
  obtain ⟨-, hx | ⟨v, hv⟩⟩ := h
  · rw [hx, EventActionDescriptor.toUnpatchedString, if_neg (by simp [hpatched])]
  · exact EventActionDescriptor.patchParameter_toUnpatchedString hv

omit acts in
/-- An item is a marker if and only if that of the file is one. -/
theorem isNull_of_isItem {it : EventActionScheduleItem} {x : ReplayItem} (h : IsItem it x) :
    x.descriptor.isNull = it.2.isNull := by
  obtain ⟨-, hx | ⟨v, hv⟩⟩ := h
  · rw [hx]
  · exact (EventActionDescriptor.patchParameter_frame hv).2.2.1

omit acts in
/-- Without markers every consumed item is an event action. -/
theorem consumed_events {items : List EventActionScheduleItem} {s : ReplayScheduler W}
    (conserved : Conserved items s) (hnull : ∀ item ∈ items, item.2.isNull = false) :
    ∀ x ∈ s.consumed, x.descriptor.isNull = false := by
  intro x hx
  obtain ⟨it, hit, hitem⟩ := conserved.origin x
    (List.mem_append_left _ (List.mem_append_left _ hx))
  rw [isNull_of_isItem hitem]
  exact hnull it (List.mem_of_getElem? hit)

/-- An item of the file with the descriptor that its line has. -/
def IsLine (it : EventActionScheduleItem) (x : ReplayItem) : Prop :=
  x.descriptor.toUnpatchedString = it.2.toString ∧ x.descriptor.isNull = it.2.isNull

omit acts in
/-- Before the second marker the consumed items are those of the first lines. -/
theorem consumed_lines {items : List EventActionScheduleItem} {s : ReplayScheduler W}
    (conserved : Conserved items s) (hpatched : ∀ item ∈ items, item.2.isPatched = false)
    (hle : s.markersConsumed ≤ 1) :
    List.Forall₂ IsLine (items.take s.consumed.length) s.consumed := by
  have hlines := List.forall₂_iff_get.mp (conserved.consumed_eq hle).2
  refine List.forall₂_iff_get.mpr ⟨hlines.1, fun i hi hi' => ?_⟩
  have hmem : (items.take s.consumed.length).get ⟨i, hi⟩ ∈ items :=
    List.mem_of_mem_take (List.get_mem _ _)
  have hitem := hlines.2 i hi hi'
  exact ⟨toUnpatchedString_of_isItem (hpatched _ hmem) hitem, isNull_of_isItem hitem⟩

/-- Before the second marker the history has the strings of the first lines that are event
    actions. -/
theorem history_lines {items : List EventActionScheduleItem}
    (hpatched : ∀ item ∈ items, item.2.isPatched = false) {s : ReplayScheduler (Program O X)}
    (r : (replayRuns p items).Reachable s) (hle : s.markersConsumed ≤ 1) :
    (history s).map (fun entry => entry.2.toUnpatchedString) =
      ((items.take s.consumed.length).filter fun item => !item.2.isNull).map
        fun item => item.2.toString := by
  have conserved := conserved_of_reachable (replay_of_replayRuns r)
  have hlines := consumed_lines conserved hpatched hle
  have hfiltered : List.Forall₂ IsLine
      ((items.take s.consumed.length).filter fun item => !item.2.isNull) (events s) := by
    rw [events_eq]
    exact List.rel_filter (fun it x hx => by simp [hx.2]) hlines
  -- an entry has the descriptor of its item, and the item is that of its line
  have hentries : (history s).map (fun entry => entry.2.toUnpatchedString) =
      (events s).map fun x => x.descriptor.toUnpatchedString := by
    have hbefore : ∀ x ∈ markedEvents s, x.2 ≤ 1 := fun x hx =>
      Nat.le_trans (le_of_mem_markEvents hx) (by rwa [Nat.zero_add])
    have hstands := (List.forall₂_and_left _ _).mpr ⟨hbefore, (standsFor_of_replayRuns acts r).flip⟩
    rw [events, List.map_map]
    refine (List.map_eq_map_of_forall₂ hstands fun x entry ⟨hx, hentry⟩ => ?_).symm
    rcases hentry with hown | ⟨hlate, -⟩
    · rw [hown]
      rfl
    · omega
  rw [hentries]
  exact (List.map_eq_map_of_forall₂ hfiltered fun it x hx => hx.1.symm).symm

/-- The line of the file at a position is an event action. -/
def IsEventAt (items : List EventActionScheduleItem) (i : Nat) : Bool :=
  items[i]?.any fun item => !item.2.isNull

omit acts in
/-- When nothing is left of the schedule, the event actions of the file have been consumed or are
    in the backlog, each once. -/
theorem positions_of_finished {items : List EventActionScheduleItem} {s : ReplayScheduler W}
    (conserved : Conserved items s) (hschedule : s.schedule = []) :
    ((events s ++ s.scheduleBacklog).map (·.pos)).Perm
      ((List.range items.length).filter (IsEventAt items)) := by
  have hall : s.allItems = s.consumed ++ s.scheduleBacklog := by
    rw [allItems, hschedule, List.append_nil]
  -- the item at a position is an event action if the line is
  have hevent : ∀ x ∈ s.allItems, IsEventAt items x.pos = !x.descriptor.isNull := by
    intro x hx
    obtain ⟨it, hit, hitem⟩ := conserved.origin x hx
    rw [IsEventAt, hit, Option.any_some, isNull_of_isItem hitem]
  have hbacklog : s.scheduleBacklog.filter (fun x => !x.descriptor.isNull) = s.scheduleBacklog :=
    List.filter_eq_self.mpr fun x hx => by simp [conserved.backlogEvents x hx]
  have hfilter : (s.allItems.map (·.pos)).filter (IsEventAt items) =
      (events s ++ s.scheduleBacklog).map (·.pos) := by
    rw [List.filter_map, List.filter_congr (q := fun x => !x.descriptor.isNull) hevent, hall,
      List.filter_append, hbacklog, events_eq]
  rw [← hfilter]
  exact conserved.places.filter _

/-- The history of a replay. In every replay of a schedule file the entries of the history
    stand for the event actions that were consumed, one for each and in their order, under
    increasing ids, and these are event actions of the file. Until the second marker is consumed
    they have the strings of the first lines of the file. In a finished replay the event actions
    that the history stands for and those in the backlog are at the positions of the event
    actions of the file, each once. -/
theorem replay_history_stands_for_schedule {text : StdString}
    {items : List EventActionScheduleItem}
    (hfile : EventActionSchedule.deserialize text = some items)
    {s : ReplayScheduler (Program O X)} (r : (replayRuns p items).Reachable s) :
    List.Forall₂ StandsFor (history s) (markedEvents s) ∧
      ((history s).map Prod.fst).Pairwise (· < ·) ∧
      (∀ x ∈ s.allItems, ∃ item, items[x.pos]? = some item ∧ IsItem item x) ∧
      (s.markersConsumed ≤ 1 → (history s).map (fun entry => entry.2.toUnpatchedString) =
        ((items.take s.consumed.length).filter fun item => !item.2.isNull).map
          fun item => item.2.toString) ∧
      (s.state = .finished → ((events s ++ s.scheduleBacklog).map (·.pos)).Perm
        ((List.range items.length).filter (IsEventAt items))) := by
  have hpatched : ∀ item ∈ items, item.2.isPatched = false := fun item hitem =>
    EventActionSchedule.deserialize_isPatched hfile hitem
  have hreplay := replay_of_replayRuns r
  have conserved := conserved_of_reachable hreplay
  refine ⟨standsFor_of_replayRuns acts r, (replayOk_of_replayRuns acts r).ok.increasing,
    conserved.origin, history_lines acts hpatched r, fun hfinished => ?_⟩
  exact positions_of_finished conserved (schedule_nil_of_finished hreplay hfinished)

omit acts in
/-- Ids that increase along two lists are in the same order at the same positions. -/
theorem order_of_increasing {l l' : List EventActionId} (h : l.Pairwise (· < ·))
    (h' : l'.Pairwise (· < ·)) {i j : Nat} {a b a' b' : EventActionId} (ha : l[i]? = some a)
    (hb : l[j]? = some b) (ha' : l'[i]? = some a') (hb' : l'[j]? = some b') : a < b ↔ a' < b' := by
  -- in an increasing list the positions are ordered as the elements
  have hpositions : ∀ {l : List EventActionId} {a b : EventActionId}, l.Pairwise (· < ·) →
      l[i]? = some a → l[j]? = some b → (a < b ↔ i < j) := by
    intro l a b h ha hb
    obtain ⟨hi, rfl⟩ := List.getElem?_eq_some_iff.mp ha
    obtain ⟨hj, rfl⟩ := List.getElem?_eq_some_iff.mp hb
    constructor
    · intro hlt
      by_contra hle
      rcases Nat.lt_or_eq_of_le (Nat.not_lt.mp hle) with hji | rfl
      · have hgt := List.pairwise_iff_getElem.mp h j i hj hi hji
        exact absurd hlt (Int.not_lt.mpr (Int.le_of_lt hgt))
      · exact absurd hlt (Int.lt_irrefl _)
    · exact List.pairwise_iff_getElem.mp h i j hi hj
  rw [hpositions h ha hb, hpositions h' ha' hb']

omit acts

/-- A program whose handlers do nothing. -/
def idleHandlers : ProgramEnv Nat Unit where
  address _ := 0
  call _ _ _ w := some (true, w)
  warningCollectorSetCurrentEventAction _ x := x
  warningCollectorReport _ _ _ x := x
  score _ _ := 0

/-- The handlers of the example do nothing. -/
theorem acts_idleHandlers (recording : Bool) (providers : Providers) :
    Acts recording (idleHandlers.call providers) := by
  intro o d w found w' h
  obtain ⟨-, rfl⟩ := Prod.mk.inj (Option.some.inj h)
  exact .refl _

/-- A schedule of two event actions, as a recording writes it. -/
def twoEvents : List EventActionScheduleItem :=
  [(1, .make .network "A".toList []), (2, .make .network "B".toList [])]

/-- Handlers for both are registered. -/
def twoRegistered : Program Nat Unit :=
  ((EventActionRegister.empty.registerEventActionHandler (.make .network "A".toList [])
    1).registerEventActionHandler (.make .network "B".toList []) 2, .init, ())

/-- Two handlers are registered before the run. -/
theorem effect_twoRegistered (recording : Bool) :
    Effect recording ((.empty, .init, ()) : Program Nat Unit) twoRegistered :=
  (Effect.registerHandler _ _ 1).trans (.registerHandler _ _ 2)

/-- The loop of the driver takes steps of a replay. -/
theorem reachable_of_rounds {items : List EventActionScheduleItem} {rounds : Nat} {more : Bool}
    {s s' : ReplayScheduler (Program O X)} (r : (replayRuns p items).Reachable s)
    (h : s.executeDelayedEventActions p.replayEnv rounds = some (more, s')) :
    (replayRuns p items).Reachable s' := by
  induction rounds generalizing s with
  | zero =>
    obtain ⟨-, rfl⟩ := Prod.mk.inj (Option.some.inj h)
    exact r
  | succ rounds ih =>
    simp only [executeDelayedEventActions, Option.bind_eq_bind, Option.bind_eq_some_iff] at h
    obtain ⟨⟨again, s₁⟩, hcall, h⟩ := h
    have r₁ : (replayRuns p items).Reachable s₁ := r.step (.scheduler (by simp) (.execute hcall))
    cases again with
    | true => exact ih r₁ h
    | false =>
      obtain ⟨-, rfl⟩ := Prod.mk.inj (Option.some.inj h)
      exact r₁

/-- The replay of the schedule finishes. -/
theorem exists_finished_replay :
    ∃ s, (replayRuns idleHandlers twoEvents).Reachable s ∧ s.state = .finished := by
  have hrun : ((ReplayScheduler.init idleHandlers.replayEnv twoEvents 100
      twoRegistered).executeDelayedEventActions idleHandlers.replayEnv 3).map
        (fun result => result.2.state) = some .finished := by decide +kernel
  obtain ⟨⟨more, s⟩, hs, hstate⟩ := Option.map_eq_some_iff.mp hrun
  have hinit := Lts.Reachable.init (T := replayRuns idleHandlers twoEvents)
    ⟨100, _, _, _, rfl, rfl, effect_twoRegistered false, rfl⟩
  exact ⟨s, reachable_of_rounds hinit hs, hstate⟩

/-- After a finished replay each of two event actions is in one place. -/
theorem replay_history_stands_for_schedule_of_two :
    ∃ s, (replayRuns idleHandlers twoEvents).Reachable s ∧
      ((events s ++ s.scheduleBacklog).map (·.pos)).Perm [0, 1] := by
  obtain ⟨s, r, hstate⟩ := exists_finished_replay
  have hfile : EventActionSchedule.deserialize "1;3-A()\n2;3-B()\n".toList = some twoEvents := by
    decide +kernel
  exact ⟨s, r,
    (replay_history_stands_for_schedule (acts_idleHandlers false) hfile r).2.2.2.2 hstate⟩

/-- From a recording to its replays. The schedule file of every record run whose descriptors are
    on one line each can be read back, and every replay of it is strict until it stops and has
    dispatched the first of the recorded event actions, in their order, under ids that are in
    the order of the recorded ones; if it has finished, it has dispatched all of them. -/
theorem recording_replayed {O' X' : Type} {address : O' → Int} {w : Program O' X'}
    (hw : (recordRuns address).Reachable w)
    (hlines : ∀ item ∈ w.1.dispatchHistory, '\n' ∉ item.2.toString) :
    ∃ items, EventActionSchedule.deserialize (EventActionSchedule.serialize w.1.dispatchHistory) =
        some items ∧
      ∀ (p : ProgramEnv O X), (∀ providers, Acts false (p.call providers)) →
        ∀ s, (replayRuns p items).Reachable s →
          (s.mode = .strict ∨ s.mode = .stop) ∧ s.scheduleBacklog = [] ∧
          (history s).map (fun entry => entry.2.toUnpatchedString) =
            (w.1.dispatchHistory.take (history s).length).map (fun item => item.2.toString) ∧
          (s.state = .finished → (history s).length = w.1.dispatchHistory.length) ∧
          ∀ (i j : Nat) (a b a' b' : EventActionId),
            (ids w.1)[i]? = some a → (ids w.1)[j]? = some b →
            (ids s.world.1)[i]? = some a' → (ids s.world.1)[j]? = some b' → (a < b ↔ a' < b') := by
  obtain ⟨items, hfile, htexts, hnull⟩ := EventActionSchedule.deserialize_serialize _ hlines
  have hpatched : ∀ item ∈ items, item.2.isPatched = false := fun item hitem =>
    EventActionSchedule.deserialize_isPatched hfile hitem
  have hlength : items.length = w.1.dispatchHistory.length := by
    simpa using congrArg List.length htexts
  refine ⟨items, hfile, fun p acts s r => ?_⟩
  have hreplay := replay_of_replayRuns r
  have conserved := conserved_of_reachable hreplay
  -- the file has no markers, so none is consumed
  have hevents : ∀ x ∈ s.consumed, x.descriptor.isNull = false := consumed_events conserved hnull
  have hmarkers : s.markersConsumed = 0 := by
    rw [markersConsumed, List.countP_eq_zero]
    intro x hx
    simp [hevents x hx]
  have hall : events s = s.consumed := by
    rw [events_eq]
    exact List.filter_eq_self.mpr fun x hx => by simp [hevents x hx]
  have hcount : (history s).length = s.consumed.length := by
    rw [(standsFor_of_replayRuns acts r).length_eq, ← hall, events, List.length_map]
  have hinOrder := conserved.inOrder (by omega)
  refine ⟨?_, hinOrder.1, ?_, fun hfinished => ?_, fun i j a b a' b' ha hb ha' hb' => ?_⟩
  · cases hmode : s.mode with
    | strict => exact .inl rfl
    | stop => exact .inr rfl
    | bestEffortNond => have := conserved.bestEffortNond hmode; omega
    | bestEffort => have := conserved.bestEffort hmode; omega
  · have hkept : (items.take s.consumed.length).filter (fun item => !item.2.isNull) =
        items.take s.consumed.length :=
      List.filter_eq_self.mpr fun item hitem => by simp [hnull item (List.mem_of_mem_take hitem)]
    rw [history_lines acts hpatched r (by omega), hkept, hcount, List.map_take, List.map_take,
      htexts]
  · have hpos := congrArg List.length hinOrder.2
    rw [schedule_nil_of_finished hreplay hfinished] at hpos
    simpa [hcount, hlength] using hpos
  · exact order_of_increasing (ok_of_recordRuns hw).increasing
      (replayOk_of_replayRuns acts r).ok.increasing ha hb ha' hb'

/-- A recording of two event actions, and its replay to the end. -/
theorem recording_replayed_of_two :
    ∃ (w : Program Nat Unit) (items : List EventActionScheduleItem)
      (s : ReplayScheduler (Program Nat Unit)),
      (recordRuns idleHandlers.address).Reachable w ∧
      EventActionSchedule.deserialize (EventActionSchedule.serialize w.1.dispatchHistory) =
        some items ∧
      (replayRuns idleHandlers items).Reachable s ∧
      (history s).map (fun entry => entry.2.toUnpatchedString) =
        ["3-A()".toList, "3-B()".toList] := by
  -- one event action after the other is run
  let run (w : Program Nat Unit) (d : EventActionDescriptor) : Option (Program Nat Unit) :=
    (EventActionRegister.runEventAction (hbPlatform idleHandlers.address
      (idleHandlers.call ⟨⟨.strict, none⟩, ⟨.strict, none⟩, .strict⟩)) (-1) (-1) d w).map Prod.snd
  -- both of them are recorded
  have hrun : (((run twoRegistered (.make .network "A".toList [])).bind fun w =>
      run w (.make .network "B".toList [])).map fun w => w.1.dispatchHistory) = some twoEvents := by
    decide +kernel
  have hstep : ∀ {w w' : Program Nat Unit} {d : EventActionDescriptor},
      (recordRuns idleHandlers.address).Reachable w → run w d = some w' →
        (recordRuns idleHandlers.address).Reachable w' := by
    intro w w' d hw h
    obtain ⟨⟨found, _⟩, hcall, rfl⟩ := Option.map_eq_some_iff.mp h
    exact hw.step (.run (acts_idleHandlers true _) hcall)
  obtain ⟨w, hw, hhistory⟩ := Option.map_eq_some_iff.mp hrun
  obtain ⟨w₁, hfirst, hsecond⟩ := Option.bind_eq_some_iff.mp hw
  -- the handlers are registered before
  have hinit := Lts.Reachable.init (T := recordRuns (X := Unit) idleHandlers.address)
    (s := (.empty, .init, ())) ⟨rfl, rfl⟩
  have hrecorded := hstep (hstep (hinit.step (.effect (effect_twoRegistered true))) hfirst) hsecond
  obtain ⟨items, hfile, hreplays⟩ := recording_replayed (O := Nat) (X := Unit) hrecorded (by
    rw [hhistory]
    decide +kernel)
  -- the file is read as the two events
  have hitems : items = twoEvents := by
    have hread : EventActionSchedule.deserialize (EventActionSchedule.serialize twoEvents) =
        some twoEvents := by decide +kernel
    rw [hhistory, hread] at hfile
    exact (Option.some.inj hfile).symm
  subst hitems
  -- there is a replay that has finished
  obtain ⟨s, r, hstate⟩ := exists_finished_replay
  obtain ⟨-, -, htexts, hfinished, -⟩ := hreplays idleHandlers (acts_idleHandlers false) s r
  refine ⟨w, twoEvents, s, hrecorded, hfile, r, ?_⟩
  -- all of the file has been dispatched
  rw [htexts, hfinished hstate, List.take_length, hhistory]
  rfl

end R4.ReplayHistory
