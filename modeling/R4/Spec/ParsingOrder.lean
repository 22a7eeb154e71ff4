import R4.ForStd.Chain
import R4.Native.HTMLDocumentParser
import R4.Spec.ArcEndpoints
import R4.Spec.DispatchOrder

/-!
# The order of the parsing event actions

The parser keeps a pointer to the event action of the last pump and a list of those that are to be
joined by the next. An event action that enters the parser gets an arc from the last pump, and one
in which the timer fires comes behind the event action that started it, which was the last pump,
since nothing is pumped as long as the timer is active. So every pump comes behind the one before,
however its event action got there.

## Key results

- `inAction_beginPump`: a pump comes behind everything before it
- `runs_keeps`: what every routine keeps, whatever scripts do in between
- `parsing_event_actions_ordered`: the order in every run
-/

open Relation

namespace R4.Parsing

/-- An arc that the parser asked for and that was logged, or one of its timer. -/
def Hop (s : Parsing) (a b : EventActionId) : Prop :=
  ((a, b) ∈ s.requested ∧ (a, b) ∈ s.hb.actionLog.arcs.map Arc.ends) ∨ (a, b) ∈ s.timerArcs

/-- The event action of the last pump. -/
def last (s : Parsing) : Option EventActionId :=
  if s.parser.lastParseEventAction = 0 then none else some s.parser.lastParseEventAction

/-- What holds between any two calls, if no call was made in an event action above `c`. -/
structure Ordered (c : EventActionId) (s : Parsing) : Prop where
  chain : Chain s.Hop s.pumped s.changed s.parser.modifiedInputJoin.endThreads s.last
  arcs : s.hb.ArcsOk
  requested : ∀ p ∈ s.requested, p.1 < p.2 → p ∈ s.hb.hb.hbarcsUnique
  pumped : ∀ a ∈ s.pumped, a ≤ c
  last : ∀ l ∈ s.last, l ≤ c
  pending : ∀ a ∈ s.parser.modifiedInputJoin.endThreads, a ≤ c
  timer : ∀ source ∈ s.parser.continueNextChunkTimer, s.last = some source

/-- What holds during the calls of the event action `c`. -/
structure InAction (c : EventActionId) (s : Parsing) : Prop extends Ordered c s where
  current : s.hb.hb.currentEventActionId = c

/-- The event action comes behind the last pump. -/
def Follows (c : EventActionId) (s : Parsing) : Prop := ∀ l ∈ s.last, ReflTransGen s.Hop l c

/-- What a routine keeps that runs in the event action `c`. -/
structure Keeps (c : EventActionId) (s s' : Parsing) : Prop where
  inAction : InAction c s'
  follows : Follows c s → Follows c s'
  last : s.parser.lastParseEventAction = c → s'.parser.lastParseEventAction = c

variable {c : EventActionId} {s s' s'' : Parsing}

theorem Keeps.refl (h : InAction c s) : Keeps c s s := ⟨h, id, id⟩

theorem Keeps.trans (h : Keeps c s s') (h' : Keeps c s' s'') : Keeps c s s'' :=
  ⟨h'.inAction, fun hs => h'.follows (h.follows hs), fun hs => h'.last (h.last hs)⟩

/-- The last pump, if there was one. -/
theorem last_eq_some (h : s.parser.lastParseEventAction ≠ 0) :
    s.last = some s.parser.lastParseEventAction := if_neg h

/-- An event action that comes later may be the bound. -/
theorem Ordered.mono {c' : EventActionId} (h : Ordered c s) (hle : c ≤ c') : Ordered c' s where
  chain := h.chain
  arcs := h.arcs
  requested := h.requested
  pumped a ha := Int.le_trans (h.pumped a ha) hle
  last l hl := Int.le_trans (h.last l hl) hle
  pending a ha := Int.le_trans (h.pending a ha) hle
  timer := h.timer

/-- The last pump is kept by its field alone. -/
theorem last_fields {parser : HTMLDocumentParser}
    (hlast : parser.lastParseEventAction = s.parser.lastParseEventAction) :
    Parsing.last { s with parser := parser } = s.last := by
  rw [last, last, hlast]

/-- The other fields of the parser play no part, and the timer may be cleared. -/
theorem Ordered.fields (parser : HTMLDocumentParser) (h : Ordered c s)
    (hjoin : parser.modifiedInputJoin = s.parser.modifiedInputJoin)
    (hlast : parser.lastParseEventAction = s.parser.lastParseEventAction)
    (htimer : ∀ source ∈ parser.continueNextChunkTimer, source ∈ s.parser.continueNextChunkTimer) :
    Ordered c { s with parser := parser } := by
  have hsame := last_fields hlast
  refine ⟨?_, h.arcs, h.requested, h.pumped, ?_, ?_, ?_⟩
  · rw [hsame, hjoin]
    exact h.chain
  · rw [hsame]
    exact h.last
  · rw [hjoin]
    exact h.pending
  · intro source hsource
    rw [hsame]
    exact h.timer source (htimer source hsource)

/-- The fields of the parser that are not about the order may change, and the timer may be cleared.
    -/
theorem keeps_fields (parser : HTMLDocumentParser) (ok : InAction c s)
    (hjoin : parser.modifiedInputJoin = s.parser.modifiedInputJoin)
    (hlast : parser.lastParseEventAction = s.parser.lastParseEventAction)
    (htimer : ∀ source ∈ parser.continueNextChunkTimer, source ∈ s.parser.continueNextChunkTimer) :
    Keeps c s { s with parser := parser } := by
  refine ⟨⟨ok.toOrdered.fields parser hjoin hlast htimer, ok.current⟩, ?_, hlast.trans⟩
  intro hfollows l hl
  exact hfollows l (last_fields hlast ▸ hl)

/-! ## Arcs -/

/-- A call of a happens-before function logs more arcs, and none that goes backwards. -/
structure Extends (hb hb' : HBState) : Prop where
  arcs : hb.ArcsOk → hb'.ArcsOk
  grows : hb.actionLog.arcs <+: hb'.actionLog.arcs
  unique : ∀ p ∈ hb.hb.hbarcsUnique, p ∈ hb'.hb.hbarcsUnique

/-- Arcs that are added extend the component. -/
theorem extends_of_adds {hb hb' : HBState} {pairs : List (EventActionId × EventActionId)}
    (h : HBState.Adds hb pairs hb') : Extends hb hb' := ⟨h.ok, h.grows, h.uniqueGrows⟩

/-- So does every call of a happens-before function. -/
theorem extends_of_hbCall {hb hb' : HBState} (h : DispatchOrder.HBCall hb hb') :
    Extends hb hb' := by
  obtain ⟨l, joins, joins', h⟩ := h
  by_cases hmode : ∃ strict, l = .strictMode strict
  · obtain ⟨strict, rfl⟩ := hmode
    obtain ⟨rfl, -⟩ := Prod.mk.inj (Option.some.inj h)
    exact ⟨fun ok => ⟨ok.nodup, ok.forward, ok.logged⟩, List.prefix_rfl, fun _ => id⟩
  · exact extends_of_adds (ArcRun.perform_adds h fun strict hl => hmode ⟨strict, hl⟩)

/-- A hop stays one. -/
theorem hop_of_extends {hb : HBState} {requested timerArcs : List (EventActionId × EventActionId)}
    (hextends : Extends s.hb hb) (hrequested : ∀ p ∈ s.requested, p ∈ requested)
    (htimer : ∀ p ∈ s.timerArcs, p ∈ timerArcs) {a b : EventActionId} (h : s.Hop a b) :
    Hop { s with hb := hb, requested := requested, timerArcs := timerArcs } a b := by
  rcases h with ⟨hasked, hlogged⟩ | hfired
  · exact Or.inl ⟨hrequested _ hasked, (hextends.grows.map Arc.ends).subset hlogged⟩
  · exact Or.inr (htimer _ hfired)

/-- The calls of others keep the order. -/
theorem Ordered.extends {hb : HBState} (h : Ordered c s) (hextends : Extends s.hb hb) :
    Ordered c { s with hb := hb } where
  chain := h.chain.mono (fun _ _ => hop_of_extends hextends (fun _ => id) fun _ => id) fun _ => id
  arcs := hextends.arcs h.arcs
  requested p hp hlt := hextends.unique p (h.requested p hp hlt)
  pumped := h.pumped
  last := h.last
  pending := h.pending
  timer := h.timer

/-- The last pump stays before the event action. -/
theorem follows_extends {hb : HBState} (h : Follows c s) (hextends : Extends s.hb hb) :
    Follows c { s with hb := hb } := fun l hl =>
  ReflTransGen.mono (fun _ _ => hop_of_extends hextends (fun _ => id) fun _ => id) _ _ (h l hl)

/-- What the parser asks for is logged, if it does not go backwards. -/
theorem Ordered.request {hb : HBState} {asked pairs : List (EventActionId × EventActionId)}
    (h : Ordered c s) (hadds : HBState.Adds s.hb asked hb) (hpairs : ∀ p ∈ pairs, p ∈ asked) :
    Ordered c { s with hb := hb, requested := s.requested ++ pairs } ∧
      (Follows c s → Follows c { s with hb := hb, requested := s.requested ++ pairs }) ∧
      ∀ a b, (a, b) ∈ pairs → a ≤ b →
        ReflTransGen (Hop { s with hb := hb, requested := s.requested ++ pairs }) a b := by
  have hextends := extends_of_adds hadds
  have hmono : ∀ a b, s.Hop a b →
      Hop { s with hb := hb, requested := s.requested ++ pairs } a b := fun a b =>
    hop_of_extends hextends (fun p hp => List.mem_append_left _ hp) fun _ => id
  have hrequested : ∀ p ∈ s.requested ++ pairs, p.1 < p.2 → p ∈ hb.hb.hbarcsUnique := by
    intro p hp hlt
    rcases List.mem_append.mp hp with hp | hp
    · exact hadds.uniqueGrows p (h.requested p hp hlt)
    · exact hadds.requested p (hpairs p hp) hlt
  refine ⟨⟨h.chain.mono hmono fun _ => id, hadds.ok h.arcs, hrequested, h.pumped, h.last, h.pending,
    h.timer⟩, fun hfollows l hl => ReflTransGen.mono hmono _ _ (hfollows l hl), ?_⟩
  intro a b hab hle
  by_cases heq : a = b
  · exact heq ▸ .refl
  · -- an arc that goes forward is in the log as soon as it has been requested
    have hmem := List.mem_append_right s.requested hab
    have hlt : a < b := lt_of_le_of_ne hle heq
    exact .single (Or.inl ⟨hmem, ((hadds.ok h.arcs).logged (a, b) hlt).mp (hrequested _ hmem hlt)⟩)

/-! ## The functions -/

/-- An explicit arc is added to the component and to those that were asked for. -/
theorem hbAddExplicitArc_eq {earlier later : EventActionId}
    (h : s.hbAddExplicitArc earlier later = some s') :
    ∃ hb, HBState.Adds s.hb [(earlier, later)] hb ∧
      hb.hb.currentEventActionId = s.hb.hb.currentEventActionId ∧
      s' = { s with hb := hb, requested := s.requested ++ [(earlier, later)] } := by
  obtain ⟨hb, hcall, rfl⟩ := Option.map_eq_some_iff.mp h
  obtain ⟨hadds, hhb⟩ := HBState.hbAddExplicitArc_adds hcall
  exact ⟨hb, hadds, by rw [hhb], rfl⟩

/-- An arc to the current event action. -/
theorem inAction_hbAddExplicitArc {earlier : EventActionId} (ok : InAction c s)
    (h : s.hbAddExplicitArc earlier c = some s') :
    InAction c s' ∧ (Follows c s → Follows c s') ∧ s'.parser = s.parser ∧
      (earlier ≤ c → ReflTransGen s'.Hop earlier c) := by
  obtain ⟨hb, hadds, hcurrent, rfl⟩ := hbAddExplicitArc_eq h
  obtain ⟨ordered, hfollows, hpath⟩ := ok.toOrdered.request hadds fun _ => id
  exact ⟨⟨ordered, hcurrent.trans ok.current⟩, hfollows, rfl,
    hpath earlier c (List.mem_singleton.mpr rfl)⟩

/-- The current event action is that of the component. -/
theorem hbCurrentEventAction_eq {hb : HBState} {id : EventActionId}
    (h : hb.hbCurrentEventAction = some id) : hb.hb.currentEventActionId = id ∧ id ≠ 0 := by
  simp only [HBState.hbCurrentEventAction, Option.bind_eq_bind, Option.bind_eq_some_iff] at h
  obtain ⟨_, -, h⟩ := h
  unfold HBState.currentEventAction at h
  split at h
  · simp at h
  · rename_i hzero
    obtain rfl := Option.some.inj h
    exact ⟨rfl, hzero⟩

/-- The event action takes part in the next pump. -/
theorem inAction_threadEndAction (ok : InAction c s) (h : s.threadEndAction = some s') :
    Keeps c s s' ∧ c ∈ s'.parser.modifiedInputJoin.endThreads := by
  obtain ⟨join, hjoin, rfl⟩ := Option.map_eq_some_iff.mp h
  -- the end of the thread puts the event action in front of the list
  obtain ⟨-, hthreads⟩ := ArcRun.endThreads_of_threadEndAction hjoin
  rw [ok.current] at hthreads
  have hmem : c ∈ join.endThreads := by rw [hthreads]; exact List.mem_cons_self
  -- nothing that is in the list comes later
  have hpending : ∀ a ∈ join.endThreads, a ≤ c := by
    intro a ha
    rw [hthreads] at ha
    rcases List.mem_cons.mp ha with rfl | ha
    · exact Int.le_refl _
    · exact ok.pending a ha
  -- what was in the list stays there
  have hmore : ∀ a ∈ s.parser.modifiedInputJoin.endThreads, a ∈ join.endThreads := by
    intro a ha
    rw [hthreads]
    exact List.mem_cons_of_mem _ ha
  have ordered : Ordered c { s with parser := { s.parser with modifiedInputJoin := join } } :=
    ⟨ok.chain.mono (fun _ _ => id) hmore, ok.arcs, ok.requested, ok.pumped, ok.last, hpending,
      ok.timer⟩
  exact ⟨⟨⟨ordered, ok.current⟩, id, id⟩, hmem⟩

/-- An event action that enters the parser comes behind the last pump. -/
theorem inAction_enter (ok : InAction c s) (h : s.enter = some s') :
    Keeps c s s' ∧ Follows c s' ∧ c ∈ s'.parser.modifiedInputJoin.endThreads := by
  simp only [enter, Option.bind_eq_bind, Option.bind_eq_some_iff] at h
  obtain ⟨s₁, hthread, h⟩ := h
  obtain ⟨keeps, hmem⟩ := inAction_threadEndAction ok hthread
  -- there was a pump before: an arc is asked for from it
  split at h
  · rename_i hlast
    simp only [Option.bind_eq_some_iff] at h
    obtain ⟨current, hcurrent, h⟩ := h
    obtain rfl := keeps.inAction.current.symm.trans (hbCurrentEventAction_eq hcurrent).1
    obtain ⟨ok', hfollows, hparser, hpath⟩ := inAction_hbAddExplicitArc keeps.inAction h
    -- that pump is not later than the event action
    have hle := keeps.inAction.last _ (last_eq_some hlast)
    refine ⟨keeps.trans ⟨ok', hfollows, by rw [hparser]; exact id⟩, ?_, hparser ▸ hmem⟩
    intro l hl
    rw [last, hparser, if_neg hlast, Option.mem_some_iff] at hl
    exact hl ▸ hpath hle
  · -- there was none, and so there is nothing to follow
    rename_i hlast
    obtain rfl := Option.some.inj h
    refine ⟨keeps, ?_, hmem⟩
    intro l hl
    simp [last, not_not.mp hlast] at hl

/-- A change of the input in an event action that takes part in the next pump. -/
theorem inAction_changeInput (ok : InAction c s)
    (hmem : c ∈ s.parser.modifiedInputJoin.endThreads) : Keeps c s s.changeInput := by
  refine ⟨⟨⟨?_, ok.arcs, ok.requested, ok.pumped, ok.last, ok.pending, ok.timer⟩, ok.current⟩,
    id, id⟩
  have hchain := ok.chain.contribute hmem ok.pumped
  rw [← ok.current] at hchain
  exact hchain

/-- The end of the file keeps the order, once the event action is in the join of the input. -/
theorem inAction_markEndOfFile (ok : InAction c s)
    (hmem : c ∈ s.parser.modifiedInputJoin.endThreads) : Keeps c s s.markEndOfFile := by
  unfold markEndOfFile
  split
  · exact .refl ok
  · have keeps := inAction_changeInput ok hmem
    exact keeps.trans (keeps_fields _ keeps.inAction rfl rfl fun _ => id)

/-- A chain of an event action before makes it follow, and changes nothing of the parser. -/
theorem inAction_chain {last : EventActionId} (ok : InAction c s) (h : s.chain last c = some s') :
    InAction c s' ∧ (Follows c s → Follows c s') ∧ s'.parser = s.parser := by
  unfold chain at h
  split at h
  · obtain ⟨ok', hfollows, hparser, -⟩ := inAction_hbAddExplicitArc ok h
    exact ⟨ok', hfollows, hparser⟩
  · obtain rfl := Option.some.inj h
    exact ⟨ok, id, rfl⟩

/-- The arcs to a pump, which the order does not need. -/
theorem inAction_chainPump (ok : InAction c s) (h : s.chainPump c = some s') :
    InAction c s' ∧ (Follows c s → Follows c s') ∧
      s'.parser.continueNextChunkTimer = s.parser.continueNextChunkTimer := by
  unfold chainPump at h
  split at h
  · obtain ⟨s₁, hchain, rfl⟩ := Option.map_eq_some_iff.mp h
    obtain ⟨ok', hfollows, hparser⟩ := inAction_chain ok hchain
    have keeps := keeps_fields { s₁.parser with lastNonInsertedParseEventAction := c } ok' rfl rfl
      fun _ => id
    exact ⟨keeps.inAction, fun h => keeps.follows (hfollows h), by rw [hparser]⟩
  · obtain ⟨ok', hfollows, hparser⟩ := inAction_chain ok h
    exact ⟨ok', hfollows, by rw [hparser]⟩

/-- A join adds an arc from each of its ends. -/
theorem joinAction_adds {m m' : MultiJoinHappensBefore} {hb hb' : HBState}
    (h : m.joinAction hb = some (m', hb')) :
    HBState.Adds hb (m.endThreads.map fun id => (id, hb.hb.currentEventActionId)) hb' := by
  have hcall : ArcRun.perform (.joinAction 0) (hb, fun _ => m) =
      some (hb', Function.update (fun _ => m) 0 m') := by simp [ArcRun.perform, h]
  exact ArcRun.perform_adds hcall (by simp)

/-- The visit of the current event action: the last pump and what is pending have a path to it. -/
theorem inAction_visit (ok : InAction c s) (hfollows : Follows c s) (hzero : c ≠ 0)
    (htimer : s.parser.continueNextChunkTimer = none)
    (h : joinModifiedInput c { s with parser := { s.parser with lastParseEventAction := c } } =
      some s') : InAction c { s' with pumped := s'.pumped ++ [c] } ∧
      s'.parser.lastParseEventAction = c := by
  obtain ⟨⟨join, hb⟩, hjoin, rfl⟩ := Option.map_eq_some_iff.mp h
  -- the join asks for an arc from each of its ends
  obtain ⟨-, hhb, -⟩ := ArcRun.endThreads_of_joinAction hjoin
  have hadds := joinAction_adds hjoin
  rw [show s.hb.hb.currentEventActionId = c from ok.current] at hadds
  obtain ⟨ordered, hfollows', hpath⟩ := ok.toOrdered.request hadds
    (fun p (hp : p ∈ (s.parser.modifiedInputJoin.endThreads.filter (· ≠ c)).map
      fun id => (id, c)) => (List.filter_sublist.map _).subset hp)
  -- the event action is the last pump now
  have hlast : Parsing.last { s with
      parser := { s.parser with lastParseEventAction := c } } = some c := if_neg hzero
  -- every end of the join leads to the event action, which may be one of them itself
  have hjoined : ∀ a ∈ s.parser.modifiedInputJoin.endThreads, ReflTransGen (Hop { s with
      hb := hb
      requested := s.requested ++
        (s.parser.modifiedInputJoin.endThreads.filter (· ≠ c)).map fun id => (id, c) }) a c := by
    intro a ha
    by_cases hself : a = c
    · exact hself ▸ .refl
    · refine hpath a c ?_ (ok.pending a ha)
      exact List.mem_map.mpr ⟨a, List.mem_filter.mpr ⟨ha, by simpa using hself⟩, rfl⟩
  -- the chain goes on with the event action
  have hchain := ordered.chain.visit (hfollows' hfollows) hjoined ordered.pumped
  have hpumped : ∀ a ∈ s.pumped ++ [c], a ≤ c := by
    intro a ha
    rcases List.mem_append.mp ha with ha | ha
    · exact ok.pumped a ha
    · exact Int.le_of_eq (List.mem_singleton.mp ha)
  refine ⟨⟨⟨?_, ordered.arcs, ordered.requested, hpumped, ?_, ?_, ?_⟩, ?_⟩, rfl⟩
  · -- the chain ends at the last pump
    rw [← hlast] at hchain
    exact hchain
  · intro l hl
    have hl' : l ∈ (some c : Option EventActionId) := hlast ▸ hl
    exact Int.le_of_eq (Option.mem_some_iff.mp hl').symm
  · -- the join has no ends any more
    intro a ha
    exact absurd ha List.not_mem_nil
  · -- the timer is not active
    intro source hsource
    have hnone : source ∈ (none : Option EventActionId) := htimer ▸ hsource
    exact absurd hnone (Option.not_mem_none _)
  · show hb.hb.currentEventActionId = c
    rw [hhb]
    exact ok.current

/-- A pump comes behind everything before it. -/
theorem inAction_beginPump (ok : InAction c s) (hfollows : Follows c s)
    (htimer : s.parser.continueNextChunkTimer = none) (h : s.beginPump = some s') :
    InAction c s' ∧ s'.parser.lastParseEventAction = c ∧ c ≠ 0 := by
  simp only [beginPump, Option.bind_eq_bind, Option.bind_eq_some_iff, Option.pure_def,
    Option.some.injEq] at h
  obtain ⟨current, hcurrent, s₁, hchain, s₂, hjoin, rfl⟩ := h
  obtain ⟨hid, hzero⟩ := hbCurrentEventAction_eq hcurrent
  obtain rfl := ok.current.symm.trans hid
  have hnested := keeps_fields { s.parser with
    pumpSessionNestingLevel := s.parser.pumpSessionNestingLevel + 1 } ok rfl rfl fun _ => id
  obtain ⟨ok', hfollows', htimer'⟩ := inAction_chainPump hnested.inAction hchain
  obtain ⟨hvisit, hlast⟩ :=
    inAction_visit ok' (hfollows' hfollows) hzero (htimer'.trans htimer) hjoin
  exact ⟨hvisit, hlast, hzero⟩

/-- The timer is started by the last pump. -/
theorem inAction_scheduleForResume (ok : InAction c s) (hzero : c ≠ 0)
    (hlast : s.parser.lastParseEventAction = c) (h : s.scheduleForResume = some s') :
    Keeps c s s' := by
  unfold scheduleForResume at h
  split at h
  · obtain rfl := Option.some.inj h
    have htimer : ∀ source ∈ some s.hb.hb.currentEventActionId, s.last = some source := by
      intro source hsource
      rw [← Option.mem_some_iff.mp hsource, ok.current, last, if_neg (hlast ▸ hzero), hlast]
    exact ⟨⟨⟨ok.chain, ok.arcs, ok.requested, ok.pumped, ok.last, ok.pending, htimer⟩, ok.current⟩,
      id, id⟩
  · simp at h

/-- The event action in which the timer fires comes behind the last pump. -/
theorem inAction_timerFired (ok : InAction c s) (h : s.continueNextChunkTimerFired = some s') :
    Keeps c s s' ∧ Follows c s' ∧ s'.parser.continueNextChunkTimer = none := by
  obtain ⟨source, hsource, rfl⟩ := Option.map_eq_some_iff.mp h
  -- the arc of the timer is one more hop
  have hmono : ∀ a b, s.Hop a b → Hop { s with
      timerArcs := s.timerArcs ++ [(source, s.hb.hb.currentEventActionId)] } a b := fun a b =>
    hop_of_extends ⟨id, List.prefix_rfl, fun _ => id⟩ (fun _ => id) fun _ hp =>
      List.mem_append_left _ hp
  -- it starts at the last pump, which has set the timer
  have hfollows : Follows c { s with
      timerArcs := s.timerArcs ++ [(source, s.hb.hb.currentEventActionId)]
      parser := { s.parser with continueNextChunkTimer := none } } := by
    intro l hl
    have hl' : l ∈ s.last := hl
    rw [ok.timer source hsource, Option.mem_some_iff] at hl'
    rw [← hl']
    exact .single (Or.inr (List.mem_append_right _ (by rw [ok.current]; simp)))
  exact ⟨⟨⟨⟨ok.chain.mono hmono fun _ => id, ok.arcs, ok.requested, ok.pumped, ok.last, ok.pending,
    nofun⟩, ok.current⟩, fun _ => hfollows, id⟩, hfollows, rfl⟩

/-! ## The routines -/

/-- The calls that the rest of the program makes of happens-before functions within an event
    action. -/
def Elsewhere (hb hb' : HBState) : Prop :=
  DispatchOrder.HBCall hb hb' ∧ hb'.hb.currentEventActionId = hb.hb.currentEventActionId

/-- What happens elsewhere keeps the order. -/
theorem keeps_outside (ok : InAction c s) (h : Outside Elsewhere s s') : Keeps c s s' := by
  cases h with
  | happensBefore hcall =>
    have hextends := extends_of_hbCall hcall.1
    exact ⟨⟨ok.toOrdered.extends hextends, hcall.2.trans ok.current⟩,
      fun hfollows => follows_extends hfollows hextends, id⟩
  | insertionPoint => exact keeps_fields _ ok rfl rfl fun _ => id
  | paused => exact keeps_fields _ ok rfl rfl fun _ => id
  | stopParsing => exact keeps_fields _ ok rfl rfl nofun
  | detach => exact keeps_fields _ ok rfl rfl nofun

/-- What the routines need that pump without entering the parser themselves. -/
def Ready (c : EventActionId) (s : Parsing) : Routine → Prop
  | .pumpTokenizer _ => Follows c s ∧ s.parser.continueNextChunkTimer = none
  | .pumpTokenizerIfPossible _ | .prepareToStopParsing | .attemptToEnd | .endIfDelayed =>
    Follows c s
  | _ => True

/-- So does the end of a pump. -/
theorem keeps_endPump (ok : InAction c s) : Keeps c s s.endPump :=
  keeps_fields _ ok rfl rfl fun _ => id

/-- So does the stop of the parser. -/
theorem keeps_startStopping (ok : InAction c s) : Keeps c s s.startStopping :=
  keeps_fields _ ok rfl rfl fun _ => id

/-- So does a pause. -/
theorem keeps_setPaused (ok : InAction c s) (paused : Bool) : Keeps c s (s.setPaused paused) :=
  keeps_fields _ ok rfl rfl fun _ => id

/-- So does the flag for an end that was delayed. -/
theorem keeps_setEndWasDelayed (ok : InAction c s) (delayed : Bool) :
    Keeps c s (s.setEndWasDelayed delayed) :=
  keeps_fields _ ok rfl rfl fun _ => id

/-- The beginning of a pump and its loop: the event action is the last that has pumped. -/
theorem keeps_pump (ok : InAction c s)
    (hready : Follows c s ∧ s.parser.continueNextChunkTimer = none)
    (begins : s.beginPump = some s') (loop : InAction c s' → Keeps c s' s'') :
    Keeps c s s'' ∧ s''.parser.lastParseEventAction = c ∧ c ≠ 0 := by
  obtain ⟨ok', hlast, hzero⟩ := inAction_beginPump ok hready.1 hready.2 begins
  have keeps := loop ok'
  have hlast' := keeps.last hlast
  refine ⟨⟨keeps.inAction, fun _ l hl => ?_, fun _ => hlast'⟩, hlast', hzero⟩
  rw [last, hlast', if_neg hzero, Option.mem_some_iff] at hl
  exact hl ▸ .refl

/-- The scripts that wait run while the parser is not paused, and then it is paused or not. -/
theorem keeps_runScripts (keeps : Keeps c s s') (paused : Bool)
    (scripts : InAction c (s'.setPaused false) → Keeps c (s'.setPaused false) s'') :
    Keeps c s (s''.setPaused paused) := by
  have unpaused := keeps.trans (keeps_setPaused keeps.inAction false)
  have ran := unpaused.trans (scripts unpaused.inAction)
  exact ran.trans (keeps_setPaused ran.inAction paused)

/-- New input: the event action enters, pumps, and attempts to end. -/
theorem keeps_newInput {t : Parsing} (ok : InAction c s) (enters : s.enter = some s')
    (pump : InAction c s'.changeInput → Follows c s'.changeInput → Keeps c s'.changeInput s'')
    (ends : InAction c s'' → Follows c s'' → Keeps c s'' t) : Keeps c s t := by
  obtain ⟨keeps, hfollows, hmem⟩ := inAction_enter ok enters
  have changed := inAction_changeInput keeps.inAction hmem
  have pumped := changed.trans (pump changed.inAction (changed.follows hfollows))
  exact keeps.trans (pumped.trans (ends pumped.inAction (pumped.follows hfollows)))

/-- A pump that is possible is no resumption that is awaited. -/
theorem timer_eq_none (h : s.isScheduledForResume = false) :
    s.parser.continueNextChunkTimer = none := by
  simpa [isScheduledForResume] using h

/-- Every routine keeps the order, whatever scripts do in between. -/
theorem runs_keeps {r : Routine} (h : Runs Elsewhere r s s') (ok : InAction c s)
    (hready : Ready c s r) : Keeps c s s' := by
  induction h with
  | idle | noScriptRunner | notPaused | stopped | notPossible | notDelayed | noScriptsWaiting =>
    exact .refl ok
  | outside h _ ih =>
    have keeps := keeps_outside ok h
    exact keeps.trans (ih keeps.inAction trivial)
  | @nested r s _ _ hr _ _ ih ih' =>
    -- an entry point needs nothing
    have hready' : Ready c s r := by cases r <;> trivial
    have keeps := ih ok hready'
    exact keeps.trans (ih' keeps.inAction trivial)
  | scriptRunner _ _ _ ih => exact ih ok trivial
  | paused _ _ ih =>
    have keeps := ih ok trivial
    exact keeps.trans (keeps_setPaused keeps.inAction _)
  | waiting _ _ _ _ ih => exact ih ok trivial
  | leaving _ _ _ _ ih => exact ih ok trivial
  | taken _ _ _ ih => exact ih ok trivial
  | loopEnd _ _ ih => exact ih ok trivial
  | noToken _ ih => exact ih ok trivial
  | tokenYield _ _ ih ih' =>
    have keeps := ih ok trivial
    exact keeps.trans (ih' keeps.inAction trivial)
  | token _ _ _ ih ih' ih'' =>
    have keeps := ih ok trivial
    have keeps' := keeps.trans (ih' keeps.inAction trivial)
    exact keeps'.trans (ih'' keeps'.inAction trivial)
  | pumpStopped begins _ _ ih =>
    obtain ⟨keeps, -, -⟩ := keeps_pump ok hready begins fun ok' => ih ok' trivial
    exact keeps.trans (keeps_endPump keeps.inAction)
  | pump begins _ _ ih =>
    obtain ⟨keeps, -, -⟩ := keeps_pump ok hready begins fun ok' => ih ok' trivial
    exact keeps.trans (keeps_endPump keeps.inAction)
  | pumpYield begins _ _ schedule ih =>
    -- the event action that starts the timer is the last one that has pumped
    obtain ⟨keeps, hlast, hzero⟩ := keeps_pump ok hready begins fun ok' => ih ok' trivial
    have scheduled := keeps.trans (inAction_scheduleForResume keeps.inAction hzero hlast schedule)
    exact scheduled.trans (keeps_endPump scheduled.inAction)
  | possible _ _ hscheduled _ ih => exact ih ok ⟨hready, timer_eq_none hscheduled⟩
  | runDeferredScriptsAndEnd _ ih => exact ih ok trivial
  | prepareStopped _ _ ih => exact ih ok hready
  | prepare _ _ _ _ ih ih' ih'' =>
    have keeps := ih ok hready
    have stopping := keeps.trans (keeps_startStopping keeps.inAction)
    have keeps' := stopping.trans (ih' stopping.inAction trivial)
    exact keeps'.trans (ih'' keeps'.inAction trivial)
  | delayEnd => exact keeps_setEndWasDelayed ok true
  | attempt _ _ _ ih => exact ih ok hready
  | delayed _ _ _ _ _ ih =>
    have keeps := keeps_setEndWasDelayed ok false
    exact keeps.trans (ih keeps.inAction (keeps.follows hready))
  | insertStopped enters _ => exact (inAction_enter ok enters).1
  | insert enters _ _ _ ih ih' => exact keeps_newInput ok enters ih ih'
  | appendStopped enters _ => exact (inAction_enter ok enters).1
  | appendInSession enters _ _ =>
    obtain ⟨keeps, -, hmem⟩ := inAction_enter ok enters
    exact keeps.trans (inAction_changeInput keeps.inAction hmem)
  | append enters _ _ _ _ ih ih' => exact keeps_newInput ok enters ih ih'
  | finish enters _ ih =>
    obtain ⟨keeps, hfollows, hmem⟩ := inAction_enter ok enters
    have marked := inAction_markEndOfFile keeps.inAction hmem
    exact keeps.trans (marked.trans (ih marked.inAction (marked.follows hfollows)))
  | resumeAfterScript enters _ _ ih ih' =>
    obtain ⟨keeps, hfollows, -⟩ := inAction_enter ok enters
    have pumped := ih keeps.inAction hfollows
    exact keeps.trans (pumped.trans (ih' pumped.inAction (pumped.follows hfollows)))
  | notifyStopping enters _ _ ih =>
    obtain ⟨keeps, -, -⟩ := inAction_enter ok enters
    exact keeps.trans (ih keeps.inAction trivial)
  | notifyWait enters _ _ ih =>
    obtain ⟨keeps, -, -⟩ := inAction_enter ok enters
    exact keeps_runScripts keeps true fun ok' => ih ok' trivial
  | notifyResume enters _ _ _ ih ih' =>
    obtain ⟨keeps, -, -⟩ := inAction_enter ok enters
    have resumed := keeps_runScripts keeps false fun ok' => ih ok' trivial
    exact resumed.trans (ih' resumed.inAction trivial)
  | stylesheetsWait ends _ ih =>
    obtain ⟨keeps, -⟩ := inAction_threadEndAction ok ends
    exact keeps_runScripts keeps true fun ok' => ih ok' trivial
  | stylesheetsResume ends _ _ ih ih' =>
    obtain ⟨keeps, -⟩ := inAction_threadEndAction ok ends
    have resumed := keeps_runScripts keeps false fun ok' => ih ok' trivial
    exact resumed.trans (ih' resumed.inAction trivial)
  | resumeAfterYield fired _ _ ih ih' =>
    obtain ⟨keeps, hfollows, htimer⟩ := inAction_timerFired ok fired
    have pumped := ih keeps.inAction ⟨hfollows, htimer⟩
    exact keeps.trans (pumped.trans (ih' pumped.inAction (pumped.follows hfollows)))

end R4.Parsing

/-! ## Runs -/

namespace R4

open Parsing

/-- A run of the parser, with the last event action in which it was called. -/
structure ParserRun where
  parsing : Parsing
  latest : EventActionId

/-- What happens in a run: calls of the parser, and anything else. -/
inductive ParserLabel where
  | environment
  | call (r : Routine)

/-- One step of a run. A call is made in an event action whose id is not below that of the last
    call, and so are the calls that scripts make during it. -/
inductive ParserStep (x : ParserRun) : ParserLabel → ParserRun → Prop where
  | environment {s : Parsing} (h : Outside DispatchOrder.HBCall x.parsing s) :
      ParserStep x .environment { x with parsing := s }
  | call {r : Routine} {s : Parsing} (hr : r.isEntryPoint = true)
      (hlatest : x.latest ≤ x.parsing.hb.hb.currentEventActionId)
      (h : Runs Elsewhere r x.parsing s) :
      ParserStep x (.call r) ⟨s, x.parsing.hb.hb.currentEventActionId⟩

/-- The runs of a parser, of a document or of a fragment. -/
def parserRuns : Lts ParserRun ParserLabel where
  init x := ∃ isDocument, x.parsing = ⟨.init isDocument, .init, [], [], [], []⟩
  step := ParserStep

/-- What others do between two calls keeps the order. -/
theorem Parsing.Ordered.outside {c : EventActionId} {s s' : Parsing} (ordered : Ordered c s)
    (h : Outside DispatchOrder.HBCall s s') : Ordered c s' := by
  cases h with
  | happensBefore hcall => exact ordered.extends (extends_of_hbCall hcall)
  | insertionPoint => exact ordered.fields _ rfl rfl fun _ => id
  | paused => exact ordered.fields _ rfl rfl fun _ => id
  | stopParsing => exact ordered.fields _ rfl rfl nofun
  | detach => exact ordered.fields _ rfl rfl nofun

/-- In every run, up to the last event action that has called the parser. -/
theorem ordered_of_reachable {x : ParserRun} (r : parserRuns.Reachable x) :
    Ordered x.latest x.parsing := by
  refine r.invariant (P := fun x => Ordered x.latest x.parsing) ?_ ?_
  · -- at the start nothing has been pumped and nothing was asked for
    rintro ⟨_, latest⟩ ⟨isDocument, rfl⟩
    refine ⟨.empty _ _, ⟨List.nodup_nil, ?_, ?_⟩, ?_, ?_, ?_, ?_, nofun⟩
    · intro arc harc
      simp [HBState.init, ActionLog.init] at harc
    · intro p _
      simp [HBState.init, EventActionsHB.init, ActionLog.init]
    · exact fun _ hp => absurd hp List.not_mem_nil
    · exact fun _ ha => absurd ha List.not_mem_nil
    · intro l hl
      simp [Parsing.last, HTMLDocumentParser.init] at hl
    · exact fun _ ha => absurd ha List.not_mem_nil
  · intro x l x' _ ordered h
    cases h with
    -- what others do keeps the order
    | environment h => exact ordered.outside h
    | @call r _ hr hlatest h =>
      -- a call is made in an event action that is not before the last one
      have ok : InAction x.parsing.hb.hb.currentEventActionId x.parsing :=
        ⟨ordered.mono hlatest, rfl⟩
      -- a call enters the parser by itself, so that nothing has to be ready
      have hready : Ready x.parsing.hb.hb.currentEventActionId x.parsing r := by
        cases r <;> trivial
      exact (runs_keeps h ok hready).inAction.toOrdered

/-- In every run, an event action in which the tokenizer was pumped, or in which the input was
    changed, has a path to every later one in which the tokenizer was pumped. The steps of the path
    are logged arcs that the parser asked for, and those of its timer. -/
theorem parsing_event_actions_ordered {x : ParserRun} (r : parserRuns.Reachable x) :
    (∀ a ∈ x.parsing.pumped, ∀ b ∈ x.parsing.pumped, a < b → TransGen x.parsing.Hop a b) ∧
      ∀ a ∈ x.parsing.changed, ∀ b ∈ x.parsing.pumped, a < b → TransGen x.parsing.Hop a b := by
  have hchain := (ordered_of_reachable r).chain
  exact ⟨fun a ha b hb => hchain.path (List.mem_append_left _ ha) hb,
    fun a ha b hb => hchain.path (List.mem_append_right _ ha) hb⟩

/-- Data arrives, one token of it is parsed, and the rest when the timer fires. -/
theorem exists_yielding_run :
    ∃ x, parserRuns.Reachable x ∧ x.parsing.pumped = [1, 2] := by
  -- the first event action appends and yields after one token
  have h₀ : parserRuns.Reachable ⟨⟨.init true, .init, [], [], [], []⟩, 0⟩ := .init ⟨true, rfl⟩
  have h₁ := h₀.step (.environment (.happensBefore
    ⟨.enterEventAction 1 .network, fun _ => .init, _, rfl⟩))
  have happend := h₁.step (.call rfl (show (0 : Int) ≤ 1 by decide) (.append rfl rfl rfl
    (.possible rfl rfl rfl (.pumpYield rfl
      (.tokenYield (.taken rfl (.notPaused rfl) (.inl rfl)) (.idle _)) rfl rfl))
    (.notDelayed false (.inr (.inl rfl)))))
  -- it is left, and a timer starts the next one
  have h₂ := happend.step (.environment (.happensBefore
    ⟨.exitEventAction true, fun _ => .init, _, rfl⟩))
  have h₃ := h₂.step (.environment (.happensBefore
    ⟨.enterEventAction 2 .timer, fun _ => .init, _, rfl⟩))
  -- the timer resumes the parser, which pumps until there are no tokens
  have hresume := h₃.step (.call rfl (show (1 : Int) ≤ 2 by decide) (.resumeAfterYield rfl
    (.pump rfl (.noToken (.taken rfl (.notPaused rfl) (.inl rfl))) rfl)
    (.notDelayed false (.inr (.inl rfl)))))
  exact ⟨_, hresume, rfl⟩

/-- A run in which the parser yields and resumes. -/
theorem parsing_event_actions_ordered_of_yield :
    ∃ x, parserRuns.Reachable x ∧ x.parsing.pumped = [1, 2] ∧ TransGen x.parsing.Hop 1 2 := by
  obtain ⟨x, r, hpumped⟩ := exists_yielding_run
  refine ⟨x, r, hpumped, (parsing_event_actions_ordered r).1 1 ?_ 2 ?_ (by decide)⟩
  · rw [hpumped]
    decide
  · rw [hpumped]
    decide

end R4
