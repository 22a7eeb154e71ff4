import R4.Spec.ArcRun

/-!
# The endpoints of the logged arcs

An id that is zero or negative is an error in strict mode. Outside strict mode the check is
passed over, and an arc from 0, which stands for no event action, is logged like any other.
Replay leaves strict mode for every event action that it runs late.

The functions that request arcs are to be called for event actions that have been entered,
and where they are, and no arc is requested from a reserved id outside strict mode, every
logged arc connects two event actions of the run.

## Key results

- `Known.perform`: the ids that the component remembers have been entered
- `logged_arcs_connect_event_actions`: the endpoints of the arcs of a proper run
- `arc_from_reserved_id`: an arc from 0 is logged outside strict mode
-/

namespace R4.ArcRun

/-- Every logged arc connects two event actions that have been entered, with positive ids. -/
def Sound (x : RunState) : Prop :=
  ∀ arc ∈ x.arcs, (0 < arc.tail ∧ arc.tail ∈ x.entered) ∧ 0 < arc.head ∧ arc.head ∈ x.entered

/-- A call that asks for an arc between two ids of the caller's choice. -/
def asks : ArcLabel → List (EventActionId × EventActionId)
  | .addExplicitArc earlier later => [(earlier, later)]
  | .addTimedArc earlier later _ => [(earlier, later)]
  | _ => []

/-- The calls that the component is made for: arcs are asked for between event actions that
    have been entered, and outside strict mode no arc starts at a reserved id. Arcs that go
    backwards are never logged. -/
def Proper (x : RunState) (l : ArcLabel) : Prop :=
  (∀ p ∈ asks l, p.1 < p.2 → p.1 ∈ x.entered ∧ p.2 ∈ x.entered) ∧
    (x.component.1.strictMode = false → ∀ p ∈ requests l x.component, p.1 < p.2 → 0 < p.1)

/-- The ids that the component remembers have been entered. -/
structure Known (c : Component) (entered : List EventActionId) : Prop where
  current : c.1.hb.currentEventActionId ≠ 0 → c.1.hb.currentEventActionId ∈ entered
  lastUI : c.1.hb.lastUIEventAction ≠ 0 → c.1.hb.lastUIEventAction ∈ entered
  endThreads : ∀ join, ∀ id ∈ (c.2 join).endThreads, id ∈ entered

/-- A call that leaves the remembered ids alone. -/
theorem Known.of_same {s s' : HBState} {joins : Nat → MultiJoinHappensBefore}
    {entered : List EventActionId} (known : Known (s, joins) entered)
    (hcurrent : s'.hb.currentEventActionId = s.hb.currentEventActionId)
    (hlastUI : s'.hb.lastUIEventAction = s.hb.lastUIEventAction) (new : List EventActionId) :
    Known (s', joins) (entered ++ new) where
  current h := by
    simp only [hcurrent] at h ⊢
    exact List.mem_append_left _ (known.current h)
  lastUI h := by
    simp only [hlastUI] at h ⊢
    exact List.mem_append_left _ (known.lastUI h)
  endThreads join id hid := List.mem_append_left _ (known.endThreads join id hid)

/-- A join object that has changed remembers entered ids. -/
theorem Known.update {s s' : HBState} {joins : Nat → MultiJoinHappensBefore}
    {entered : List EventActionId} (known : Known (s, joins) entered)
    (hcurrent : s'.hb.currentEventActionId = s.hb.currentEventActionId)
    (hlastUI : s'.hb.lastUIEventAction = s.hb.lastUIEventAction) {join : Nat}
    {m : MultiJoinHappensBefore} (hm : ∀ id ∈ m.endThreads, id ∈ entered)
    (new : List EventActionId) : Known (s', Function.update joins join m) (entered ++ new) := by
  have hsame := known.of_same hcurrent hlastUI new
  refine ⟨hsame.current, hsame.lastUI, fun join' id hid => ?_⟩
  -- only the object that is called changes
  by_cases hjoin : join' = join
  · subst hjoin
    simp only [Function.update_self] at hid
    exact List.mem_append_left _ (hm id hid)
  · simp only [Function.update_of_ne hjoin] at hid
    exact hsame.endThreads join' id hid

/-- The thread that ends is the current event action. -/
theorem endThreads_of_threadEndAction {m m' : MultiJoinHappensBefore} {s : HBState}
    (h : m.threadEndAction s = some m') :
    s.hb.currentEventActionId ≠ 0 ∧ m'.endThreads = s.hb.currentEventActionId :: m.endThreads := by
  simp only [MultiJoinHappensBefore.threadEndAction, HBState.hbCurrentEventAction,
    HBState.currentEventAction, Option.bind_eq_bind, Option.bind_eq_some_iff, Option.pure_def,
    Option.some.injEq] at h
  obtain ⟨_, -, id, ⟨_, -, hid⟩, rfl⟩ := h
  split at hid
  · simp at hid
  · rename_i hcurrent
    exact ⟨hcurrent, by rw [Option.some.inj hid]⟩

/-- A join keeps the threads that ended, and needs a current event action if there are any. -/
theorem endThreads_of_joinAction {m m' : MultiJoinHappensBefore} {s s' : HBState}
    (h : m.joinAction s = some (m', s')) :
    m'.endThreads = m.endThreads ∧ s'.hb = { s.hb with hbarcsUnique := s'.hb.hbarcsUnique } ∧
      (m.endThreads ≠ [] → s.hb.currentEventActionId ≠ 0) := by
  unfold MultiJoinHappensBefore.joinAction at h
  dsimp only at h
  cases hthreads : m.endThreads with
  | nil =>
    rw [hthreads] at h
    obtain ⟨rfl, rfl⟩ := Prod.mk.inj (Option.some.inj h)
    exact ⟨rfl, rfl, fun hne => absurd rfl hne⟩
  | cons id ids =>
    simp only [hthreads, Option.bind_eq_bind, Option.bind_eq_some_iff, Option.pure_def,
      Option.some.injEq, Prod.mk.injEq] at h
    obtain ⟨_, -, joinSlice, hcurrent, s₁, hjoin, rfl, rfl⟩ := h
    refine ⟨rfl, (HBState.joinThreads_adds hjoin).2, fun _ hzero => ?_⟩
    simp [HBState.currentEventAction, hzero] at hcurrent

/-- Every call remembers entered ids only. -/
theorem Known.perform {c c' : Component} {entered : List EventActionId} {l : ArcLabel}
    (known : Known c entered) (h : ArcRun.perform l c = some c') :
    Known c' (entered ++ enters l) := by
  obtain ⟨s, joins⟩ := c
  cases l with
  | addExplicitArc earlier later =>
    obtain ⟨s', hcall, rfl⟩ := Option.map_eq_some_iff.mp h
    have hhb := (HBState.hbAddExplicitArc_adds hcall).2
    exact known.of_same (by rw [hhb]) (by rw [hhb]) _
  | addTimedArc earlier later duration =>
    obtain ⟨s', hcall, rfl⟩ := Option.map_eq_some_iff.mp h
    have hhb := (HBState.hbAddTimedArc_adds hcall).2
    exact known.of_same (by rw [hhb]) (by rw [hhb]) _
  | enterEventAction id type =>
    obtain ⟨s', hcall, rfl⟩ := Option.map_eq_some_iff.mp h
    have hhb := (HBState.hbEnterEventAction_adds hcall).2
    refine ⟨fun _ => ?_, fun hne => ?_, fun join id hid =>
      List.mem_append_left _ (known.endThreads join id hid)⟩
    · rw [hhb]
      simp [enters]
    · rw [hhb] at hne ⊢
      -- only an event action of the user interface is remembered as the last one
      by_cases hui : type = .userInterface
      · simp [hui, enters]
      · simp only [hui, if_false] at hne ⊢
        exact List.mem_append_left _ (known.lastUI hne)
  | exitEventAction commit =>
    obtain ⟨s', hcall, rfl⟩ := Option.map_eq_some_iff.mp h
    have hhb := (HBState.hbExitEventAction_adds hcall).2
    refine ⟨fun hne => ?_, fun hne => ?_, fun join id hid =>
      List.mem_append_left _ (known.endThreads join id hid)⟩
    · simp [hhb] at hne
    · rw [hhb] at hne ⊢
      exact List.mem_append_left _ (known.lastUI hne)
  | threadEndAction join =>
    obtain ⟨m, hcall, rfl⟩ := Option.map_eq_some_iff.mp h
    obtain ⟨hcurrent, hthreads⟩ := endThreads_of_threadEndAction hcall
    refine known.update rfl rfl (fun id hid => ?_) _
    rw [hthreads] at hid
    -- the thread that ended runs in the current event action
    rcases List.mem_cons.mp hid with rfl | hid
    · exact known.current hcurrent
    · exact known.endThreads join id hid
  | joinAction join =>
    obtain ⟨⟨m, s'⟩, hcall, rfl⟩ := Option.map_eq_some_iff.mp h
    obtain ⟨hthreads, hhb, -⟩ := endThreads_of_joinAction hcall
    refine known.update (by rw [hhb]) (by rw [hhb]) (fun id hid => ?_) _
    rw [hthreads] at hid
    exact known.endThreads join id hid
  | strictMode strict =>
    obtain rfl := Option.some.inj h
    exact known.of_same (by rfl) (by rfl) _
  | allocate =>
    obtain rfl := Option.some.inj h
    exact known.of_same (by rfl) (by rfl) _
  | logCommand command stringId =>
    obtain ⟨s', hcall, rfl⟩ := Option.map_eq_some_iff.mp h
    obtain rfl := HBState.actionLogCommand_eq hcall
    exact known.of_same (by rfl) (by rfl) _
  | triggerEvent eventId =>
    obtain rfl := Option.some.inj h
    exact known.of_same (by rfl) (by rfl) _
  | eventTriggered eventId =>
    obtain rfl := Option.some.inj h
    exact known.of_same (by rfl) (by rfl) _

/-- What a call requests without being asked for it, it requests between entered ids: the
    chain of the user interface and the threads that are joined. -/
theorem Known.requests {c c' : Component} {entered : List EventActionId} {l : ArcLabel}
    (known : Known c entered) (h : ArcRun.perform l c = some c')
    {p : EventActionId × EventActionId} (hp : p ∈ ArcRun.requests l c) :
    p ∈ asks l ∨ (p.1 ∈ entered ++ enters l ∧ p.2 ∈ entered ++ enters l) := by
  obtain ⟨s, joins⟩ := c
  cases l with
  | addExplicitArc earlier later => exact Or.inl hp
  | addTimedArc earlier later duration => exact Or.inl hp
  | enterEventAction id type =>
    simp only [ArcRun.requests, HBState.uiRequests] at hp
    split at hp
    · rename_i hui
      obtain rfl := List.mem_singleton.mp hp
      exact Or.inr ⟨List.mem_append_left _ (known.lastUI hui.2), by simp [enters]⟩
    · simp at hp
  | joinAction join =>
    obtain ⟨⟨m, s'⟩, hcall, rfl⟩ := Option.map_eq_some_iff.mp h
    obtain ⟨-, -, hcurrent⟩ := endThreads_of_joinAction hcall
    obtain ⟨id, hid, rfl⟩ := List.mem_map.mp hp
    -- with no thread that ended there is no request, so a current event action is there
    exact Or.inr ⟨List.mem_append_left _ (known.endThreads join id hid),
      List.mem_append_left _ (known.current (hcurrent (List.ne_nil_of_mem hid)))⟩
  | exitEventAction | threadEndAction | strictMode | allocate | logCommand | triggerEvent
  | eventTriggered => simp [ArcRun.requests] at hp

/-! ## Proper runs -/

/-- What holds between any two calls of a proper run. -/
structure Connected (x : RunState) : Prop where
  ok : Ok x
  known : Known x.component x.entered
  arcs : ∀ arc ∈ x.arcs, 0 < arc.tail ∧ arc.tail ∈ x.entered ∧ arc.head ∈ x.entered

/-- Every proper step keeps the ends of the arcs. -/
theorem Connected.step {x x' : RunState} {l : ArcLabel} (connected : Connected x)
    (proper : Proper x l) (h : exec x l = some x') : Connected x' := by
  have ok' := connected.ok.step h
  obtain ⟨c, hcall, rfl⟩ := Option.map_eq_some_iff.mp h
  refine ⟨ok', connected.known.perform hcall, fun arc harc => ?_⟩
  have hold : arc ∈ x.arcs →
      0 < arc.tail ∧ arc.tail ∈ x.entered ++ enters l ∧ arc.head ∈ x.entered ++ enters l := by
    intro harc
    obtain ⟨hpositive, htail, hhead⟩ := connected.arcs arc harc
    exact ⟨hpositive, List.mem_append_left _ htail, List.mem_append_left _ hhead⟩
  by_cases hmode : ∃ strict, l = .strictMode strict
  · -- a change of the mode logs nothing
    obtain ⟨strict, rfl⟩ := hmode
    obtain rfl := Option.some.inj hcall
    exact hold harc
  · have hadds := perform_adds hcall fun strict hl => hmode ⟨strict, hl⟩
    rcases hadds.origin arc harc with harc' | hpair
    · exact hold harc'
    · -- a new arc: it was requested, and goes forward
      have hlt : arc.ends.1 < arc.ends.2 := ok'.arcs.forward arc harc
      refine ⟨?_, ?_⟩
      · -- strict mode checks the tail itself; outside it the call has to be proper
        cases hstrict : x.component.1.strictMode with
        | true => exact hadds.positive hstrict _ hpair hlt
        | false => exact proper.2 hstrict _ hpair hlt
      · rcases connected.known.requests hcall hpair with hasked | hentered
        · obtain ⟨htail, hhead⟩ := proper.1 _ hasked hlt
          exact ⟨List.mem_append_left _ htail, List.mem_append_left _ hhead⟩
        · exact hentered

/-- In every run of proper steps. -/
theorem connected_of_reachable {x : RunState} (r : (arcRuns.restrict Proper).Reachable x) :
    Connected x := by
  refine Lts.Reachable.invariant (P := Connected) ?_ ?_ r
  · -- at the start there are neither arcs nor joins
    intro x hx
    have ok := ok_of_reachable (.init hx)
    obtain rfl := hx
    refine ⟨ok, ⟨?_, ?_, ?_⟩, ?_⟩
    · intro hne
      exact absurd rfl hne
    · intro hne
      exact absurd rfl hne
    · intro join id hid
      simp [MultiJoinHappensBefore.init] at hid
    · intro arc harc
      simp [RunState.arcs, HBState.init, ActionLog.init] at harc
  · intro x l x' _ connected h
    exact connected.step h.1 h.2

/-- What holds of a run gives the ends of its arcs. -/
theorem Connected.sound {x : RunState} (connected : Connected x) : Sound x := by
  intro arc harc
  obtain ⟨hpositive, htail, hhead⟩ := connected.arcs arc harc
  exact ⟨⟨hpositive, htail⟩, Int.lt_trans hpositive (connected.ok.arcs.forward arc harc), hhead⟩

/-- A call that is not proper logs an arc that it should not. -/
theorem proper_of_sound {x x' : RunState} {l : ArcLabel} (ok : Ok x) (h : exec x l = some x')
    (sound : Sound x') : Proper x l := by
  have ok' := ok.step h
  obtain ⟨c, hcall, rfl⟩ := Option.map_eq_some_iff.mp h
  have hlogged : ∀ p ∈ requests l x.component, p.1 < p.2 →
      0 < p.1 ∧ p.1 ∈ x.entered ++ enters l ∧ p.2 ∈ x.entered ++ enters l := by
    intro p hp hlt
    have hunique := ok'.requested p (List.mem_append_right _ hp) hlt
    obtain ⟨arc, harc, rfl⟩ := List.mem_map.mp ((ok'.arcs.logged p hlt).mp hunique)
    obtain ⟨⟨hpositive, htail⟩, -, hhead⟩ := sound arc harc
    exact ⟨hpositive, htail, hhead⟩
  refine ⟨fun p hp hlt => ?_, fun _ p hp hlt => (hlogged p hp hlt).1⟩
  -- a call that asks for an arc enters nothing, so its endpoints were there before
  have henters : enters l = [] ∧ p ∈ requests l x.component := by
    cases l with
    | addExplicitArc earlier later => exact ⟨rfl, hp⟩
    | addTimedArc earlier later duration => exact ⟨rfl, hp⟩
    | enterEventAction | exitEventAction | threadEndAction | joinAction | strictMode | allocate
    | logCommand | triggerEvent | eventTriggered => simp [asks] at hp
  obtain ⟨-, htail, hhead⟩ := hlogged p henters.2 hlt
  rw [henters.1, List.append_nil] at htail hhead
  exact ⟨htail, hhead⟩

/-- In every run in which arcs are asked for between event actions that have been entered,
    and none is requested from a reserved id outside strict mode, the endpoints of every
    logged arc are positive ids of event actions that have been entered. The first call that
    is not proper breaks this. -/
theorem logged_arcs_connect_event_actions (x : RunState)
    (r : (arcRuns.restrict Proper).Reachable x) :
    Sound x ∧ ∀ l x', exec x l = some x' → (Proper x l ↔ Sound x') := by
  have connected := connected_of_reachable r
  refine ⟨connected.sound, fun l x' h => ⟨fun proper => ?_, proper_of_sound connected.ok h⟩⟩
  exact (connected.step proper h).sound

/-- A call that is proper. -/
def execProper (x : RunState) (l : ArcLabel) : Option RunState :=
  if (∀ p ∈ asks l, p.1 < p.2 → p.1 ∈ x.entered ∧ p.2 ∈ x.entered) ∧
      (x.component.1.strictMode = false → ∀ p ∈ requests l x.component, p.1 < p.2 → 0 < p.1) then
    exec x l
  else none

/-- Two event actions that are connected outside strict mode. -/
theorem logged_arcs_connect_event_actions_of_run :
    ∃ x, (arcRuns.restrict Proper).Reachable x ∧ ∃ arc ∈ x.arcs, arc.ends = (1, 2) ∧
      0 < arc.tail ∧ arc.head ∈ x.entered := by
  -- one arc between two event actions
  have hrun : (([.enterEventAction 1 .timer, .exitEventAction true, .strictMode false,
      .enterEventAction 2 .timer, .addExplicitArc 1 2] : List ArcLabel).foldlM execProper
        ⟨(.init, fun _ => .init), [], []⟩).map RunState.arcs = some [⟨1, 2, -1⟩] := by
    decide +kernel
  obtain ⟨x, hx, harcs⟩ := Option.map_eq_some_iff.mp hrun
  -- every step of the run is proper
  have hstep : ∀ x l x', execProper x l = some x' → (arcRuns.restrict Proper).step x l x' := by
    intro x l x' h
    unfold execProper at h
    split at h
    · rename_i hproper
      exact ⟨hproper, h⟩
    · simp at h
  have r := Lts.Reachable.foldlM hstep (.init rfl) hx
  have harc : (⟨1, 2, -1⟩ : Arc) ∈ x.arcs := by rw [harcs]; exact List.mem_singleton.mpr rfl
  obtain ⟨⟨hpositive, -⟩, -, hhead⟩ := (logged_arcs_connect_event_actions x r).1 _ harc
  exact ⟨x, r, _, harc, rfl, hpositive, hhead⟩

/-- Outside strict mode an arc from the reserved id 0 is logged. -/
theorem arc_from_reserved_id : ¬∀ x, arcRuns.Reachable x → Sound x := by
  intro hclaim
  -- callers pass 0 for an event action that is not there
  have hrun : (([.strictMode false, .enterEventAction 1 .network, .addExplicitArc 0 1] :
      List ArcLabel).foldlM exec ⟨(.init, fun _ => .init), [], []⟩).map RunState.arcs =
        some [⟨0, 1, -1⟩] := by decide +kernel
  obtain ⟨x, hx, harcs⟩ := Option.map_eq_some_iff.mp hrun
  have r : arcRuns.Reachable x := Lts.Reachable.foldlM (fun _ _ _ h => h) (.init rfl) hx
  have harc : (⟨0, 1, -1⟩ : Arc) ∈ x.arcs := by rw [harcs]; exact List.mem_singleton.mpr rfl
  obtain ⟨⟨hpositive, -⟩, -⟩ := hclaim x r ⟨0, 1, -1⟩ harc
  exact Int.lt_irrefl 0 hpositive

end R4.ArcRun
