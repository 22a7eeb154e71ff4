import R4.ForStd.Lts
import R4.Native.Register
import R4.Spec.SpecificationSchedulerStep

/-!
# The record scheduler and the register

`ThreadTimers` keeps two tables of what is pending: the handlers in `EventActionRegister`
and the descriptors in the queues of `SpecificationScheduler`. An expiry adds to both, a
deregistration removes from both, and `executeDelayedEventAction` runs the handler of the
descriptor that it takes from a queue. This module runs the two together.

`eventActionDescheduled` looks for the type `"NETWORK"`, which no descriptor has, so a
`Network` event that is deregistered stays in its queue. `Deregisters` is the condition on
a deregistration under which that does not matter.

## Key results

- `agree_step`: a step that meets the condition keeps the two tables in agreement
- `scheduler_agrees_with_register`: what holds of every run whose steps all meet it
- `cancelled_network_event_blocks`: a run in which they part
-/

namespace R4.SpecificationScheduler

variable {O H : Type}

/-! ## The two tables together -/

/-- The happens-before component and the action log. -/
structure HappensBefore (O H : Type) where
  allocateEventActionId : H → EventActionId × H
  enterEventAction : EventActionId → ActionLogType → H → Option H
  exitEventAction : Bool → H → Option H
  eventTriggered : O → H → H

/-- What a handler can change besides the register. -/
structure RecordEnvironment (H : Type) where
  scheduler : SpecificationScheduler
  doneCounter : UInt32
  hb : H

/-- The state of a recording. -/
structure Recording (O H : Type) where
  scheduler : SpecificationScheduler
  register : EventActionRegister O
  doneCounter : UInt32
  hb : H

/-- `ThreadTimers::deregisterEventActionHandler`. -/
def deregisterEventActionHandler (d : EventActionDescriptor)
    (s : EventActionRegister O × SpecificationScheduler) :
    Option (EventActionRegister O × SpecificationScheduler) :=
  (s.2.eventActionDescheduled d).map fun sched => (s.1.deregisterEventActionHandler d, sched)

/-- The deregistrations that a handler makes while it runs. -/
def deregisterAll : List EventActionDescriptor → EventActionRegister O × SpecificationScheduler →
    Option (EventActionRegister O × SpecificationScheduler)
  | [], s => some s
  | d :: ds, s => do
    let s ← deregisterEventActionHandler d s
    deregisterAll ds s

/-- The platform while a handler runs that makes the deregistrations `nested` and leaves
    the done counter at `after`. -/
def handling (hb : HappensBefore O H) (nested : List EventActionDescriptor) (after : UInt32) :
    Platform O (RecordEnvironment H) where
  hbAllocateEventActionId e :=
    let (id, h) := hb.allocateEventActionId e.hb
    (id, { e with hb := h })
  hbEnterEventAction id type e := (hb.enterEventAction id type e.hb).map fun h => { e with hb := h }
  hbExitEventAction commit e := (hb.exitEventAction commit e.hb).map fun h => { e with hb := h }
  actionLogEventTriggered o e := { e with hb := hb.eventTriggered o e.hb }
  call _ _ s := (deregisterAll nested (s.1, s.2.scheduler)).map fun (register, scheduler) =>
    (true, register, { s.2 with scheduler := scheduler, doneCounter := after })

/-- What the scheduler calls: `runEventAction(-1, -1, descriptor)` and `doneCounter()`. -/
def recordEnv (hb : HappensBefore O H) (nested : List EventActionDescriptor) (after : UInt32) :
    RecordEnv (EventActionRegister O × UInt32 × H) where
  runEventAction descriptor s :=
    (EventActionRegister.runEventAction (handling hb nested after) (-1) (-1) descriptor
      (s.2.1, ⟨s.1, s.2.2.1, s.2.2.2⟩)).map fun (found, register, e) =>
        (found, e.scheduler, register, e.doneCounter, e.hb)
  doneCounter w := w.2.1

/-- The labels of a run. -/
inductive RecordingLabel (O : Type) where
  | expire (d : EventActionDescriptor) (handler : O)
  | deregister (d : EventActionDescriptor)
  | execute (nested : List EventActionDescriptor) (after : UInt32)
  | done (counter : UInt32)

/-- One step. A timer that expires has a descriptor, and the types that the source gives
    descriptors are identifiers. -/
inductive RecordingStep (hb : HappensBefore O H) :
    Recording O H → RecordingLabel O → Recording O H → Prop where
  | expire {r : Recording O H} {d : EventActionDescriptor} {handler : O}
      {s : SpecificationScheduler} (hnull : d.isNull = false) (htype : '(' ∉ d.type)
      (h : r.scheduler.eventActionScheduled d = some s) :
      RecordingStep hb r (.expire d handler)
        { r with scheduler := s, register := r.register.registerEventActionHandler d handler }
  | deregister {r : Recording O H} {d : EventActionDescriptor} {reg : EventActionRegister O}
      {s : SpecificationScheduler} (hnull : d.isNull = false) (htype : '(' ∉ d.type)
      (h : deregisterEventActionHandler d (r.register, r.scheduler) = some (reg, s)) :
      RecordingStep hb r (.deregister d) { r with scheduler := s, register := reg }
  | execute {r : Recording O H} {nested : List EventActionDescriptor} {after counter : UInt32}
      {more : Bool} {s : SpecificationScheduler} {reg : EventActionRegister O} {h : H}
      (htypes : ∀ d ∈ nested, '(' ∉ d.type)
      (hrun : executeDelayedEventAction (recordEnv hb nested after)
        (r.scheduler, r.register, r.doneCounter, r.hb) = some (more, s, reg, counter, h)) :
      RecordingStep hb r (.execute nested after) ⟨s, reg, counter, h⟩
  | done {r : Recording O H} (counter : UInt32) :
      RecordingStep hb r (.done counter) { r with doneCounter := counter }

/-- The recordings: no event action provider is registered in one. -/
def recordings (hb : HappensBefore O H) : Lts (Recording O H) (RecordingLabel O) where
  init r := r.scheduler = init ∧ r.register = EventActionRegister.empty
  step := RecordingStep hb

/-- Everything that is queued in the scheduler. -/
def queued (s : SpecificationScheduler) : List EventActionDescriptor :=
  s.activeNetworkQueue ++ (s.parsingQueue ++ (s.networkQueue ++ s.otherQueue))

/-- The strings under which handlers are pending, one for each handler. -/
def pendingStrings (reg : EventActionRegister O) : List StdString :=
  reg.descriptorToHandler.elems.map Prod.fst

/-- The deregistration reaches every pending handler in the scheduler's queues too. -/
def Deregisters (reg : EventActionRegister O) (d : EventActionDescriptor) : Prop :=
  d.type = "Network".toList ∨ d.type = "NETWORK".toList → d.toString ∉ pendingStrings reg

/-- The same of deregistrations made one after the other. -/
def DeregistersAll : EventActionRegister O → List EventActionDescriptor → Prop
  | _, [] => True
  | reg, d :: ds => Deregisters reg d ∧ DeregistersAll (reg.deregisterEventActionHandler d) ds

/-- No step deregisters a pending network event. -/
def DeregistersIn (r : Recording O H) : RecordingLabel O → Prop
  | .deregister d => Deregisters r.register d
  | .execute nested _ => DeregistersAll r.register nested
  | _ => True

/-! ## The invariant -/

/-- The queue in which a pending event action stands. -/
def Placed (branch : Branch) (d : EventActionDescriptor) : Prop :=
  match branch with
  | .parsing => d.type = "HTMLDocumentParser".toList
  | .active | .network => d.type = "Network".toList
  | .other => d.type ≠ "HTMLDocumentParser".toList ∧ d.type ≠ "Network".toList

/-- The queues and the register hold the same event actions. -/
structure Agree (s : SpecificationScheduler) (reg : EventActionRegister O) : Prop where
  perm : ((queued s).map EventActionDescriptor.toString).Perm (pendingStrings reg)
  nonEmpty : reg.descriptorToHandler.NonEmpty
  noProviders : reg.typeToProvider = []
  placed : ∀ branch, ∀ d ∈ s.queueOf branch, Placed branch d
  types : ∀ branch, ∀ d ∈ s.queueOf branch, '(' ∉ d.type

/-- A descriptor is queued if it is in one of the four queues. -/
theorem mem_queued {s : SpecificationScheduler} {d : EventActionDescriptor} :
    d ∈ queued s ↔ ∃ branch, d ∈ s.queueOf branch := by
  simp only [queued, List.mem_append]
  constructor
  · rintro (h | h | h | h)
    · exact ⟨.active, h⟩
    · exact ⟨.parsing, h⟩
    · exact ⟨.network, h⟩
    · exact ⟨.other, h⟩
  · rintro ⟨branch, h⟩
    cases branch
    · exact .inl h
    · exact .inr (.inl h)
    · exact .inr (.inr (.inl h))
    · exact .inr (.inr (.inr h))

/-- A descriptor is queued as often as in the four queues together. -/
theorem count_queued (s : SpecificationScheduler) (d : EventActionDescriptor) :
    (queued s).count d = (s.queueOf .active).count d + ((s.queueOf .parsing).count d +
      ((s.queueOf .network).count d + (s.queueOf .other).count d)) := by
  simp only [queued, queueOf, List.count_append]

/-- A name is pending if the register has a handler under it. -/
theorem mem_pendingStrings {reg : EventActionRegister O} {key : StdString} :
    key ∈ pendingStrings reg ↔ reg.descriptorToHandler.queue key ≠ [] := by
  simp only [pendingStrings, List.mem_map]
  constructor
  · rintro ⟨⟨k, o⟩, hmem, rfl⟩
    exact List.ne_nil_of_mem ((QueueMap.mem_elems_iff _ _ _).mp hmem)
  · intro h
    obtain ⟨o, ho⟩ := List.exists_mem_of_ne_nil _ h
    exact ⟨(key, o), (QueueMap.mem_elems_iff _ _ _).mpr ho, rfl⟩

/-- A queued descriptor has a handler under its name. -/
theorem Agree.mem_pending {s : SpecificationScheduler} {reg : EventActionRegister O}
    (a : Agree s reg) {branch : Branch} {d : EventActionDescriptor} (h : d ∈ s.queueOf branch) :
    d.toString ∈ pendingStrings reg :=
  a.perm.subset (List.mem_map_of_mem (mem_queued.mpr ⟨branch, h⟩))

/-! ## Expiry -/

/-- Registering a handler makes the name of its descriptor pending once more. -/
theorem pendingStrings_register (reg : EventActionRegister O) (d : EventActionDescriptor)
    (handler : O) :
    (pendingStrings (reg.registerEventActionHandler d handler)).Perm
      (d.toString :: pendingStrings reg) :=
  (QueueMap.elems_push reg.descriptorToHandler d.toString handler).map Prod.fst

/-- Scheduling puts the descriptor at the end of the queue it belongs to. -/
theorem eventActionScheduled_queueOf {s s' : SpecificationScheduler} {d : EventActionDescriptor}
    (h : s.eventActionScheduled d = some s') :
    ∃ branch, Placed branch d ∧
      ∀ b, s'.queueOf b = if b = branch then s.queueOf b ++ [d] else s.queueOf b := by
  unfold eventActionScheduled at h
  split at h
  · -- a parsing event action
    rename_i htype
    obtain rfl := Option.some.inj h
    exact ⟨.parsing, htype, fun b => by cases b <;> rfl⟩
  · rename_i hparser
    split at h
    · -- a network event: its queue depends on the active sequence
      rename_i htype
      obtain ⟨id, -, h⟩ := Option.map_eq_some_iff.mp h
      split at h <;> subst h
      · exact ⟨.active, htype, fun b => by cases b <;> rfl⟩
      · exact ⟨.network, htype, fun b => by cases b <;> rfl⟩
    · -- any other event action
      rename_i htype
      obtain rfl := Option.some.inj h
      exact ⟨.other, ⟨hparser, htype⟩, fun b => by cases b <;> rfl⟩

/-- A descriptor that is put into one queue is queued once more. -/
theorem queued_of_push {s s' : SpecificationScheduler} {d : EventActionDescriptor}
    {branch : Branch}
    (h : ∀ b, s'.queueOf b = if b = branch then s.queueOf b ++ [d] else s.queueOf b) :
    (queued s').Perm (d :: queued s) := by
  rw [List.perm_iff_count]
  intro e
  have hcount : ∀ b, (s'.queueOf b).count e =
      (s.queueOf b).count e + if b = branch then [d].count e else 0 := by
    intro b
    rw [h b]
    split
    · rw [List.count_append]
    · rw [Nat.add_zero]
  rw [count_queued, List.count_cons, count_queued, hcount, hcount, hcount, hcount]
  cases branch <;> simp [List.count_cons] <;> omega

/-- A timer that expires is registered and queued. -/
theorem agree_expire {s s' : SpecificationScheduler} {reg : EventActionRegister O}
    {d : EventActionDescriptor} (handler : O) (a : Agree s reg) (htype : '(' ∉ d.type)
    (h : s.eventActionScheduled d = some s') :
    Agree s' (reg.registerEventActionHandler d handler) := by
  obtain ⟨branch, hplaced, hq⟩ := eventActionScheduled_queueOf h
  -- a queued descriptor was there, or is the new one
  have hmem : ∀ b, ∀ e ∈ s'.queueOf b, e ∈ s.queueOf b ∨ (b = branch ∧ e = d) := by
    intro b e he
    rw [hq b] at he
    split at he
    · rename_i hb
      rcases List.mem_append.mp he with he | he
      · exact .inl he
      · exact .inr ⟨hb, List.mem_singleton.mp he⟩
    · exact .inl he
  refine
    { perm := ?_
      nonEmpty := a.nonEmpty.push _ _
      noProviders := a.noProviders
      placed := ?_
      types := ?_ }
  · -- the name of the new one is pending once more
    have hpush :=
      ((queued_of_push hq).map EventActionDescriptor.toString).trans (a.perm.cons d.toString)
    exact hpush.trans (pendingStrings_register reg d handler).symm
  · intro b e he
    -- what was queued stays in its place, and the new one is where its type belongs
    rcases hmem b e he with he | ⟨rfl, rfl⟩
    · exact a.placed b e he
    · exact hplaced
  · intro b e he
    -- the types have no bracket
    rcases hmem b e he with he | ⟨rfl, rfl⟩
    · exact a.types b e he
    · exact htype

/-! ## Deregistration -/

/-- Deregistering takes all handlers of the name. -/
theorem pendingStrings_deregister (reg : EventActionRegister O) (d : EventActionDescriptor) :
    pendingStrings (reg.deregisterEventActionHandler d) =
      (pendingStrings reg).filter fun k => k ≠ d.toString := by
  simp only [pendingStrings, EventActionRegister.deregisterEventActionHandler, QueueMap.elems_erase,
    List.filter_map]
  rfl

/-- A filtered queue that held nothing of this string is as it was. -/
theorem filter_of_absent {key : StdString} {queue : List EventActionDescriptor}
    (h : ∀ e ∈ queue, e.toString ≠ key) : queue.filter (fun e => e.toString ≠ key) = queue :=
  List.filter_eq_self.mpr fun e he => by simpa using h e he

/-- `dequeueSpecificElement` goes by `operator==`, the register by the string. -/
theorem dequeueSpecificElement_eq {d : EventActionDescriptor} {queue : List EventActionDescriptor}
    (hd : '(' ∉ d.type) (h : ∀ e ∈ queue, '(' ∉ e.type) :
    dequeueSpecificElement d queue = queue.filter fun e => e.toString ≠ d.toString := by
  refine List.filter_congr fun e he => ?_
  have : e.equals d = decide (e.toString = d.toString) := by
    rw [Bool.eq_iff_iff, decide_eq_true_iff]
    refine ⟨EventActionDescriptor.toString_eq_of_equals, fun hs => ?_⟩
    rw [EventActionDescriptor.toString_eq, EventActionDescriptor.toString_eq] at hs
    obtain ⟨hc, ht, hp⟩ := EventActionDescriptor.descriptorText_injective (h e he) hd hs
    simp only [EventActionDescriptor.equals, hc, ht, hp, BEq.rfl, Bool.and_self]
  rw [this, decide_not]

/-- Descriptors of different types have different strings. -/
theorem toString_ne_of_type {d e : EventActionDescriptor} (hd : '(' ∉ d.type) (he : '(' ∉ e.type)
    (h : e.type ≠ d.type) : e.toString ≠ d.toString := by
  intro hs
  rw [EventActionDescriptor.toString_eq, EventActionDescriptor.toString_eq] at hs
  exact h (EventActionDescriptor.descriptorText_injective he hd hs).2.1

/-- Descheduling removes the string from every queue, when the condition holds. -/
theorem eventActionDescheduled_queueOf {s s' : SpecificationScheduler}
    {reg : EventActionRegister O} {d : EventActionDescriptor} (a : Agree s reg)
    (hd : '(' ∉ d.type) (hc : Deregisters reg d) (h : s.eventActionDescheduled d = some s') :
    ∀ b, s'.queueOf b = (s.queueOf b).filter fun e => e.toString ≠ d.toString := by
  -- a queue of another type holds nothing under the string
  have hskip : ∀ b, (∀ e, Placed b e → e.type ≠ d.type) →
      (s.queueOf b).filter (fun e => e.toString ≠ d.toString) = s.queueOf b := by
    intro b hb
    refine filter_of_absent fun e he => ?_
    exact toString_ne_of_type hd (a.types b e he) (hb e (a.placed b e he))
  unfold eventActionDescheduled at h
  split at h
  · -- a parsing event: only its own queue can hold it
    rename_i htype
    obtain rfl := Option.some.inj h
    intro b
    cases b with
    | parsing => exact dequeueSpecificElement_eq hd (a.types .parsing)
    | active => exact (hskip .active fun e he => by rw [htype, he]; decide).symm
    | network => exact (hskip .network fun e he => by rw [htype, he]; decide).symm
    | other => exact (hskip .other fun e he => by rw [htype]; exact he.1).symm
  · rename_i hparser
    by_cases hnet : d.type = "Network".toList ∨ d.type = "NETWORK".toList
    · -- a network event: nothing of it is pending, so nothing has to go
      have habsent : ∀ b, ∀ e ∈ s.queueOf b, e.toString ≠ d.toString := by
        intro b e he heq
        exact hc hnet (heq ▸ a.mem_pending he)
      have hnone : ∀ b, (s.queueOf b).filter (fun e => e.toString ≠ d.toString) = s.queueOf b :=
        fun b => filter_of_absent (habsent b)
      have hdequeue : ∀ b, dequeueSpecificElement d (s.queueOf b) = s.queueOf b := by
        intro b
        rw [dequeueSpecificElement_eq hd (a.types b), hnone b]
      have hsame : ∀ b, s'.queueOf b = s.queueOf b := by
        split at h
        · obtain ⟨id, -, h⟩ := Option.map_eq_some_iff.mp h
          split at h <;> subst h <;> intro b <;> cases b <;>
            first | rfl | exact hdequeue .active | exact hdequeue .network
        · obtain rfl := Option.some.inj h
          intro b
          cases b <;> first | rfl | exact hdequeue .other
      intro b
      rw [hsame b, hnone b]
    · -- any other event
      rw [not_or] at hnet
      rw [if_neg hnet.2] at h
      obtain rfl := Option.some.inj h
      intro b
      cases b with
      | other => exact dequeueSpecificElement_eq hd (a.types .other)
      | parsing => exact (hskip .parsing fun e he => by rw [he]; exact Ne.symm hparser).symm
      | active => exact (hskip .active fun e he => by rw [he]; exact Ne.symm hnet.1).symm
      | network => exact (hskip .network fun e he => by rw [he]; exact Ne.symm hnet.1).symm

/-- Deregistering keeps the agreement if the descriptor is the only one of its name. -/
theorem agree_deregister {s s' : SpecificationScheduler} {reg reg' : EventActionRegister O}
    {d : EventActionDescriptor} (a : Agree s reg) (hd : '(' ∉ d.type) (hc : Deregisters reg d)
    (h : deregisterEventActionHandler d (reg, s) = some (reg', s')) : Agree s' reg' := by
  obtain ⟨sched, hs, h⟩ := Option.map_eq_some_iff.mp h
  obtain ⟨rfl, rfl⟩ := Prod.mk.inj h
  have hq := eventActionDescheduled_queueOf a hd hc hs
  have hsub : ∀ b, ∀ e ∈ sched.queueOf b, e ∈ s.queueOf b := by
    intro b e he
    rw [hq b] at he
    exact (List.mem_filter.mp he).1
  -- both tables drop everything under the string
  have hqueued : queued sched = (queued s).filter fun e => e.toString ≠ d.toString := by
    have ha := hq .active
    have hp := hq .parsing
    have hn := hq .network
    have ho := hq .other
    simp only [queueOf] at ha hp hn ho
    simp only [queued, ha, hp, hn, ho, List.filter_append]
  refine
    { perm := ?_
      nonEmpty := a.nonEmpty.erase _
      noProviders := a.noProviders
      placed := fun b e he => a.placed b e (hsub b e he)
      types := fun b e he => a.types b e (hsub b e he) }
  rw [pendingStrings_deregister, hqueued]
  refine List.Perm.trans ?_ (a.perm.filter _)
  rw [List.filter_map]
  rfl

/-- Deregistering makes no name pending. -/
theorem pendingStrings_deregisterAll {nested : List EventActionDescriptor}
    {s s' : SpecificationScheduler} {reg reg' : EventActionRegister O}
    (h : deregisterAll nested (reg, s) = some (reg', s')) :
    pendingStrings reg' ⊆ pendingStrings reg := by
  induction nested generalizing s reg with
  | nil =>
    obtain ⟨rfl, rfl⟩ := Prod.mk.inj (Option.some.inj h)
    exact List.Subset.refl _
  | cons x xs ih =>
    obtain ⟨⟨reg₁, s₁⟩, hx, h⟩ := Option.bind_eq_some_iff.mp h
    obtain ⟨sched, -, heq⟩ := Option.map_eq_some_iff.mp hx
    obtain ⟨rfl, rfl⟩ := Prod.mk.inj heq
    intro k hk
    have := ih h hk
    rw [pendingStrings_deregister] at this
    exact (List.mem_filter.mp this).1

/-- The deregistrations of a handler keep the agreement. A string that is still pending
    after them was pending before, and stays at the front of a queue if it was there. -/
theorem agree_deregisterAll {nested : List EventActionDescriptor}
    {s s' : SpecificationScheduler} {reg reg' : EventActionRegister O} (a : Agree s reg)
    (htypes : ∀ d ∈ nested, '(' ∉ d.type) (hc : DeregistersAll reg nested)
    (h : deregisterAll nested (reg, s) = some (reg', s')) :
    Agree s' reg' ∧ ∀ d b, d.toString ∈ pendingStrings reg' → (s.queueOf b).head? = some d →
      (s'.queueOf b).head? = some d := by
  induction nested generalizing s reg with
  | nil =>
    obtain ⟨rfl, rfl⟩ := Prod.mk.inj (Option.some.inj h)
    exact ⟨a, fun _ _ _ hd => hd⟩
  | cons x xs ih =>
    obtain ⟨⟨reg₁, s₁⟩, hx, h⟩ := Option.bind_eq_some_iff.mp h
    have hxtype := htypes x List.mem_cons_self
    have a₁ := agree_deregister a hxtype hc.1 hx
    obtain ⟨sched, hs, heq⟩ := Option.map_eq_some_iff.mp hx
    obtain ⟨rfl, rfl⟩ := Prod.mk.inj heq
    obtain ⟨a', hhead⟩ := ih a₁ (fun d hd => htypes d (List.mem_cons_of_mem _ hd)) hc.2 h
    refine ⟨a', fun d b hpend hd => hhead d b hpend ?_⟩
    rw [eventActionDescheduled_queueOf a hxtype hc.1 hs b]
    -- a string that is still pending in the end is none of those that were dropped
    have hne : d.toString ≠ x.toString := by
      have hmem := pendingStrings_deregisterAll h hpend
      rw [pendingStrings_deregister] at hmem
      simpa using (List.mem_filter.mp hmem).2
    obtain ⟨rest, hrest⟩ := List.head?_eq_some_iff.mp hd
    rw [hrest, List.filter_cons_of_pos (by simpa using hne), List.head?_cons]

/-! ## Execution -/

/-- The agreement is about the handlers and the providers. -/
theorem Agree.congr {s : SpecificationScheduler} {reg reg' : EventActionRegister O}
    (a : Agree s reg) (hmap : reg'.descriptorToHandler = reg.descriptorToHandler)
    (hproviders : reg'.typeToProvider = reg.typeToProvider) : Agree s reg' where
  perm := by rw [pendingStrings, hmap]; exact a.perm
  nonEmpty := hmap ▸ a.nonEmpty
  noProviders := hproviders ▸ a.noProviders
  placed := a.placed
  types := a.types

/-- Nothing but the handlers matters for a deregistration. -/
theorem DeregistersAll.congr {nested : List EventActionDescriptor}
    {reg reg' : EventActionRegister O} (h : DeregistersAll reg nested)
    (hmap : reg'.descriptorToHandler = reg.descriptorToHandler) : DeregistersAll reg' nested := by
  induction nested generalizing reg reg' with
  | nil => trivial
  | cons d ds ih =>
    refine ⟨?_, ih h.2 ?_⟩
    · intro hnet
      rw [pendingStrings, hmap]
      exact h.1 hnet
    · simp only [EventActionRegister.deregisterEventActionHandler, hmap]

/-- One queue loses its front. -/
theorem queued_of_pop {s s' : SpecificationScheduler} {d : EventActionDescriptor}
    {branch : Branch} (hhead : (s.queueOf branch).head? = some d)
    (h : ∀ b, s'.queueOf b = if b = branch then (s.queueOf b).tail else s.queueOf b) :
    (queued s).Perm (d :: queued s') ∧
      ∀ b, ∀ e ∈ s'.queueOf b, ∃ b', e ∈ s.queueOf b' ∧ (Placed b' e → Placed b e) := by
  obtain ⟨rest, hrest⟩ := List.head?_eq_some_iff.mp hhead
  refine ⟨?_, ?_⟩
  · rw [List.perm_iff_count]
    -- the descriptor is counted in its own queue only
    intro e
    have hcount : ∀ b, (s.queueOf b).count e =
        (s'.queueOf b).count e + if b = branch then [d].count e else 0 := by
      intro b
      rw [h b]
      split
      · rename_i hb
        rw [hb, hrest, List.tail_cons, List.count_cons, List.count_singleton]
      · rw [Nat.add_zero]
    rw [count_queued, List.count_cons, count_queued, hcount, hcount, hcount, hcount]
    -- whichever queue it is, the sum is one more
    cases branch <;> simp [List.count_cons] <;> omega
  · -- what is left was in the same queue
    intro b e he
    refine ⟨b, ?_, id⟩
    rw [h b] at he
    split at he
    · exact List.mem_of_mem_tail he
    · exact he

/-- The split moves events between the two network queues. -/
theorem queued_of_split {s s' : SpecificationScheduler} {p : EventActionDescriptor → Bool}
    (hactive : s'.activeNetworkQueue = s.activeNetworkQueue ++ s.networkQueue.filter p)
    (hnetwork : s'.networkQueue = s.networkQueue.filter fun e => !p e)
    (hparsing : s'.parsingQueue = s.parsingQueue) (hother : s'.otherQueue = s.otherQueue) :
    (queued s).Perm (queued s') ∧
      ∀ b, ∀ e ∈ s'.queueOf b, ∃ b', e ∈ s.queueOf b' ∧ (Placed b' e → Placed b e) := by
  refine ⟨?_, ?_⟩
  · -- the events that are put in front were in the network queue
    rw [List.perm_iff_count]
    intro e
    have hsplit := (List.filter_append_perm p s.networkQueue).count_eq e
    rw [List.count_append] at hsplit
    simp only [count_queued, queueOf, hactive, hnetwork, hparsing, hother, List.count_append]
    omega
  · intro b e he
    -- events of the active queue come from there or from the network queue
    cases b with
    | active =>
      simp only [queueOf, hactive, List.mem_append, List.mem_filter] at he
      rcases he with he | he
      · exact ⟨.active, he, id⟩
      · exact ⟨.network, he.1, id⟩
    | network =>
      -- the other queues keep what they have
      simp only [queueOf, hnetwork, List.mem_filter] at he
      exact ⟨.network, he.1, id⟩
    | parsing =>
      simp only [queueOf, hparsing] at he
      exact ⟨.parsing, he, id⟩
    | other =>
      simp only [queueOf, hother] at he
      exact ⟨.other, he, id⟩

/-- Finishing takes the descriptor out of its queue; what else is queued stays, in a queue
    where it belongs. -/
theorem finish_queued {s s' : SpecificationScheduler} {d : EventActionDescriptor}
    {branch : Branch} {before after : UInt32} (hhead : (s.queueOf branch).head? = some d)
    (h : finish branch d before after s = some s') :
    (queued s).Perm (d :: queued s') ∧
      ∀ b, ∀ e ∈ s'.queueOf b, ∃ b', e ∈ s.queueOf b' ∧ (Placed b' e → Placed b e) := by
  cases branch with
  | parsing =>
    obtain ⟨x, queue, hq, rfl⟩ := finish_parsing h
    refine queued_of_pop hhead fun b => ?_
    cases b <;> first | rfl | simp [queueOf, hq]
  | other =>
    obtain ⟨x, queue, hq, rfl⟩ := finish_other h
    refine queued_of_pop hhead fun b => ?_
    cases b <;> first | rfl | simp [queueOf, hq]
  | active =>
    obtain ⟨x, queue, hq, ⟨id, -, -, rfl⟩ | ⟨-, rfl⟩⟩ := finish_active h
    all_goals
      refine queued_of_pop hhead fun b => ?_
      cases b <;> first | rfl | simp [queueOf, hq]
  | network =>
    obtain ⟨x, queue, hq, h⟩ := finish_network h
    have hrest : ∀ b, ({ s with networkQueue := queue } : SpecificationScheduler).queueOf b =
        if b = .network then (s.queueOf b).tail else s.queueOf b := by
      intro b
      cases b <;> first | rfl | simp [queueOf, hq]
    have hpop := queued_of_pop hhead hrest
    obtain ⟨id, own, others, -, -, -, hsplit, hs'⟩ | ⟨-, rfl⟩ := h
    · -- the events of the sequence move to the active queue
      obtain ⟨rfl, rfl⟩ := splitQueue_eq hsplit
      have hothers : s'.networkQueue =
          queue.filter fun e => !decide (getNetworkSequenceId e = some id) := by
        rw [hs']
        exact List.filter_congr fun e _ => decide_not
      have hmove := queued_of_split (s := { s with networkQueue := queue })
        (show s'.activeNetworkQueue = _ by rw [hs']) hothers (by rw [hs']) (by rw [hs'])
      refine ⟨hpop.1.trans (hmove.1.cons d), fun b e he => ?_⟩
      obtain ⟨b₁, he₁, hb₁⟩ := hmove.2 b e he
      obtain ⟨b₂, he₂, hb₂⟩ := hpop.2 b₁ e he₁
      exact ⟨b₂, he₂, fun hp => hb₁ (hb₂ hp)⟩
    · exact hpop

/-- Taking the front of a queue and one handler of its string keeps the agreement. -/
theorem agree_finish {s s' : SpecificationScheduler} {reg reg' : EventActionRegister O}
    {d : EventActionDescriptor} {branch : Branch} {before after : UInt32} (a : Agree s reg)
    (hhead : (s.queueOf branch).head? = some d) (h : finish branch d before after s = some s')
    (hmap : reg'.descriptorToHandler = reg.descriptorToHandler.pop d.toString)
    (hproviders : reg'.typeToProvider = reg.typeToProvider) : Agree s' reg' := by
  have hpend : reg.descriptorToHandler.queue d.toString ≠ [] :=
    mem_pendingStrings.mp (a.mem_pending (List.mem_of_head? hhead))
  obtain ⟨o, os, hq⟩ := List.exists_cons_of_ne_nil hpend
  -- the handler that has run was the first one under that name
  have hpop : (pendingStrings reg).Perm (d.toString :: pendingStrings reg') := by
    rw [pendingStrings, pendingStrings, hmap]
    exact (QueueMap.elems_pop reg.descriptorToHandler hq).map Prod.fst
  obtain ⟨hperm, hsub⟩ := finish_queued hhead h
  refine
    { perm := ?_
      nonEmpty := hmap ▸ a.nonEmpty.pop _
      noProviders := hproviders ▸ a.noProviders
      placed := ?_
      types := ?_ }
  · -- both have lost the same name
    refine (List.perm_cons d.toString).mp ?_
    exact ((hperm.map EventActionDescriptor.toString).symm.trans a.perm).trans hpop
  · -- what is left stays in its queue, or goes to the active one
    intro b e he
    obtain ⟨b', he', hb⟩ := hsub b e he
    exact hb (a.placed b' e he')
  · intro b e he
    obtain ⟨b', he', -⟩ := hsub b e he
    exact a.types b' e he'

/-- What running a pending event action does: its handler makes the deregistrations, and
    one handler of the string goes. -/
theorem runEventAction_recordEnv {hb : HappensBefore O H} {nested : List EventActionDescriptor}
    {after counter counter' : UInt32} {d : EventActionDescriptor}
    {s s' : SpecificationScheduler} {reg reg' : EventActionRegister O} {x x' : H} {found : Bool}
    (hnone : reg.typeToProvider = []) (hpend : d.toString ∈ pendingStrings reg)
    (h : (recordEnv hb nested after).runEventAction d (s, reg, counter, x) =
      some (found, s', reg', counter', x')) :
    found = true ∧ ∃ reg₀ reg₁, reg₀.descriptorToHandler = reg.descriptorToHandler ∧
      reg₀.typeToProvider = reg.typeToProvider ∧
      deregisterAll nested (reg₀, s) = some (reg₁, s') ∧
      d.toString ∈ pendingStrings reg₁ ∧
      reg'.descriptorToHandler = reg₁.descriptorToHandler.pop d.toString ∧
      reg'.typeToProvider = reg₁.typeToProvider := by
  obtain ⟨front, rest, hq⟩ := List.exists_cons_of_ne_nil (mem_pendingStrings.mp hpend)
  obtain ⟨⟨found', r', e'⟩, hrun, heq⟩ := Option.map_eq_some_iff.mp h
  simp only [Prod.mk.injEq] at heq
  obtain ⟨rfl, rfl, rfl, rfl, rfl⟩ := heq
  rw [EventActionRegister.runEventAction_of_noProviders hnone] at hrun
  obtain ⟨rfl, id, env₀, env₁, done, reg₁, env₂, reg₂, hid, henter, hcall, hpop, hexit, rfl⟩ :=
    EventActionRegister.runHandler_eq_some hq hrun
  obtain ⟨⟨reg₃, s₃⟩, hnested, hcall⟩ := Option.map_eq_some_iff.mp hcall
  simp only [Prod.mk.injEq] at hcall
  obtain ⟨-, rfl, rfl⟩ := hcall
  obtain ⟨hne, hmap, hproviders⟩ := EventActionRegister.popHandler_eq_some hpop
  -- entering and leaving an event action do not touch the scheduler
  obtain ⟨h₁, -, rfl⟩ := Option.map_eq_some_iff.mp henter
  obtain ⟨h₂, -, rfl⟩ := Option.map_eq_some_iff.mp hexit
  have hsched : env₀.scheduler = s := by
    rw [← (Prod.mk.inj hid).2]
  refine ⟨rfl, reg.eventActionDispatchStart id (-1) d, reg₃, rfl, rfl, ?_,
    mem_pendingStrings.mpr hne, hmap, hproviders⟩
  rw [← hsched]
  exact hnested

/-- One round of the scheduler, with a handler that deregisters others. -/
theorem agree_execute {hb : HappensBefore O H} {r : Recording O H}
    {nested : List EventActionDescriptor} {after counter : UInt32} {more : Bool}
    {s : SpecificationScheduler} {reg : EventActionRegister O} {x : H}
    (a : Agree r.scheduler r.register) (htypes : ∀ d ∈ nested, '(' ∉ d.type)
    (hc : DeregistersAll r.register nested)
    (h : executeDelayedEventAction (recordEnv hb nested after)
      (r.scheduler, r.register, r.doneCounter, r.hb) = some (more, s, reg, counter, x)) :
    Agree s reg := by
  rw [executeDelayedEventAction_eq] at h
  split at h
  · -- nothing to run
    simp only [Option.some.injEq, Prod.mk.injEq] at h
    obtain ⟨-, rfl, rfl, -, -⟩ := h
    exact a
  · rename_i d hsel
    dsimp only at hsel h
    have hhead : (r.scheduler.queueOf r.scheduler.selectedBranch).head? = some d := by
      unfold selected at hsel
      split at hsel
      · exact nomatch hsel
      · exact hsel
    have hpend := a.mem_pending (List.mem_of_head? hhead)
    unfold runSelected at h
    obtain ⟨⟨found, s₂, reg₂, counter₂, x₂⟩, hrun, h⟩ := Option.bind_eq_some_iff.mp h
    obtain ⟨rfl, reg₀, reg₁, hmap₀, hproviders₀, hnested, hne, hmap, hproviders⟩ :=
      runEventAction_recordEnv a.noProviders hpend hrun
    simp only [if_true, Option.map_eq_some_iff, Prod.mk.injEq] at h
    obtain ⟨s₃, hfin, -, rfl, rfl, -, -⟩ := h
    obtain ⟨a₁, hfront⟩ := agree_deregisterAll (a.congr hmap₀ hproviders₀) htypes
      (hc.congr hmap₀) hnested
    exact agree_finish a₁ (hfront d _ hne hhead) hfin hmap hproviders

/-! ## Runs -/

/-- At the start nothing is queued and nothing is registered. -/
theorem agree_init (hb : HappensBefore O H) {r : Recording O H} (h : (recordings hb).init r) :
    Agree r.scheduler r.register := by
  obtain ⟨s, reg, counter, x⟩ := r
  obtain ⟨rfl, rfl⟩ := h
  refine
    { perm := List.Perm.nil
      nonEmpty := fun k => by simp [EventActionRegister.empty]
      noProviders := rfl
      placed := ?_
      types := ?_ }
  all_goals intro b d hd; cases b <;> exact nomatch hd

/-- A step that meets the condition keeps the two tables in agreement. -/
theorem agree_step {hb : HappensBefore O H} {r r' : Recording O H} {l : RecordingLabel O}
    (a : Agree r.scheduler r.register) (hc : DeregistersIn r l) (h : RecordingStep hb r l r') :
    Agree r'.scheduler r'.register := by
  cases h with
  | expire hnull htype h => exact agree_expire _ a htype h
  | deregister hnull htype h => exact agree_deregister a htype hc h
  | execute htypes hrun => exact agree_execute a htypes hc hrun
  | done counter => exact a

/-- In every run whose handlers deregister what is queued once. -/
theorem agree_of_reachable {hb : HappensBefore O H} {r : Recording O H}
    (h : ((recordings hb).restrict DeregistersIn).Reachable r) :
    Agree r.scheduler r.register := by
  refine Lts.Reachable.invariant (P := fun r => Agree r.scheduler r.register) ?_ ?_ h
  · intro _ h
    exact agree_init hb h
  · intro _ _ _ _ a h
    exact agree_step a h.1 h.2

/-- In a run that never deregisters a pending network event, the queues and the register
    hold the same event actions; so the descriptor that is chosen has a handler, and an
    event action that is cancelled is in no queue. -/
theorem scheduler_agrees_with_register (hb : HappensBefore O H) (r : Recording O H)
    (h : ((recordings hb).restrict DeregistersIn).Reachable r) :
    ((queued r.scheduler).map EventActionDescriptor.toString : Multiset StdString) =
        pendingStrings r.register ∧
      (∀ d, r.scheduler.selected = some d →
        r.register.descriptorToHandler.queue d.toString ≠ []) ∧
      ∀ d r', DeregistersIn r (.deregister d) → (recordings hb).step r (.deregister d) r' →
        ∀ e ∈ queued r'.scheduler, e.toString ≠ d.toString := by
  have a := agree_of_reachable h
  refine ⟨Multiset.coe_eq_coe.mpr a.perm, ?_, ?_⟩
  · -- what is selected is the first of a queue, and so pending
    intro d hsel
    unfold selected at hsel
    split at hsel
    · exact nomatch hsel
    · exact mem_pendingStrings.mp (a.mem_pending (List.mem_of_head? hsel))
  · -- a timer that is cancelled
    intro d r' hc hstep e he
    -- the agreement holds after the step as well
    have a' := agree_step a hc hstep
    cases hstep with
    | deregister hnull htype hd =>
      obtain ⟨sched, -, heq⟩ := Option.map_eq_some_iff.mp hd
      obtain ⟨rfl, rfl⟩ := Prod.mk.inj heq
      -- its name is pending no more, and so is none that is queued
      have hmem := a'.perm.subset (List.mem_map_of_mem he)
      rw [pendingStrings_deregister] at hmem
      simpa using (List.mem_filter.mp hmem).2

/-- A happens-before component that only counts. -/
def counting : HappensBefore Unit EventActionId where
  allocateEventActionId n := (n, n + 1)
  enterEventAction _ _ n := some n
  exitEventAction _ n := some n
  eventTriggered _ n := n

/-- The first event of a request for `u`, and a timer. -/
def requestEvent : EventActionDescriptor := .make .network "Network".toList "u,0,0".toList

def timerEvent : EventActionDescriptor := .make .timer "DOMTimer".toList "t".toList

/-- A timer is cancelled before a network event runs. -/
theorem scheduler_agrees_with_register_of_cancelled_timer :
    ∃ r, ((recordings counting).restrict DeregistersIn).Reachable r ∧
      queued r.scheduler = [requestEvent] ∧
      r.register.descriptorToHandler.queue requestEvent.toString ≠ [] := by
  -- a timer and a request are scheduled, and the timer is cancelled
  let reg : EventActionRegister Unit := .empty
  let reg₁ := reg.registerEventActionHandler timerEvent ()
  let reg₂ := reg₁.registerEventActionHandler requestEvent ()
  have h₀ : ((recordings counting).restrict DeregistersIn).Reachable ⟨init, reg, 0, 0⟩ :=
    .init ⟨rfl, rfl⟩
  have h₁ : ((recordings counting).restrict DeregistersIn).Reachable
      ⟨⟨[], [], [], [], [timerEvent], false⟩, reg₁, 0, 0⟩ :=
    h₀.step (l := RecordingLabel.expire timerEvent ()) ⟨trivial, .expire rfl (by decide) rfl⟩
  have h₂ : ((recordings counting).restrict DeregistersIn).Reachable
      ⟨⟨[], [], [], [requestEvent], [timerEvent], false⟩, reg₂, 0, 0⟩ :=
    h₁.step (l := RecordingLabel.expire requestEvent ()) ⟨trivial, .expire rfl (by decide) rfl⟩
  have h₃ : ((recordings counting).restrict DeregistersIn).Reachable
      ⟨⟨[], [], [], [requestEvent], [], false⟩,
        reg₂.deregisterEventActionHandler timerEvent, 0, 0⟩ :=
    h₂.step (l := RecordingLabel.deregister timerEvent)
      ⟨fun h => absurd h (by decide), .deregister rfl (by decide) rfl⟩
  -- the request that is selected has its handler
  exact ⟨_, h₃, rfl, (scheduler_agrees_with_register counting _ h₃).2.1 requestEvent rfl⟩

/-- A network event is cancelled, a timer is pending behind it: the queues still hold the
    network event, no handler is left for it, and executing changes nothing any more. -/
theorem cancelled_network_event_blocks :
    ∃ r, (recordings counting).Reachable r ∧
      ((queued r.scheduler).map EventActionDescriptor.toString : Multiset StdString) ≠
        pendingStrings r.register ∧
      r.scheduler.selected = some requestEvent ∧
      r.register.descriptorToHandler.queue requestEvent.toString = [] ∧
      timerEvent ∈ queued r.scheduler ∧
      ∀ nested after, executeDelayedEventAction (recordEnv counting nested after)
        (r.scheduler, r.register, r.doneCounter, r.hb) =
          some (false, r.scheduler, r.register, r.doneCounter, r.hb) := by
  -- a request is scheduled, then a timer, and the request is cancelled by itself
  let reg : EventActionRegister Unit := .empty
  let reg₁ := reg.registerEventActionHandler requestEvent ()
  let reg₂ := reg₁.registerEventActionHandler timerEvent ()
  have h₀ : (recordings counting).Reachable ⟨init, reg, 0, 0⟩ := .init ⟨rfl, rfl⟩
  have h₁ : (recordings counting).Reachable
      ⟨⟨[], [], [], [requestEvent], [], false⟩, reg₁, 0, 0⟩ :=
    h₀.step (.expire rfl (by decide) rfl)
  have h₂ : (recordings counting).Reachable
      ⟨⟨[], [], [], [requestEvent], [timerEvent], false⟩, reg₂, 0, 0⟩ :=
    h₁.step (.expire rfl (by decide) rfl)
  have h₃ : (recordings counting).Reachable
      ⟨⟨[], [], [], [requestEvent], [timerEvent], false⟩,
        reg₂.deregisterEventActionHandler requestEvent, 0, 0⟩ :=
    h₂.step (l := RecordingLabel.deregister requestEvent) (.deregister rfl (by decide) rfl)
  -- the request stays queued, and its handler is gone
  refine ⟨_, h₃, ?_, rfl, rfl, by decide, fun _ _ => rfl⟩
  intro h
  have := congrArg Multiset.card h
  exact absurd this (by decide)

end R4.SpecificationScheduler
