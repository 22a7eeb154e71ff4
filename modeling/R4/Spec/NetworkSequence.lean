import R4.ForStd.Lts
import R4.Spec.SpecificationSchedulerStep
import Mathlib.Data.List.Nodup

/-!
# Network sequences are recorded without interruption

The runs of the record scheduler in which event actions are scheduled and executed, with
handlers that succeed or fail and a done counter that moves in any way. At most one event
of each network sequence is pending at a time, which is what the flag
`m_nextSnapshotUpdateTimerRunning` of a network reply ensures.

The history of a run records, with each event action, the done counter before and after
it. `openAfter` reads the active sequence off that history, and the invariant says that
it is the scheduler's.

## Key results

- `sequenceInv_step`: the invariant is kept by every step
- `network_sequences_uninterrupted`: what holds of every run
-/

namespace R4.SpecificationScheduler

open StdString

/-! ## Runs -/

/-- An event action that ran, with the done counter around it. -/
structure RanEvent where
  descriptor : EventActionDescriptor
  before : UInt32
  after : UInt32

/-- What the scheduler sees of the rest of the program, and the event actions that ran. -/
structure RecordWorld where
  doneCounter : UInt32
  ran : List RanEvent

/-- A register whose next answer is `outcome`; running an event action moves the done
    counter to `after`. -/
def answering (outcome : Bool) (after : UInt32) : RecordEnv RecordWorld where
  runEventAction descriptor s := some (outcome, s.1,
    { doneCounter := after
      ran := if outcome then s.2.ran ++ [⟨descriptor, s.2.doneCounter, after⟩] else s.2.ran })
  doneCounter w := w.doneCounter

/-- The sequence of an event action, if it is a network event. -/
def networkSequence (d : EventActionDescriptor) : Option StdString :=
  if d.type = "Network".toList then getNetworkSequenceId d else none

/-- The pending network events. -/
def pendingNetwork (s : SpecificationScheduler) : List EventActionDescriptor :=
  s.activeNetworkQueue ++ s.networkQueue

/-- A state of a run: `arrived` are the event actions in the order they were scheduled. -/
structure RecordRun where
  scheduler : SpecificationScheduler
  world : RecordWorld
  arrived : List EventActionDescriptor

/-- The labels of a run. -/
inductive RecordLabel where
  | schedule (d : EventActionDescriptor)
  | execute (outcome : Bool) (after : UInt32)
  | done (counter : UInt32)

/-- One step of a run. A network event is scheduled only while no other event of its
    sequence is pending. -/
inductive RecordStep : RecordRun → RecordLabel → RecordRun → Prop where
  | schedule {r : RecordRun} {d : EventActionDescriptor} {s : SpecificationScheduler}
      (h : r.scheduler.eventActionScheduled d = some s)
      (hone : ∀ sid, networkSequence d = some sid →
        ∀ e ∈ r.scheduler.pendingNetwork, networkSequence e ≠ some sid) :
      RecordStep r (.schedule d) { r with scheduler := s, arrived := r.arrived ++ [d] }
  | execute {r : RecordRun} {outcome more : Bool} {after : UInt32} {s : SpecificationScheduler}
      {w : RecordWorld}
      (h : executeDelayedEventAction (answering outcome after) (r.scheduler, r.world) =
        some (more, s, w)) :
      RecordStep r (.execute outcome after) { r with scheduler := s, world := w }
  | done {r : RecordRun} (counter : UInt32) :
      RecordStep r (.done counter) { r with world := { r.world with doneCounter := counter } }

/-- The recordings. -/
def record : Lts RecordRun RecordLabel where
  init r := r.scheduler = init ∧ r.world.ran = [] ∧ r.arrived = []
  step := RecordStep

/-! ## The active sequence, read off the history -/

/-- The event action was the last of its sequence: the sequence is erased after it. -/
def RanEvent.Closes (e : RanEvent) : Prop :=
  isLastInSequence e.descriptor = some true ∨ e.after > e.before

/-- The event action was not the last of its sequence: the sequence is active after it. -/
def RanEvent.Opens (e : RanEvent) : Prop :=
  isLastInSequence e.descriptor = some false ∧ e.before = e.after

instance (e : RanEvent) : Decidable e.Closes := inferInstanceAs (Decidable (_ ∨ _))

instance (e : RanEvent) : Decidable e.Opens := inferInstanceAs (Decidable (_ ∧ _))

/-- An event that opens a sequence does not close it. -/
theorem RanEvent.Opens.not_closes {e : RanEvent} (h : e.Opens) : ¬ e.Closes := by
  rintro (hl | hc)
  · rw [h.1] at hl; exact nomatch hl
  · rw [h.2] at hc; exact absurd hc (UInt32.lt_irrefl _)

/-- The active sequence after one more event action. -/
def openAfter : Option StdString → RanEvent → Option StdString
  | some sid, e => if e.Closes then none else some sid
  | none, e => if e.Opens then networkSequence e.descriptor else none

/-- While a sequence is active, only its events run. -/
def Uninterrupted : Option StdString → List RanEvent → Prop
  | _, [] => True
  | active, e :: es =>
    (∀ sid, active = some sid → networkSequence e.descriptor = some sid) ∧
      Uninterrupted (openAfter active e) es

/-- One more event goes on with the sequence that is open. -/
theorem uninterrupted_append (active : Option StdString) (es : List RanEvent) (e : RanEvent) :
    Uninterrupted active (es ++ [e]) ↔ Uninterrupted active es ∧
      ∀ sid, es.foldl openAfter active = some sid → networkSequence e.descriptor = some sid := by
  induction es generalizing active with
  | nil => simp [Uninterrupted]
  | cons x xs ih => simp only [List.cons_append, Uninterrupted, ih, List.foldl_cons, and_assoc]

/-- What comes later is uninterrupted as well. -/
theorem uninterrupted_drop {active : Option StdString} {es fs : List RanEvent}
    (h : Uninterrupted active (es ++ fs)) : Uninterrupted (es.foldl openAfter active) fs := by
  induction es generalizing active with
  | nil => exact h
  | cons x xs ih => exact ih h.2

/-- Until an event closes it, the sequence that is active stays active. -/
theorem uninterrupted_until {sid : StdString} {mid post : List RanEvent} {b : RanEvent}
    (h : Uninterrupted (some sid) (mid ++ b :: post))
    (hmid : ∀ e ∈ mid, ¬ (networkSequence e.descriptor = some sid ∧ e.Closes)) :
    networkSequence b.descriptor = some sid := by
  induction mid with
  | nil => exact h.1 sid rfl
  | cons e es ih =>
    obtain ⟨hseq, hrest⟩ := h
    -- an event that runs meanwhile is one of the sequence, and does not close it
    have hopen : ¬ e.Closes := fun hc => hmid e List.mem_cons_self ⟨hseq sid rfl, hc⟩
    simp only [openAfter, hopen, if_false] at hrest
    exact ih hrest fun x hx => hmid x (List.mem_cons_of_mem _ hx)

/-! ## The invariant -/

/-- What holds in every state of a recording. -/
structure SequenceInv (r : RecordRun) : Prop where
  active_le : r.scheduler.activeNetworkEvents.length ≤ 1
  idle : r.scheduler.activeNetworkEvents = [] → r.scheduler.activeNetworkQueue = []
  own : ∀ sid ∈ r.scheduler.activeNetworkEvents,
    (∀ e ∈ r.scheduler.activeNetworkQueue, networkSequence e = some sid) ∧
      ∀ e ∈ r.scheduler.networkQueue, networkSequence e ≠ some sid
  network : ∀ e ∈ r.scheduler.networkQueue, e.type = "Network".toList
  rest : ∀ e, e ∈ r.scheduler.parsingQueue ∨ e ∈ r.scheduler.otherQueue →
    networkSequence e = none
  pending : (r.scheduler.pendingNetwork.map networkSequence).Nodup
  history : r.world.ran.foldl openAfter none = r.scheduler.activeNetworkEvents.head?
  uninterrupted : Uninterrupted none r.world.ran
  order : ∀ sid, r.arrived.filter (fun e => networkSequence e = some sid) =
    (r.world.ran.map (·.descriptor)).filter (fun e => networkSequence e = some sid) ++
      r.scheduler.pendingNetwork.filter (fun e => networkSequence e = some sid)

/-- The sequence of a network event is that of its parameters. -/
theorem networkSequence_of_type {d : EventActionDescriptor} (h : d.type = "Network".toList) :
    networkSequence d = getNetworkSequenceId d := by
  simp only [networkSequence, h, if_true]

/-- A list whose keys are distinct and that holds at most the key `sid`. -/
theorem pending_unique {d : EventActionDescriptor} {sid : StdString}
    {l : List EventActionDescriptor} (h : ((d :: l).map networkSequence).Nodup)
    (hd : networkSequence d = some sid) : ∀ e ∈ l, networkSequence e ≠ some sid := by
  intro e he heq
  rw [List.map_cons, List.nodup_cons] at h
  exact h.1 (List.mem_map.mpr ⟨e, he, heq.trans hd.symm⟩)

/-- At the start no sequence is open. -/
theorem sequenceInv_init {r : RecordRun} (h : record.init r) : SequenceInv r := by
  obtain ⟨⟨active, activeQueue, parsing, network, other, stopped⟩, w, arrived⟩ := r
  obtain ⟨hs, hw, ha⟩ := h
  simp only [init, SpecificationScheduler.mk.injEq] at hs
  dsimp only at hw ha
  obtain ⟨rfl, rfl, rfl, rfl, rfl, rfl⟩ := hs
  subst ha
  constructor <;> simp [pendingNetwork, hw, Uninterrupted]

section Scheduling

variable {r : RecordRun} {d : EventActionDescriptor} (inv : SequenceInv r)
include inv

/-- The new event stands behind the pending ones of its sequence. -/
theorem order_schedule {sid : StdString} {pending' : List EventActionDescriptor}
    (hpending : pending'.filter (fun e => networkSequence e = some sid) =
      r.scheduler.pendingNetwork.filter (fun e => networkSequence e = some sid) ++
        [d].filter (fun e => networkSequence e = some sid)) :
    (r.arrived ++ [d]).filter (fun e => networkSequence e = some sid) =
      (r.world.ran.map (·.descriptor)).filter (fun e => networkSequence e = some sid) ++
        pending'.filter (fun e => networkSequence e = some sid) := by
  rw [List.filter_append, inv.order sid, hpending, List.append_assoc]

/-- The pending events are still of different sequences. -/
theorem nodup_schedule {id : StdString} (hseq : networkSequence d = some id)
    (hfresh : ∀ e ∈ r.scheduler.pendingNetwork, networkSequence e ≠ some id)
    {pending' : List EventActionDescriptor}
    (hperm : pending'.Perm (d :: r.scheduler.pendingNetwork)) :
    (pending'.map networkSequence).Nodup := by
  refine (hperm.map networkSequence).nodup_iff.mpr ?_
  rw [List.map_cons, List.nodup_cons]
  refine ⟨fun hmem => ?_, inv.pending⟩
  obtain ⟨e, he, heq⟩ := List.mem_map.mp hmem
  exact hfresh e he (heq.trans hseq)

/-- An event of no sequence waits behind the other parsing events. -/
theorem sequenceInv_schedule_parsing (hnone : networkSequence d = none) :
    SequenceInv { r with
      scheduler := { r.scheduler with parsingQueue := r.scheduler.parsingQueue ++ [d] }
      arrived := r.arrived ++ [d] } := by
  refine { inv with rest := ?_, order := fun sid => order_schedule inv ?_ }
  · rintro e (he | he)
    · rcases List.mem_append.mp he with he | he
      · exact inv.rest e (Or.inl he)
      · rw [List.mem_singleton.mp he]
        exact hnone
    · exact inv.rest e (Or.inr he)
  · simp [pendingNetwork, hnone]

/-- An event of no sequence waits behind the events that are no parsing events either. -/
theorem sequenceInv_schedule_other (hnone : networkSequence d = none) :
    SequenceInv { r with
      scheduler := { r.scheduler with otherQueue := r.scheduler.otherQueue ++ [d] }
      arrived := r.arrived ++ [d] } := by
  refine { inv with rest := ?_, order := fun sid => order_schedule inv ?_ }
  · rintro e (he | he)
    · exact inv.rest e (Or.inl he)
    · rcases List.mem_append.mp he with he | he
      · exact inv.rest e (Or.inr he)
      · rw [List.mem_singleton.mp he]
        exact hnone
  · simp [pendingNetwork, hnone]

/-- An event of the active sequence waits in the queue of the active events. -/
theorem sequenceInv_schedule_active {id : StdString} (hseq : networkSequence d = some id)
    (hfresh : ∀ e ∈ r.scheduler.pendingNetwork, networkSequence e ≠ some id)
    (hactive : id ∈ r.scheduler.activeNetworkEvents) :
    SequenceInv { r with
      scheduler := { r.scheduler with
        activeNetworkQueue := r.scheduler.activeNetworkQueue ++ [d] }
      arrived := r.arrived ++ [d] } := by
  refine { inv with
    idle := ?_
    own := ?_
    pending := ?_
    order := fun sid => order_schedule inv ?_ }
  · intro hnil
    rw [hnil] at hactive
    exact absurd hactive List.not_mem_nil
  · intro sid hsid
    -- at most one sequence is active, so it is that of the event
    obtain rfl : id = sid := by
      match hl : r.scheduler.activeNetworkEvents, inv.active_le, hactive, hsid with
      | [x], _, hactive, hsid =>
        rw [List.mem_singleton.mp hactive, List.mem_singleton.mp hsid]
    refine ⟨fun e he => ?_, (inv.own id hsid).2⟩
    rcases List.mem_append.mp he with he | he
    · exact (inv.own id hsid).1 e he
    · rw [List.mem_singleton.mp he]
      exact hseq
  · refine nodup_schedule inv hseq hfresh ?_
    simp only [pendingNetwork, List.append_assoc, List.singleton_append]
    exact List.perm_middle
  · -- the new event stands before the waiting ones, but those are of other sequences
    simp only [pendingNetwork, List.filter_append, List.append_assoc]
    congr 1
    by_cases hs : id = sid
    · have hwaiting : r.scheduler.networkQueue.filter
          (fun e => networkSequence e = some sid) = [] := by
        refine List.filter_eq_nil_iff.mpr fun e he => ?_
        simpa [← hs] using hfresh e (List.mem_append_right _ he)
      rw [hwaiting, List.append_nil, List.nil_append]
    · have hnew : [d].filter (fun e => networkSequence e = some sid) = [] := by
        simp [hseq, hs]
      rw [hnew, List.append_nil, List.nil_append]

/-- A network event of another sequence waits behind the other network events. -/
theorem sequenceInv_schedule_network {id : StdString} (htype : d.type = "Network".toList)
    (hseq : networkSequence d = some id)
    (hfresh : ∀ e ∈ r.scheduler.pendingNetwork, networkSequence e ≠ some id)
    (hactive : id ∉ r.scheduler.activeNetworkEvents) :
    SequenceInv { r with
      scheduler := { r.scheduler with networkQueue := r.scheduler.networkQueue ++ [d] }
      arrived := r.arrived ++ [d] } := by
  refine { inv with
    own := ?_
    network := ?_
    pending := ?_
    order := fun sid => order_schedule inv ?_ }
  · -- what waits in the network queue is not of the active sequence
    intro sid hsid
    refine ⟨(inv.own sid hsid).1, fun e he => ?_⟩
    rcases List.mem_append.mp he with he | he
    · exact (inv.own sid hsid).2 e he
    · -- nor is the new event
      rw [List.mem_singleton.mp he, hseq]
      exact fun heq => hactive (Option.some.inj heq ▸ hsid)
  · intro e he
    rcases List.mem_append.mp he with he | he
    · exact inv.network e he
    · rw [List.mem_singleton.mp he]
      exact htype
  · -- the new event is pending once
    refine nodup_schedule inv hseq hfresh ?_
    simp only [pendingNetwork, ← List.append_assoc]
    exact List.perm_append_singleton _ _
  · -- in the order it comes last
    simp only [pendingNetwork, List.filter_append, List.append_assoc]

end Scheduling

/-- Scheduling keeps the invariant, whichever queue the event waits in. -/
theorem sequenceInv_schedule {r : RecordRun} {d : EventActionDescriptor}
    {s : SpecificationScheduler} (inv : SequenceInv r)
    (h : r.scheduler.eventActionScheduled d = some s)
    (hone : ∀ sid, networkSequence d = some sid →
      ∀ e ∈ r.scheduler.pendingNetwork, networkSequence e ≠ some sid) :
    SequenceInv { r with scheduler := s, arrived := r.arrived ++ [d] } := by
  unfold eventActionScheduled at h
  split at h
  · -- a parsing event action is in no sequence
    rename_i htype
    obtain rfl := Option.some.inj h
    refine sequenceInv_schedule_parsing inv ?_
    rw [networkSequence, htype, if_neg (by decide)]
  · split at h
    · -- a network event
      rename_i htype
      obtain ⟨id, hid, heq⟩ := Option.map_eq_some_iff.mp h
      have hseq : networkSequence d = some id := (networkSequence_of_type htype).trans hid
      -- it is of the active sequence, and runs next
      split at heq
      · rename_i hactive
        subst heq
        exact sequenceInv_schedule_active inv hseq (hone id hseq) hactive
      · -- it is not, and waits
        rename_i hactive
        subst heq
        exact sequenceInv_schedule_network inv htype hseq (hone id hseq) hactive
    · -- any other event action is in no sequence
      rename_i htype
      obtain rfl := Option.some.inj h
      refine sequenceInv_schedule_other inv ?_
      rw [networkSequence, if_neg htype]

/-- The history, one event longer. -/
theorem order_append {ran : List RanEvent} {arrived pending pending' : List EventActionDescriptor}
    {e : RanEvent} {sid : StdString}
    (h : arrived.filter (fun x => networkSequence x = some sid) =
      (ran.map (·.descriptor)).filter (fun x => networkSequence x = some sid) ++
        pending.filter (fun x => networkSequence x = some sid))
    (hp : pending.filter (fun x => networkSequence x = some sid) =
      [e.descriptor].filter (fun x => networkSequence x = some sid) ++
        pending'.filter (fun x => networkSequence x = some sid)) :
    arrived.filter (fun x => networkSequence x = some sid) =
      ((ran ++ [e]).map (·.descriptor)).filter (fun x => networkSequence x = some sid) ++
        pending'.filter (fun x => networkSequence x = some sid) := by
  rw [h, hp, List.map_append, List.map_singleton, List.filter_append, List.append_assoc]

/-- An event of the active sequence ran. -/
theorem sequenceInv_active {r : RecordRun} {d : EventActionDescriptor} {before after : UInt32}
    {s' : SpecificationScheduler} (inv : SequenceInv r) {sid : StdString}
    (hact : r.scheduler.activeNetworkEvents = [sid])
    (hd : r.scheduler.activeNetworkQueue.head? = some d)
    (h : finish .active d before after r.scheduler = some s') :
    SequenceInv { r with
      scheduler := s', world := ⟨after, r.world.ran ++ [⟨d, before, after⟩]⟩ } := by
  obtain ⟨x, queue, hq, h⟩ := finish_active h
  rw [hq, List.head?_cons, Option.some.injEq] at hd
  subst hd
  obtain ⟨hown, hother⟩ := inv.own sid (by rw [hact]; exact List.mem_singleton.mpr rfl)
  have hseq : networkSequence x = some sid := hown x (by rw [hq]; exact List.mem_cons_self)
  have hpend : r.scheduler.pendingNetwork = x :: (queue ++ r.scheduler.networkQueue) := by
    rw [pendingNetwork, hq, List.cons_append]
  have hfresh := pending_unique (hpend ▸ inv.pending) hseq
  -- only one event of the sequence was pending, so its queue is empty now
  have hempty : queue = [] := by
    refine List.eq_nil_iff_forall_not_mem.mpr fun e he => ?_
    exact hfresh e (List.mem_append_left _ he)
      (hown e (by rw [hq]; exact List.mem_cons_of_mem _ he))
  have hhist : r.world.ran.foldl openAfter none = some sid := by rw [inv.history, hact]; rfl
  have huninterrupted : Uninterrupted none (r.world.ran ++ [⟨x, before, after⟩]) := by
    refine (uninterrupted_append _ _ _).mpr ⟨inv.uninterrupted, ?_⟩
    intro sid' hs
    rw [hhist] at hs
    rw [← hs]; exact hseq
  have hnodup : ((queue ++ r.scheduler.networkQueue).map networkSequence).Nodup := by
    have := inv.pending
    rw [hpend, List.map_cons, List.nodup_cons] at this
    exact this.2
  have horder : ∀ sid', r.arrived.filter (fun e => networkSequence e = some sid') =
      ((r.world.ran ++ [RanEvent.mk x before after]).map RanEvent.descriptor).filter
          (fun e => networkSequence e = some sid') ++
        (queue ++ r.scheduler.networkQueue).filter (fun e => networkSequence e = some sid') := by
    intro sid'
    refine order_append (inv.order sid') ?_
    rw [hpend, ← List.filter_append, List.singleton_append]
  obtain ⟨id, hc, hid, rfl⟩ | ⟨hc, rfl⟩ := h
  · -- the event was the last of the sequence, which is not active any more
    have hids : id = sid := by
      have htype : x.type = "Network".toList := by
        by_contra hne
        rw [networkSequence, if_neg hne] at hseq
        exact nomatch hseq
      rw [networkSequence_of_type htype, hid] at hseq
      exact Option.some.inj hseq
    subst hids
    have herase : r.scheduler.activeNetworkEvents.erase id = [] := by rw [hact]; simp
    refine { inv with
      active_le := ?_, idle := fun _ => hempty, own := ?_, pending := hnodup, history := ?_
      uninterrupted := huninterrupted, order := horder }
    · dsimp only; rw [herase]; exact Nat.zero_le _
    · intro sid' hs
      dsimp only at hs
      rw [herase] at hs
      exact nomatch hs
    · dsimp only
      rw [List.foldl_append, hhist, herase]
      show openAfter (some id) ⟨x, before, after⟩ = none
      exact if_pos hc
  · refine { inv with
      idle := fun _ => hempty, own := ?_, pending := hnodup, history := ?_
      uninterrupted := huninterrupted, order := horder }
    · intro sid' hs
      refine ⟨?_, (inv.own sid' hs).2⟩
      dsimp only
      rw [hempty]
      intro e he
      exact nomatch he
    · dsimp only
      rw [List.foldl_append, hhist, hact]
      show openAfter (some sid) ⟨x, before, after⟩ = some sid
      exact if_neg hc

/-- The first event of a network sequence ran. -/
theorem sequenceInv_network {r : RecordRun} {d : EventActionDescriptor} {before after : UInt32}
    {s' : SpecificationScheduler} (inv : SequenceInv r)
    (hact : r.scheduler.activeNetworkEvents = [])
    (hd : r.scheduler.networkQueue.head? = some d)
    (h : finish .network d before after r.scheduler = some s') :
    SequenceInv { r with
      scheduler := s', world := ⟨after, r.world.ran ++ [⟨d, before, after⟩]⟩ } := by
  obtain ⟨x, queue, hq, h⟩ := finish_network h
  rw [hq, List.head?_cons, Option.some.injEq] at hd
  subst hd
  have hqueue := inv.idle hact
  have htype : x.type = "Network".toList := inv.network x (by rw [hq]; exact List.mem_cons_self)
  have hnetwork : ∀ e ∈ queue, e.type = "Network".toList := fun e he =>
    inv.network e (by rw [hq]; exact List.mem_cons_of_mem _ he)
  have hpend : r.scheduler.pendingNetwork = x :: queue := by
    rw [pendingNetwork, hqueue, hq, List.nil_append]
  have hnodup := inv.pending
  rw [hpend, List.map_cons, List.nodup_cons] at hnodup
  have hhist : r.world.ran.foldl openAfter none = none := by rw [inv.history, hact]; rfl
  have huninterrupted : Uninterrupted none (r.world.ran ++ [⟨x, before, after⟩]) := by
    refine (uninterrupted_append _ _ _).mpr ⟨inv.uninterrupted, ?_⟩
    intro sid' hs
    rw [hhist] at hs
    exact nomatch hs
  have horder : ∀ sid', r.arrived.filter (fun e => networkSequence e = some sid') =
      ((r.world.ran ++ [RanEvent.mk x before after]).map RanEvent.descriptor).filter
          (fun e => networkSequence e = some sid') ++
        queue.filter (fun e => networkSequence e = some sid') := by
    intro sid'
    refine order_append (inv.order sid') ?_
    rw [hpend, ← List.filter_append, List.singleton_append]
  obtain ⟨id, own, others, hlast, hcounter, hid, hsplit, rfl⟩ | ⟨hc, rfl⟩ := h
  · -- the sequence becomes active; no other event of it is pending, so the split is trivial
    obtain ⟨rfl, rfl⟩ := splitQueue_eq hsplit
    have hseq : networkSequence x = some id := by rw [networkSequence_of_type htype]; exact hid
    have hfresh : ∀ e ∈ queue, getNetworkSequenceId e ≠ some id := by
      intro e he
      rw [← networkSequence_of_type (hnetwork e he)]
      exact pending_unique (hpend ▸ inv.pending) hseq e he
    have hown : queue.filter (fun e => getNetworkSequenceId e = some id) = [] :=
      List.filter_eq_nil_iff.mpr fun e he => by simpa using hfresh e he
    have hothers : queue.filter (fun e => getNetworkSequenceId e ≠ some id) = queue :=
      List.filter_eq_self.mpr fun e he => by simpa using hfresh e he
    rw [hown, hothers, hqueue, hact, if_neg (by simp)]
    refine { inv with
      active_le := Nat.le_refl 1, idle := fun _ => rfl, own := ?_, network := hnetwork
      pending := hnodup.2, history := ?_, uninterrupted := huninterrupted, order := horder }
    · intro sid' hs
      rw [List.mem_singleton.mp hs]
      refine ⟨fun e he => absurd he List.not_mem_nil, fun e he => ?_⟩
      rw [networkSequence_of_type (hnetwork e he)]
      exact hfresh e he
    · dsimp only
      rw [List.foldl_append, hhist]
      show openAfter none ⟨x, before, after⟩ = some id
      exact (if_pos ⟨hlast, hcounter⟩).trans hseq
  · refine { inv with
      idle := fun _ => hqueue, own := ?_, network := hnetwork, pending := ?_, history := ?_
      uninterrupted := huninterrupted, order := ?_ }
    · intro sid' hs
      dsimp only at hs
      rw [hact] at hs
      exact nomatch hs
    · simp only [pendingNetwork, hqueue, List.nil_append]
      exact hnodup.2
    · dsimp only
      rw [List.foldl_append, hhist, hact]
      show openAfter none ⟨x, before, after⟩ = none
      exact if_neg hc
    · simp only [pendingNetwork, hqueue, List.nil_append]
      exact horder

/-- An event action ran that is of no network sequence, while no sequence was active. -/
theorem sequenceInv_unrelated {r : RecordRun} {d : EventActionDescriptor}
    {before after : UInt32} {s' : SpecificationScheduler} (inv : SequenceInv r)
    (hact : r.scheduler.activeNetworkEvents = []) (hd : networkSequence d = none)
    (hactive : s'.activeNetworkEvents = r.scheduler.activeNetworkEvents)
    (hqueue : s'.activeNetworkQueue = r.scheduler.activeNetworkQueue)
    (hnetwork : s'.networkQueue = r.scheduler.networkQueue)
    (hrest : ∀ e, e ∈ s'.parsingQueue ∨ e ∈ s'.otherQueue →
      e ∈ r.scheduler.parsingQueue ∨ e ∈ r.scheduler.otherQueue) :
    SequenceInv { r with
      scheduler := s', world := ⟨after, r.world.ran ++ [⟨d, before, after⟩]⟩ } := by
  -- no sequence was open
  have hhist : r.world.ran.foldl openAfter none = none := by rw [inv.history, hact]; rfl
  have hpend : s'.pendingNetwork = r.scheduler.pendingNetwork := by
    rw [pendingNetwork, hqueue, hnetwork]; rfl
  refine
    { active_le := hactive ▸ inv.active_le
      idle := by dsimp only; rw [hactive, hqueue]; exact inv.idle
      own := by dsimp only; rw [hactive, hqueue, hnetwork]; exact inv.own
      network := by dsimp only; rw [hnetwork]; exact inv.network
      rest := fun e he => inv.rest e (hrest e he)
      pending := by dsimp only; rw [hpend]; exact inv.pending
      history := ?_, uninterrupted := ?_, order := ?_ }
  · -- the event opens none
    dsimp only
    rw [List.foldl_append, hhist, hactive, hact]
    show (if RanEvent.Opens ⟨d, before, after⟩ then networkSequence d else none) = none
    rw [hd, ite_self]
  · -- nothing is open that it could interrupt
    refine (uninterrupted_append _ _ _).mpr ⟨inv.uninterrupted, ?_⟩
    intro sid' hs
    rw [hhist] at hs
    exact nomatch hs
  · -- it is in no sequence
    intro sid'
    refine order_append (inv.order sid') ?_
    simp [hpend, hd]

/-- One round of the scheduler keeps the sequences apart. -/
theorem sequenceInv_execute {r : RecordRun} {outcome more : Bool} {after : UInt32}
    {s : SpecificationScheduler} {w : RecordWorld} (inv : SequenceInv r)
    (h : executeDelayedEventAction (answering outcome after) (r.scheduler, r.world) =
      some (more, s, w)) : SequenceInv { r with scheduler := s, world := w } := by
  rw [executeDelayedEventAction_eq] at h
  split at h
  · -- nothing to run
    simp only [Option.some.injEq, Prod.mk.injEq] at h
    obtain ⟨-, rfl, rfl⟩ := h
    exact inv
  · rename_i d hsel
    cases outcome with
    | false =>
      simp only [runSelected, answering, Option.bind_eq_bind, Option.bind_some, Option.pure_def,
        Option.some.injEq, Prod.mk.injEq, Bool.false_eq_true, if_false] at h
      obtain ⟨-, rfl, rfl⟩ := h
      exact { inv with }
    | true =>
      simp only [runSelected, answering, Option.bind_eq_bind, Option.bind_some, if_true,
        Option.map_eq_some_iff, Prod.mk.injEq] at h
      obtain ⟨s', hfin, -, rfl, rfl⟩ := h
      unfold selected at hsel
      split at hsel
      · exact nomatch hsel
      · unfold selectedBranch at hsel hfin
        split at hsel
        · rename_i hact
          rw [if_pos hact] at hfin
          have hle := inv.active_le
          match hl : r.scheduler.activeNetworkEvents, hle, hact with
          | [sid], _, _ => exact sequenceInv_active inv hl hsel hfin
        · rename_i hact
          rw [if_neg hact] at hfin
          have hnil := not_not.mp hact
          split at hsel
          · rename_i hparsing
            rw [if_pos hparsing] at hfin
            obtain ⟨x, queue, hq, rfl⟩ := finish_parsing hfin
            have hd : d ∈ r.scheduler.parsingQueue := List.mem_of_head? hsel
            refine sequenceInv_unrelated inv hnil (inv.rest d (Or.inl hd)) rfl rfl rfl ?_
            rintro e (he | he)
            · exact Or.inl (by rw [hq]; exact List.mem_cons_of_mem _ he)
            · exact Or.inr he
          · rename_i hparsing
            rw [if_neg hparsing] at hfin
            split at hsel
            · rename_i hnet
              rw [if_pos hnet] at hfin
              exact sequenceInv_network inv hnil hsel hfin
            · rename_i hnet
              rw [if_neg hnet] at hfin
              obtain ⟨x, queue, hq, rfl⟩ := finish_other hfin
              have hd : d ∈ r.scheduler.otherQueue := List.mem_of_head? hsel
              refine sequenceInv_unrelated inv hnil (inv.rest d (Or.inr hd)) rfl rfl rfl ?_
              rintro e (he | he)
              · exact Or.inl he
              · exact Or.inr (by rw [hq]; exact List.mem_cons_of_mem _ he)

/-- The invariant is kept by every step. -/
theorem sequenceInv_step {r r' : RecordRun} {l : RecordLabel} (inv : SequenceInv r)
    (h : RecordStep r l r') : SequenceInv r' := by
  cases h with
  | schedule h hone => exact sequenceInv_schedule inv h hone
  | execute h => exact sequenceInv_execute inv h
  | done counter => exact { inv with }

/-- In every run the sequences are apart. -/
theorem sequenceInv_of_reachable {r : RecordRun} (h : record.Reachable r) : SequenceInv r :=
  h.invariant (fun _ h => sequenceInv_init h) fun _ _ _ _ inv h => sequenceInv_step inv h

/-! ## What holds of every recording -/

/-- At most one sequence is active and its queue is empty while none is; between an event
    that leaves its sequence active and the event that erases it only events of that
    sequence run; and the events of a sequence run in the order they were scheduled. -/
theorem network_sequences_uninterrupted {r : RecordRun} (h : record.Reachable r) :
    r.scheduler.activeNetworkEvents.length ≤ 1 ∧
      (r.scheduler.activeNetworkEvents = [] → r.scheduler.activeNetworkQueue = []) ∧
      (∀ pre mid post a b sid, r.world.ran = pre ++ a :: (mid ++ b :: post) → a.Opens →
        networkSequence a.descriptor = some sid →
        (∀ e ∈ mid, ¬ (networkSequence e.descriptor = some sid ∧ e.Closes)) →
        networkSequence b.descriptor = some sid) ∧
      ∀ sid, (r.world.ran.map RanEvent.descriptor).filter (fun e => networkSequence e = some sid)
        <+: r.arrived.filter (fun e => networkSequence e = some sid) := by
  have inv := sequenceInv_of_reachable h
  refine ⟨inv.active_le, inv.idle, ?_, fun sid => ?_⟩
  · intro pre mid post a b sid hran hopen hseq hmid
    -- what comes behind the opening event is uninterrupted
    have hun : Uninterrupted (pre.foldl openAfter none) (a :: (mid ++ b :: post)) :=
      uninterrupted_drop (hran ▸ inv.uninterrupted)
    obtain ⟨hown, hrest⟩ := hun
    -- whatever was open before, the event opens its own sequence
    have hafter : openAfter (pre.foldl openAfter none) a = some sid := by
      cases hp : pre.foldl openAfter none with
      | none => exact (if_pos hopen).trans hseq
      | some sid' =>
        -- if a sequence was open, the event is of that one, and does not close it
        have := hown sid' hp
        rw [hseq] at this
        rw [← this]
        exact if_neg hopen.not_closes
    rw [hafter] at hrest
    exact uninterrupted_until hrest hmid
  · -- what has run of a sequence comes before what is pending
    rw [inv.order sid]
    exact List.prefix_append _ _

/-- The event `number` of the first request for `u`. -/
def networkEvent (number : Nat) : EventActionDescriptor :=
  .make .network "Network".toList ("u,0,".toList ++ decimal number)

/-- A timer that is scheduled between the two events of a sequence runs after them. -/
theorem network_sequences_uninterrupted_of_timer :
    ∃ r, record.Reachable r ∧
      r.world.ran.map RanEvent.descriptor = [networkEvent 0, networkEvent ulongMax] ∧
      r.scheduler.otherQueue = [.make .timer "DOMTimer".toList []] ∧
      r.scheduler.activeNetworkEvents.length ≤ 1 := by
  -- a request and a timer are scheduled, and the request opens its sequence
  let timer : EventActionDescriptor := .make .timer "DOMTimer".toList []
  let r₀ : RecordRun := ⟨init, ⟨0, []⟩, []⟩
  let opened : RanEvent := ⟨networkEvent 0, 0, 0⟩
  let closed : RanEvent := ⟨networkEvent ulongMax, 0, 0⟩
  let sid : StdString := "u,0".toList
  have h₀ : record.Reachable r₀ := .init ⟨rfl, rfl, rfl⟩
  have h₁ : record.Reachable
      ⟨⟨[], [], [], [networkEvent 0], [], false⟩, ⟨0, []⟩, [networkEvent 0]⟩ :=
    h₀.step (.schedule rfl fun _ _ _ he => absurd he List.not_mem_nil)
  have h₂ : record.Reachable ⟨⟨[], [], [], [networkEvent 0], [timer], false⟩, ⟨0, []⟩,
      [networkEvent 0, timer]⟩ :=
    h₁.step (.schedule rfl fun _ h => nomatch h)
  have h₃ : record.Reachable ⟨⟨[sid], [], [], [], [timer], false⟩, ⟨0, [opened]⟩,
      [networkEvent 0, timer]⟩ :=
    h₂.step (l := .execute true 0) (.execute rfl)
  -- the end of the request is scheduled before the timer runs
  have h₄ : record.Reachable ⟨⟨[sid], [networkEvent ulongMax], [], [], [timer], false⟩,
      ⟨0, [opened]⟩, [networkEvent 0, timer, networkEvent ulongMax]⟩ :=
    h₃.step (.schedule rfl fun _ _ _ he => absurd he List.not_mem_nil)
  -- it runs first, and closes the sequence
  have h₅ : record.Reachable ⟨⟨[], [], [], [], [timer], false⟩, ⟨0, [opened, closed]⟩,
      [networkEvent 0, timer, networkEvent ulongMax]⟩ :=
    h₄.step (l := .execute true 0) (.execute rfl)
  exact ⟨_, h₅, rfl, rfl, (network_sequences_uninterrupted h₅).1⟩

end R4.SpecificationScheduler
