import R4.ForStd.List
import R4.ForStd.Lts
import R4.Native.DocumentEventQueue

/-!
# When the events of a document are delivered

`pendingEventTimerFired` takes the first event with `remove(0)`, which is the removal of a null
pointer: the event stays, while its source goes. So a firing leaves fewer sources than events,
and the next one dispatches the same event again. Without firings the queue is as it should be as
long as `cancelEvent` does not leave the timer marked with nothing waiting, and does not look for
the first event of the queue that it has just emptied.

## Key results

- `Delivers`: what the queue should do
- `length_eq_of_reachable`: the events that no source belongs to are as many as the firings
- `not_delivers_of_dispatched`: nothing puts the queue right after a firing
- `delivers_iff_ok`: in a run whose steps meet the condition, and for the step after it
- `event_dispatched_twice`: a run in which one event is dispatched twice and another is not
-/

namespace R4

variable {E : Type} [DecidableEq E]

/-- The queue, the firings that have not returned and those that have, the events that were
    queued with their sources, those that were cancelled and those that were dispatched. -/
structure EventQueueRun (E : Type) where
  queue : DocumentEventQueue E
  firing : Nat
  fired : Nat
  accepted : List (E × EventActionId)
  cancelled : List E
  dispatched : List E

namespace EventQueueRun

open DocumentEventQueue

/-- The labels of a run. -/
inductive Label (E : Type) where
  | enqueueEvent (event : E) (currentEventAction : Option EventActionId)
      (lastUIEventAction : EventActionId)
  | cancelEvent (event : E)
  | expire
  | beginFire (d : EventActionDescriptor)
  | endFire (currentEventAction : EventActionId)

/-- The events are distinct, and none is filtered out; a firing needs a timer. -/
def Enabled (type : E → StdString) (r : EventQueueRun E) : Label E → Prop
  | .enqueueEvent event _ _ =>
    event ∉ r.accepted.map Prod.fst ∧ r.queue.filtered type event = false
  | .cancelEvent _ => True
  | .expire =>
    r.queue.pendingEventTimer.inHeap = true ∧
      r.queue.pendingEventTimer.eventActionDescriptor.isNull = false
  | .beginFire d => d ∈ r.queue.pendingEventTimer.waiting
  | .endFire _ => 0 < r.firing

/-- One step. A step that is enabled is taken unless it is undefined. -/
def exec (type : E → StdString) (r : EventQueueRun E) : Label E → Option (EventQueueRun E)
  | .enqueueEvent event current lastUI =>
    (r.queue.enqueueEvent type event current lastUI).map fun queue =>
      { r with
        queue := queue
        accepted := r.accepted ++ [(event, current.getD lastUI)] }
  | .cancelEvent event =>
    (r.queue.cancelEvent type event).map fun (found, queue) =>
      { r with
        queue := queue
        cancelled := if found then r.cancelled ++ [event] else r.cancelled }
  | .expire =>
    r.queue.pendingEventTimer.expire.map fun timer =>
      { r with queue := { r.queue with pendingEventTimer := timer } }
  | .beginFire d =>
    (r.queue.pendingEventTimer.dispatch d).bind fun timer =>
      { r.queue with pendingEventTimer := timer }.takeEvent.map fun (event, queue) =>
        { r with
          queue := queue
          firing := r.firing + 1
          dispatched := r.dispatched ++ [event] }
  | .endFire current =>
    (r.queue.finishEvent current).map fun (_, queue) =>
      { r with
        queue := queue
        firing := r.firing - 1
        fired := r.fired + 1 }

/-- The runs of the queue. -/
def runs (type : E → StdString) : Lts (EventQueueRun E) (Label E) where
  init r := r = ⟨DocumentEventQueue.init, 0, 0, [], [], []⟩
  step r l r' := r.Enabled type l ∧ r.exec type l = some r'

/-- What was queued and not cancelled. -/
def kept (r : EventQueueRun E) : List (E × EventActionId) :=
  r.accepted.filter fun p => p.1 ∉ r.cancelled

/-- The queue does what it is for. While a firing has not returned, its source may still be there
    and the timer need not be active. -/
structure Delivers (r : EventQueueRun E) : Prop where
  inOrder : r.dispatched ++ r.queue.queuedEvents = r.kept.map Prod.fst
  lengths : r.firing = 0 → r.queue.queuedSources.length = r.queue.queuedEvents.length
  own : r.firing = 0 →
    ∀ p ∈ r.queue.queuedEvents.zip r.queue.queuedSources, p ∈ r.accepted
  active : r.firing = 0 → r.queue.queuedEvents ≠ [] →
    r.queue.pendingEventTimer.isActive = true ∧ r.queue.pendingEventTimer.isPending = true

/-- The condition on a step: the timer does not fire; no event is queued while the timer is
    marked with nothing waiting; and the first event is cancelled only as another one is left,
    or, while the timer waits in the register, as none is. -/
def Ok (r : EventQueueRun E) : Label E → Prop
  | .enqueueEvent _ _ _ =>
    r.queue.pendingEventTimer.isActive = true → r.queue.pendingEventTimer.isPending = true
  | .cancelEvent event =>
    r.queue.queuedEvents.head? = some event →
      (r.queue.pendingEventTimer.inEventActionRegister = true ↔ r.queue.queuedEvents = [event])
  | .expire => True
  | .beginFire _ => False
  | .endFire _ => False

/-! ## The queue and the list of sources -/

/-- Removing no event changes nothing. -/
theorem remove_none (events : List E) : remove events none = events := by
  simp [remove]

/-- The event that is dispatched is the first one, and it stays where it is. -/
theorem takeEvent_eq_some {q q' : DocumentEventQueue E} {event : E}
    (h : q.takeEvent = some (event, q')) : event ∈ q.queuedEvents ∧ q' = q := by
  unfold takeEvent at h
  split at h
  · cases h
  · rename_i first rest hcons
    obtain ⟨rfl, rfl⟩ := Prod.mk.inj (Option.some.inj h)
    exact ⟨by rw [hcons]; exact List.mem_cons_self, by rw [remove_none]⟩

/-- Removing the entry of a key from the keys. -/
theorem remove_map_fst (l : List (E × EventActionId)) (event : E) :
    remove (l.map Prod.fst) (some event) = (l.filter fun p => p.1 ≠ event).map Prod.fst := by
  rw [remove, List.filter_map]
  refine congrArg (List.map Prod.fst) (List.filter_congr fun p _ => ?_)
  simp

/-- `cancelEvent` finds the event. -/
theorem cancelEvent_of_mem (type : E → StdString) {q : DocumentEventQueue E} {event : E}
    (hmem : event ∈ q.queuedEvents)
    (hlt : q.queuedEvents.idxOf event < q.queuedSources.length) :
    q.cancelEvent type event = (tryUpdateAndStartTimer type
      ⟨if q.queuedEvents.head? = some event then q.pendingEventTimer.stop
        else q.pendingEventTimer, remove q.queuedEvents (some event),
        q.queuedSources.eraseIdx (q.queuedEvents.idxOf event), q.seqNumber,
        q.lastFireEventAction⟩).map fun q => (true, q) := by
  unfold cancelEvent
  rw [if_pos hmem]
  split
  · dsimp only
    rw [if_pos hlt]
  · dsimp only
    rw [if_pos hlt]

omit [DecidableEq E] in
/-- A timer that is active is not started again. -/
theorem tryUpdateAndStartTimer_of_active (type : E → StdString) {q : DocumentEventQueue E}
    (h : q.pendingEventTimer.isActive = true) : q.tryUpdateAndStartTimer type = some q := by
  unfold tryUpdateAndStartTimer
  exact if_pos h

omit [DecidableEq E] in
/-- The timer is started for the first event. -/
theorem tryUpdateAndStartTimer_of_stopped (type : E → StdString) {q : DocumentEventQueue E}
    {d : EventActionDescriptor} (h : q.pendingEventTimer = ⟨false, false, d, []⟩) {first : E}
    {rest : List E} (hevents : q.queuedEvents = first :: rest) :
    ∃ number seqNumber, q.tryUpdateAndStartTimer type = some { q with
      pendingEventTimer := ⟨true, false, eventDescriptor (type first) number, []⟩
      seqNumber := seqNumber } := by
  refine ⟨(q.seqNumber.next (type first)).1, (q.seqNumber.next (type first)).2, ?_⟩
  unfold tryUpdateAndStartTimer
  rw [h, hevents]
  rfl

omit [DecidableEq E] in
/-- The first element of an empty queue. -/
theorem tryUpdateAndStartTimer_of_empty (type : E → StdString) {q : DocumentEventQueue E}
    {d : EventActionDescriptor} (h : q.pendingEventTimer = ⟨false, false, d, []⟩)
    (hevents : q.queuedEvents = []) : q.tryUpdateAndStartTimer type = none := by
  unfold tryUpdateAndStartTimer
  rw [h, hevents]
  rfl

/-! ## Runs without firings -/

/-- The timer and the queue, as long as the timer has not fired. -/
inductive Waits : OneShotTimer → List E → Prop where
  | stopped (d : EventActionDescriptor) : Waits ⟨false, false, d, []⟩ []
  | inHeap {d : EventActionDescriptor} (hd : d.isNull = false) (first : E) (rest : List E) :
      Waits ⟨true, false, d, []⟩ (first :: rest)
  | inRegister (d : EventActionDescriptor) (first : E) (rest : List E) :
      Waits ⟨false, true, d, [d]⟩ (first :: rest)
  | marked (d : EventActionDescriptor) : Waits ⟨false, true, d, []⟩ []

/-- What holds in every state of a run whose steps meet the condition. -/
structure Inv (r : EventQueueRun E) : Prop where
  firing : r.firing = 0
  dispatched : r.dispatched = []
  events : r.queue.queuedEvents = r.kept.map Prod.fst
  sources : r.queue.queuedSources = r.kept.map Prod.snd
  distinct : (r.accepted.map Prod.fst).Nodup
  cancelled : ∀ event ∈ r.cancelled, event ∈ r.accepted.map Prod.fst
  waits : Waits r.queue.pendingEventTimer r.queue.queuedEvents

omit [DecidableEq E] in
/-- A queue with an event waits for its timer. -/
theorem Waits.pending {t : OneShotTimer} {events : List E} (h : Waits t events)
    (hevents : events ≠ []) : t.isActive = true ∧ t.isPending = true := by
  cases h with
  | stopped => exact absurd rfl hevents
  | inHeap => exact ⟨rfl, rfl⟩
  | inRegister => exact ⟨rfl, rfl⟩
  | marked => exact absurd rfl hevents

/-- What holds of a run gives the order of what is delivered. -/
theorem Inv.delivers {r : EventQueueRun E} (inv : Inv r) : Delivers r where
  inOrder := by rw [inv.dispatched, List.nil_append, inv.events]
  lengths _ := by rw [inv.events, inv.sources, List.length_map, List.length_map]
  own _ p hp := by
    rw [inv.events, inv.sources, List.zip_map', List.mem_map] at hp
    obtain ⟨p', hp', rfl⟩ := hp
    exact (List.mem_filter.mp hp').1
  active _ := inv.waits.pending

/-- What is kept was enqueued once. -/
theorem Inv.nodup_kept {r : EventQueueRun E} (inv : Inv r) : (r.kept.map Prod.fst).Nodup :=
  inv.distinct.sublist (List.filter_sublist.map Prod.fst)

/-- At the start nothing is enqueued. -/
theorem inv_init : Inv (⟨DocumentEventQueue.init, 0, 0, [], [], []⟩ : EventQueueRun E) where
  firing := rfl
  dispatched := rfl
  events := rfl
  sources := rfl
  distinct := List.nodup_nil
  cancelled _ h := nomatch h
  waits := .stopped _

/-- An event is queued: what is there, if the timer can be updated. -/
theorem enqueueEvent_of_inv (type : E → StdString) {r : EventQueueRun E} (inv : Inv r) {event : E}
    {current : Option EventActionId} {lastUI : EventActionId}
    (henabled : r.Enabled type (.enqueueEvent event current lastUI)) :
    ∃ queue : DocumentEventQueue E,
      queue.pendingEventTimer = r.queue.pendingEventTimer ∧
      queue.queuedEvents = r.queue.queuedEvents ++ [event] ∧
      r.exec type (.enqueueEvent event current lastUI) =
        (queue.tryUpdateAndStartTimer type).map (fun queue =>
          { r with queue := queue, accepted := r.accepted ++ [(event, current.getD lastUI)] }) ∧
      ∀ queue' : DocumentEventQueue E, queue'.queuedEvents = queue.queuedEvents →
        queue'.queuedSources = queue.queuedSources →
        Waits queue'.pendingEventTimer queue'.queuedEvents →
        Inv { r with
          queue := queue', accepted := r.accepted ++ [(event, current.getD lastUI)] } := by
  obtain ⟨hfresh, hfiltered⟩ := henabled
  -- an event that is queued has been enqueued before, which a new one has not
  have hnew : event ∉ r.queue.queuedEvents := by
    rw [inv.events]
    exact fun hmem => hfresh ((List.filter_sublist.map Prod.fst).subset hmem)
  refine ⟨{ r.queue with
    seqNumber := if type event = "resize".toList then (r.queue.seqNumber.next (type event)).2
      else r.queue.seqNumber
    queuedEvents := r.queue.queuedEvents ++ [event]
    queuedSources := r.queue.queuedSources ++ [current.getD lastUI] }, rfl, rfl, ?_,
    fun queue' hevents hsources hwaits => ?_⟩
  · -- it is not filtered out and not queued
    rw [exec]
    unfold enqueueEvent
    rw [hfiltered, if_neg Bool.false_ne_true, if_neg hnew]
  · -- what is kept is as before, with the new event at its end
    have hlast : ({ r with
        queue := queue'
        accepted := r.accepted ++ [(event, current.getD lastUI)] } : EventQueueRun E).kept =
          r.kept ++ [(event, current.getD lastUI)] := by
      rw [kept, List.filter_append, kept]
      refine congrArg _ (List.filter_eq_self.mpr fun p hp => ?_)
      obtain rfl := List.mem_singleton.mp hp
      rw [decide_eq_true_eq]
      exact fun hmem => hfresh (inv.cancelled event hmem)
    -- the queue may be any that has its event and its source at the end
    exact
      { firing := inv.firing
        dispatched := inv.dispatched
        events := by rw [hlast, List.map_append, ← inv.events, hevents]; rfl
        sources := by rw [hlast, List.map_append, ← inv.sources, hsources]; rfl
        distinct := by
          rw [List.map_append]
          exact List.concat_eq_append ▸ inv.distinct.concat hfresh
        cancelled := fun e he => by
          rw [List.map_append]
          exact List.mem_append_left _ (inv.cancelled e he)
        waits := hwaits }

/-- An event is queued. Only a timer that is marked with nothing waiting is in the way. -/
theorem enqueueEvent_step (type : E → StdString) {r : EventQueueRun E} (inv : Inv r) {event : E}
    {current : Option EventActionId} {lastUI : EventActionId}
    (henabled : r.Enabled type (.enqueueEvent event current lastUI)) :
    (r.Ok (.enqueueEvent event current lastUI) →
      ∃ r', r.exec type (.enqueueEvent event current lastUI) = some r' ∧ Inv r') ∧
    (¬r.Ok (.enqueueEvent event current lastUI) → ∀ r',
      r.exec type (.enqueueEvent event current lastUI) = some r' → ¬Delivers r') := by
  obtain ⟨queue, htimer, hevents, hexec, hkept⟩ := enqueueEvent_of_inv type inv henabled
  rw [hexec]
  -- an active timer is left alone
  have hactive : queue.pendingEventTimer.isActive = true →
      queue.tryUpdateAndStartTimer type = some queue := tryUpdateAndStartTimer_of_active type
  rw [htimer] at hactive
  have hwaits := inv.waits
  generalize hold : r.queue.queuedEvents = old at hwaits hevents
  generalize htold : r.queue.pendingEventTimer = t at hwaits htimer hactive
  cases hwaits with
  | stopped d =>
    refine ⟨fun _ => ?_, fun hbad => absurd (fun h => ?_) hbad⟩
    · obtain ⟨number, seqNumber, hstart⟩ :=
        tryUpdateAndStartTimer_of_stopped type htimer hevents
      rw [hstart]
      refine ⟨_, rfl, hkept { queue with
        pendingEventTimer := ⟨true, false, eventDescriptor (type event) number, []⟩
        seqNumber := seqNumber } rfl rfl ?_⟩
      dsimp only
      rw [hevents]
      exact .inHeap rfl event []
    · rw [htold] at h
      exact absurd h Bool.false_ne_true
  | @inHeap d hd first rest =>
    refine ⟨fun _ => ⟨_, by rw [hactive rfl]; rfl, hkept queue rfl rfl ?_⟩,
      fun hbad => absurd (fun _ => by rw [htold]; rfl) hbad⟩
    rw [htimer, hevents]
    exact .inHeap hd first _
  | inRegister d first rest =>
    refine ⟨fun _ => ⟨_, by rw [hactive rfl]; rfl, hkept queue rfl rfl ?_⟩,
      fun hbad => absurd (fun _ => by rw [htold]; rfl) hbad⟩
    rw [htimer, hevents]
    exact .inRegister d first _
  | marked d =>
    -- nothing will fire, and the event waits
    refine ⟨fun hok => ?_, fun _ r' hr' hdelivers => ?_⟩
    · have := hok (by rw [htold]; rfl)
      rw [htold] at this
      exact absurd this Bool.false_ne_true
    · rw [hactive rfl] at hr'
      obtain rfl := Option.some.inj hr'
      have hpending := (hdelivers.active inv.firing
        fun hnil => List.cons_ne_nil _ _ (hevents.symm.trans hnil)).2
      dsimp only at hpending
      rw [htimer] at hpending
      exact absurd hpending Bool.false_ne_true

/-- The event is not in the queue. -/
theorem cancelEvent_of_not_mem (type : E → StdString) {r : EventQueueRun E} {event : E}
    (hmem : event ∉ r.queue.queuedEvents) : r.exec type (.cancelEvent event) = some r := by
  rw [exec, cancelEvent, if_neg hmem]
  rfl

/-- An event of the queue is cancelled: what is left, if the timer can be updated. -/
theorem cancelEvent_of_inv (type : E → StdString) {r : EventQueueRun E} (inv : Inv r) {event : E}
    (hmem : event ∈ r.queue.queuedEvents) :
    ∃ queue : DocumentEventQueue E,
      queue.pendingEventTimer = (if r.queue.queuedEvents.head? = some event then
        r.queue.pendingEventTimer.stop else r.queue.pendingEventTimer) ∧
      queue.queuedEvents = remove r.queue.queuedEvents (some event) ∧
      r.exec type (.cancelEvent event) = (queue.tryUpdateAndStartTimer type).map (fun queue =>
        { r with queue := queue, cancelled := r.cancelled ++ [event] }) ∧
      ∀ queue' : DocumentEventQueue E, queue'.queuedEvents = queue.queuedEvents →
        queue'.queuedSources = queue.queuedSources →
        Waits queue'.pendingEventTimer queue'.queuedEvents →
        Inv { r with queue := queue', cancelled := r.cancelled ++ [event] } := by
  -- a queued event is kept
  have hmem' : event ∈ r.kept.map Prod.fst := inv.events ▸ hmem
  -- its source stands at the same place
  have hlt : r.queue.queuedEvents.idxOf event < r.queue.queuedSources.length := by
    rw [inv.sources, List.length_map, ← List.length_map (f := Prod.fst), inv.events]
    exact List.idxOf_lt_length_of_mem hmem'
  refine ⟨⟨if r.queue.queuedEvents.head? = some event then r.queue.pendingEventTimer.stop
      else r.queue.pendingEventTimer, remove r.queue.queuedEvents (some event),
    r.queue.queuedSources.eraseIdx (r.queue.queuedEvents.idxOf event), r.queue.seqNumber,
    r.queue.lastFireEventAction⟩, rfl, rfl, ?_, fun queue' hevents hsources hwaits => ?_⟩
  · -- the event and its source are taken out, and the timer is stopped for the first one
    rw [exec, cancelEvent_of_mem type hmem hlt, Option.map_map]
    rfl
  · -- what is kept loses the event
    have hkept : ({ r with
        queue := queue'
        cancelled := r.cancelled ++ [event] } : EventQueueRun E).kept =
          r.kept.filter fun p => p.1 ≠ event := by
      rw [kept, kept, List.filter_filter]
      refine List.filter_congr fun p _ => ?_
      rw [Bool.eq_iff_iff]
      simp only [decide_eq_true_eq, Bool.and_eq_true, List.mem_append, List.mem_singleton, not_or]
      exact and_comm
    -- the queue may be any without the event and its source
    exact
      { firing := inv.firing
        dispatched := inv.dispatched
        events := by rw [hkept, hevents, ← remove_map_fst, inv.events]
        sources := by
          rw [hkept, hsources, ← List.eraseIdx_map_snd inv.nodup_kept hmem', ← inv.events,
            ← inv.sources]
        distinct := inv.distinct
        cancelled := fun e he => by
          rcases List.mem_append.mp he with he | he
          · exact inv.cancelled e he
          · obtain rfl := List.mem_singleton.mp he
            exact (List.filter_sublist.map Prod.fst).subset hmem'
        waits := hwaits }

/-- An event other than the first is cancelled. -/
theorem cancelEvent_later (type : E → StdString) {r : EventQueueRun E} (inv : Inv r) {event : E}
    (hmem : event ∈ r.queue.queuedEvents) (hlater : r.queue.queuedEvents.head? ≠ some event) :
    ∃ r', r.exec type (.cancelEvent event) = some r' ∧ Inv r' := by
  obtain ⟨queue, htimer, hevents, hexec, hkept⟩ := cancelEvent_of_inv type inv hmem
  rw [if_neg hlater] at htimer
  have hactive := (inv.waits.pending (List.ne_nil_of_mem hmem)).1
  rw [hexec, tryUpdateAndStartTimer_of_active type (by rw [htimer]; exact hactive)]
  refine ⟨_, rfl, hkept queue rfl rfl ?_⟩
  rw [htimer, hevents]
  -- the first event stays
  have hwaits := inv.waits
  generalize r.queue.queuedEvents = old at hwaits hlater hmem ⊢
  generalize r.queue.pendingEventTimer = t at hwaits ⊢
  cases hwaits with
  | stopped => exact absurd hmem List.not_mem_nil
  | marked => exact absurd hmem List.not_mem_nil
  | @inHeap d hd first rest =>
    have hfirst : first ≠ event := fun h => hlater (congrArg some h)
    rw [remove, List.filter_cons_of_pos (by simpa using hfirst)]
    exact .inHeap hd first _
  | inRegister d first rest =>
    have hfirst : first ≠ event := fun h => hlater (congrArg some h)
    rw [remove, List.filter_cons_of_pos (by simpa using hfirst)]
    exact .inRegister d first _

/-- The first event is cancelled. -/
theorem cancelEvent_first (type : E → StdString) {r : EventQueueRun E} (inv : Inv r) {event : E}
    (hfirst : r.queue.queuedEvents.head? = some event) :
    (r.Ok (.cancelEvent event) → ∃ r', r.exec type (.cancelEvent event) = some r' ∧ Inv r') ∧
    (¬r.Ok (.cancelEvent event) → ∀ r', r.exec type (.cancelEvent event) = some r' →
      ¬Delivers r') := by
  have hmem : event ∈ r.queue.queuedEvents := List.mem_of_mem_head? hfirst
  obtain ⟨queue, htimer, hevents, hexec, hkept⟩ := cancelEvent_of_inv type inv hmem
  rw [if_pos hfirst] at htimer
  obtain ⟨rest, hcons⟩ := List.head?_eq_some_iff.mp hfirst
  -- no other event of the queue is the first one
  have hrest : remove r.queue.queuedEvents (some event) = rest := by
    have hnodup := inv.nodup_kept
    rw [← inv.events, hcons, List.nodup_cons] at hnodup
    rw [hcons, remove, List.filter_cons_of_neg (by simp), List.filter_eq_self]
    intro e he
    have hne : e ≠ event := fun h => hnodup.1 (h ▸ he)
    simpa using hne
  rw [hrest] at hevents
  have hok : r.Ok (.cancelEvent event) ↔
      (r.queue.pendingEventTimer.inEventActionRegister = true ↔ rest = []) := by
    have hsingle : r.queue.queuedEvents = [event] ↔ rest = [] := by
      rw [hcons]
      simp
    exact ⟨fun h => (h hfirst).trans hsingle, fun h _ => h.trans hsingle.symm⟩
  rw [hok, hexec]
  have hwaits := inv.waits
  rw [hcons] at hwaits
  generalize r.queue.pendingEventTimer = t at hwaits htimer
  cases hwaits with
  | @inHeap d hd _ _ =>
    -- the timer has been stopped, and is started for the next event
    cases rest with
    | nil =>
      rw [tryUpdateAndStartTimer_of_empty type htimer hevents]
      refine ⟨fun h => absurd (h.mpr rfl) Bool.false_ne_true, fun _ r' hr' => ?_⟩
      cases hr'
    | cons next rest =>
      obtain ⟨number, seqNumber, hstart⟩ :=
        tryUpdateAndStartTimer_of_stopped type htimer hevents
      rw [hstart]
      refine ⟨fun _ => ⟨_, rfl, hkept { queue with
        pendingEventTimer := ⟨true, false, eventDescriptor (type next) number, []⟩
        seqNumber := seqNumber } rfl rfl ?_⟩, fun hbad => absurd ?_ hbad⟩
      · dsimp only
        rw [hevents]
        exact .inHeap rfl next rest
      · exact ⟨fun h => absurd h Bool.false_ne_true, fun h => absurd h (List.cons_ne_nil _ _)⟩
  | inRegister d _ _ =>
    -- the handler is gone and the mark is left, so the timer is not started
    have hstopped : queue.pendingEventTimer = ⟨false, true, d, []⟩ := by
      rw [htimer]
      simp [OneShotTimer.stop]
    rw [tryUpdateAndStartTimer_of_active type (by rw [hstopped]; rfl)]
    refine ⟨fun h => ⟨_, rfl, hkept queue rfl rfl ?_⟩, fun hbad r' hr' hdelivers => hbad ?_⟩
    · rw [hstopped, hevents, h.mp rfl]
      exact .marked d
    · obtain rfl := Option.some.inj hr'
      refine ⟨fun _ => ?_, fun _ => rfl⟩
      by_contra hne
      have hpending := (hdelivers.active inv.firing (by dsimp only; rw [hevents]; exact hne)).2
      dsimp only at hpending
      rw [hstopped] at hpending
      exact absurd hpending Bool.false_ne_true

/-- The timer expires: its firing waits in the register. -/
theorem expire_of_inv (type : E → StdString) {r : EventQueueRun E} (inv : Inv r)
    (henabled : r.Enabled type .expire) : ∃ r', r.exec type .expire = some r' ∧ Inv r' := by
  have hexpire : r.queue.pendingEventTimer.expire = some _ := if_pos henabled
  refine ⟨_, by rw [exec, hexpire]; rfl, ?_⟩
  refine ⟨inv.firing, inv.dispatched, inv.events, inv.sources, inv.distinct, inv.cancelled, ?_⟩
  have hwaits := inv.waits
  obtain ⟨hheap, -⟩ := henabled
  dsimp only
  generalize r.queue.pendingEventTimer = t at hwaits hheap
  generalize r.queue.queuedEvents = events at hwaits
  cases hwaits with
  | stopped => exact absurd hheap Bool.false_ne_true
  | inHeap hd first rest => exact .inRegister _ first rest
  | inRegister => exact absurd hheap Bool.false_ne_true
  | marked => exact absurd hheap Bool.false_ne_true

/-- The timer fires: the event that is dispatched stays in the queue. -/
theorem not_delivers_beginFire {type : E → StdString} {r r' : EventQueueRun E} (inv : Inv r)
    {d : EventActionDescriptor} (hexec : r.exec type (.beginFire d) = some r') : ¬Delivers r' := by
  obtain ⟨timer, hdispatch, hrest⟩ := Option.bind_eq_some_iff.mp hexec
  obtain ⟨⟨event, queue⟩, htake, rfl⟩ := Option.map_eq_some_iff.mp hrest
  obtain ⟨-, rfl⟩ := OneShotTimer.dispatch_eq_some hdispatch
  obtain ⟨-, rfl⟩ := takeEvent_eq_some htake
  intro hdelivers
  have hlength := congrArg List.length hdelivers.inOrder
  dsimp only at hlength
  rw [List.length_append, List.length_append, List.length_singleton, inv.events] at hlength
  exact absurd hlength (Nat.ne_of_gt (Nat.lt_add_of_pos_left (Nat.succ_pos _)))

/-- The next step of a run whose steps have met the condition. -/
theorem step_of_inv (type : E → StdString) {r : EventQueueRun E} (inv : Inv r) {l : Label E}
    (henabled : r.Enabled type l) :
    (r.Ok l → ∃ r', r.exec type l = some r' ∧ Inv r') ∧
    (¬r.Ok l → ∀ r', r.exec type l = some r' → ¬Delivers r') := by
  cases l with
  | enqueueEvent event current lastUI => exact enqueueEvent_step type inv henabled
  | cancelEvent event =>
    -- the first event is cancelled, for which the timer runs
    by_cases hfirst : r.queue.queuedEvents.head? = some event
    · exact cancelEvent_first type inv hfirst
    · -- cancelling another one, or one that is not queued, is allowed
      refine ⟨fun _ => ?_, fun hbad => absurd (fun h => absurd h hfirst) hbad⟩
      by_cases hmem : event ∈ r.queue.queuedEvents
      · exact cancelEvent_later type inv hmem hfirst
      · exact ⟨r, cancelEvent_of_not_mem type hmem, inv⟩
  | expire => exact ⟨fun _ => expire_of_inv type inv henabled, fun hbad => absurd trivial hbad⟩
  | beginFire d => exact ⟨fun hok => hok.elim, fun _ r' hr' => not_delivers_beginFire inv hr'⟩
  | endFire current =>
    -- no handler is running between two calls
    have hidle : 0 < r.firing := henabled
    rw [inv.firing] at hidle
    exact absurd hidle (Nat.lt_irrefl 0)

/-- In every run whose calls are those of the condition. -/
theorem inv_of_reachable {type : E → StdString} {r : EventQueueRun E}
    (h : ((runs type).restrict Ok).Reachable r) : Inv r := by
  refine Lts.Reachable.invariant ?_ ?_ h
  · rintro _ rfl
    exact inv_init
  · intro r l r' _ inv h
    obtain ⟨r'', hr'', hinv⟩ := (step_of_inv type inv h.2.1).1 h.1
    exact Option.some.inj (hr''.symm.trans h.2.2) ▸ hinv

/-- In every run whose steps all meet the condition the queue does what it is for, and a further
    step keeps it so, and takes the first element of no empty queue, iff it meets the condition. -/
theorem delivers_iff_ok {type : E → StdString} {r : EventQueueRun E}
    (h : ((runs type).restrict Ok).Reachable r) :
    Delivers r ∧ ∀ l, r.Enabled type l →
      ((∃ r', r.exec type l = some r' ∧ Delivers r') ↔ r.Ok l) := by
  have inv := inv_of_reachable h
  refine ⟨inv.delivers, fun l henabled => ?_⟩
  obtain ⟨hgood, hbad⟩ := step_of_inv type inv henabled
  constructor
  · rintro ⟨r', hr', hdelivers⟩
    by_contra hok
    exact hbad hok r' hr' hdelivers
  · intro hok
    obtain ⟨r', hr', hinv⟩ := hgood hok
    exact ⟨r', hr', hinv.delivers⟩

/-! ## Firings -/

omit [DecidableEq E] in
/-- Only the timer is updated. -/
theorem tryUpdateAndStartTimer_frame {type : E → StdString} {q q' : DocumentEventQueue E}
    (h : q.tryUpdateAndStartTimer type = some q') :
    q'.queuedEvents = q.queuedEvents ∧ q'.queuedSources = q.queuedSources := by
  unfold tryUpdateAndStartTimer at h
  split at h
  · obtain rfl := Option.some.inj h
    exact ⟨rfl, rfl⟩
  · split at h
    · cases h
    · obtain rfl := Option.some.inj h
      exact ⟨rfl, rfl⟩

/-- What holds in every state of every run. -/
structure Counted (r : EventQueueRun E) : Prop where
  nodup : r.queue.queuedEvents.Nodup
  accepted : ∀ event ∈ r.queue.queuedEvents, event ∈ r.accepted.map Prod.fst
  length : r.queue.queuedEvents.length = r.queue.queuedSources.length + r.fired
  distinct : (r.accepted.map Prod.fst).Nodup
  dispatched : ∀ event ∈ r.dispatched, event ∈ r.queue.queuedEvents ∨ event ∈ r.cancelled

/-- Enqueueing an event keeps the count. -/
theorem counted_enqueueEvent {type : E → StdString} {r r' : EventQueueRun E} (inv : Counted r)
    {event : E} {current : Option EventActionId} {lastUI : EventActionId}
    (henabled : r.Enabled type (.enqueueEvent event current lastUI))
    (h : r.exec type (.enqueueEvent event current lastUI) = some r') : Counted r' := by
  obtain ⟨hfresh, hfiltered⟩ := henabled
  obtain ⟨queue, hqueue, rfl⟩ := Option.map_eq_some_iff.mp h
  have hnew : event ∉ r.queue.queuedEvents := fun hmem => hfresh (inv.accepted event hmem)
  unfold enqueueEvent at hqueue
  rw [hfiltered, if_neg Bool.false_ne_true, if_neg hnew] at hqueue
  obtain ⟨hevents, hsources⟩ := tryUpdateAndStartTimer_frame hqueue
  refine ⟨?_, fun e he => ?_, ?_, ?_, fun e he => ?_⟩
  · -- the event is queued once
    dsimp only
    rw [hevents]
    exact List.concat_eq_append ▸ inv.nodup.concat hnew
  · -- what is queued has been accepted
    dsimp only at he ⊢
    rw [hevents, List.mem_append] at he
    rw [List.map_append]
    rcases he with he | he
    · exact List.mem_append_left _ (inv.accepted e he)
    · obtain rfl := List.mem_singleton.mp he
      exact List.mem_append_right _ (List.mem_singleton.mpr rfl)
  · -- both lists get one element
    have := inv.length
    dsimp only
    rw [hevents, hsources, List.length_append, List.length_append, List.length_singleton,
      List.length_singleton]
    omega
  · -- it has not been enqueued before
    dsimp only
    rw [List.map_append]
    exact List.concat_eq_append ▸ inv.distinct.concat hfresh
  · -- what was dispatched is still queued, or was cancelled
    dsimp only
    rw [hevents]
    exact (inv.dispatched e he).imp_left (List.mem_append_left _)

/-- Cancelling an event keeps the count. -/
theorem counted_cancelEvent {type : E → StdString} {r r' : EventQueueRun E} (inv : Counted r)
    {event : E} (h : r.exec type (.cancelEvent event) = some r') : Counted r' := by
  by_cases hmem : event ∈ r.queue.queuedEvents
  · -- the event is queued
    obtain ⟨⟨found, queue⟩, hqueue, rfl⟩ := Option.map_eq_some_iff.mp h
    -- it has a source, for otherwise the call would not return
    have hlt : r.queue.queuedEvents.idxOf event < r.queue.queuedSources.length := by
      unfold cancelEvent at hqueue
      rw [if_pos hmem] at hqueue
      by_contra hge
      split at hqueue <;> simp only [if_neg hge, reduceCtorEq] at hqueue
    rw [cancelEvent_of_mem type hmem hlt] at hqueue
    obtain ⟨queue', hqueue', heq⟩ := Option.map_eq_some_iff.mp hqueue
    obtain ⟨rfl, rfl⟩ := Prod.mk.inj heq
    obtain ⟨hevents, hsources⟩ := tryUpdateAndStartTimer_frame hqueue'
    dsimp only at hevents hsources
    -- each event is queued once, so that removing it removes one
    have herase : remove r.queue.queuedEvents (some event) = r.queue.queuedEvents.erase event := by
      rw [inv.nodup.erase_eq_filter]
      exact List.filter_congr fun e _ => by by_cases he : e = event <;> simp [he]
    refine ⟨?_, fun e he => ?_, ?_, inv.distinct, fun e he => ?_⟩
    · dsimp only
      rw [hevents]
      exact inv.nodup.filter _
    · dsimp only at he
      rw [hevents] at he
      exact inv.accepted e (List.mem_of_mem_filter he)
    · have := inv.length
      dsimp only
      -- both lists lose one element
      rw [hevents, hsources, herase, List.length_erase_of_mem hmem, List.length_eraseIdx_of_lt hlt]
      omega
    · dsimp only
      rw [if_pos rfl, hevents]
      -- what was dispatched is queued or cancelled, and this one is cancelled now
      rcases inv.dispatched e he with hqueued | hcancelled
      · by_cases heq : e = event
        · exact .inr (List.mem_append_right _ (List.mem_singleton.mpr heq))
        · exact .inl (List.mem_filter.mpr ⟨hqueued, by simpa using heq⟩)
      · exact .inr (List.mem_append_left _ hcancelled)
  · -- the event is not queued, and nothing happens
    rw [cancelEvent_of_not_mem type hmem] at h
    exact Option.some.inj h ▸ inv

/-- Every step keeps the count. -/
theorem counted_step {type : E → StdString} {r r' : EventQueueRun E} {l : Label E}
    (inv : Counted r) (henabled : r.Enabled type l) (h : r.exec type l = some r') :
    Counted r' := by
  cases l with
  | enqueueEvent event current lastUI => exact counted_enqueueEvent inv henabled h
  | cancelEvent event => exact counted_cancelEvent inv h
  | expire =>
    obtain ⟨timer, -, rfl⟩ := Option.map_eq_some_iff.mp h
    exact ⟨inv.nodup, inv.accepted, inv.length, inv.distinct, inv.dispatched⟩
  | beginFire d =>
    obtain ⟨timer, -, hrest⟩ := Option.bind_eq_some_iff.mp h
    obtain ⟨⟨event, queue⟩, htake, rfl⟩ := Option.map_eq_some_iff.mp hrest
    obtain ⟨hmem, rfl⟩ := takeEvent_eq_some htake
    -- what is dispatched was the first of the queue
    refine ⟨inv.nodup, inv.accepted, inv.length, inv.distinct, fun e he => ?_⟩
    rcases List.mem_append.mp he with he | he
    · exact inv.dispatched e he
    · exact .inl (List.mem_singleton.mp he ▸ hmem)
  | endFire current =>
    obtain ⟨⟨arcs, queue⟩, hfinish, rfl⟩ := Option.map_eq_some_iff.mp h
    unfold finishEvent at hfinish
    split at hfinish
    · -- without a source the call does not return
      cases hfinish
    · rename_i source rest hsources
      obtain ⟨-, rfl⟩ := Prod.mk.inj (Option.some.inj hfinish)
      -- the source goes, and the event stays
      refine ⟨inv.nodup, inv.accepted, ?_, inv.distinct, inv.dispatched⟩
      have := inv.length
      rw [hsources, List.length_cons] at this
      dsimp only
      omega

/-- In every run what was enqueued is counted. -/
theorem counted_of_reachable {type : E → StdString} {r : EventQueueRun E}
    (h : (runs type).Reachable r) : Counted r := by
  refine Lts.Reachable.invariant ?_ ?_ h
  · rintro _ rfl
    exact ⟨List.nodup_nil, fun _ h => absurd h List.not_mem_nil, rfl, List.nodup_nil,
      fun _ h => absurd h List.not_mem_nil⟩
  · intro _ _ _ _ inv h
    exact counted_step inv h.1 h.2

/-- In every state of every run, the events without a source are as many as the firings. -/
theorem length_eq_of_reachable {type : E → StdString} {r : EventQueueRun E}
    (h : (runs type).Reachable r) :
    r.queue.queuedEvents.length = r.queue.queuedSources.length + r.fired :=
  (counted_of_reachable h).length

/-- Once an event has been dispatched the queue never does again what it is for: the event is
    still queued, or has been cancelled since. -/
theorem not_delivers_of_dispatched {type : E → StdString} {r : EventQueueRun E}
    (h : (runs type).Reachable r) (hdispatched : r.dispatched ≠ []) : ¬Delivers r := by
  intro hdelivers
  have inv := counted_of_reachable h
  obtain ⟨event, hevent⟩ := List.exists_mem_of_ne_nil _ hdispatched
  have hnodup : (r.kept.map Prod.fst).Nodup :=
    inv.distinct.sublist (List.filter_sublist.map Prod.fst)
  rcases inv.dispatched event hevent with hqueued | hcancelled
  · rw [← hdelivers.inOrder] at hnodup
    exact List.disjoint_of_nodup_append hnodup hevent hqueued
  · have hkept : event ∈ r.kept.map Prod.fst :=
      hdelivers.inOrder ▸ List.mem_append_left _ hevent
    obtain ⟨p, hp, rfl⟩ := List.mem_map.mp hkept
    exact of_decide_eq_true (List.mem_filter.mp hp).2 hcancelled

/-! ## Two runs -/

instance (type : E → StdString) (r : EventQueueRun E) : ∀ l, Decidable (r.Enabled type l)
  | .enqueueEvent event _ _ =>
    inferInstanceAs (Decidable (event ∉ r.accepted.map Prod.fst ∧
      r.queue.filtered type event = false))
  | .cancelEvent _ => inferInstanceAs (Decidable True)
  | .expire =>
    inferInstanceAs (Decidable (r.queue.pendingEventTimer.inHeap = true ∧
      r.queue.pendingEventTimer.eventActionDescriptor.isNull = false))
  | .beginFire d => inferInstanceAs (Decidable (d ∈ r.queue.pendingEventTimer.waiting))
  | .endFire _ => inferInstanceAs (Decidable (0 < r.firing))

instance (r : EventQueueRun E) : ∀ l, Decidable (r.Ok l)
  | .enqueueEvent _ _ _ =>
    inferInstanceAs (Decidable (r.queue.pendingEventTimer.isActive = true →
      r.queue.pendingEventTimer.isPending = true))
  | .cancelEvent event =>
    inferInstanceAs (Decidable (r.queue.queuedEvents.head? = some event →
      (r.queue.pendingEventTimer.inEventActionRegister = true ↔ r.queue.queuedEvents = [event])))
  | .expire => inferInstanceAs (Decidable True)
  | .beginFire _ => inferInstanceAs (Decidable False)
  | .endFire _ => inferInstanceAs (Decidable False)

/-- The state after a run, if its steps are enabled and meet a condition. -/
def after (type : E → StdString) (ok : EventQueueRun E → Label E → Prop)
    [∀ r l, Decidable (ok r l)] (ls : List (Label E)) : Option (EventQueueRun E) :=
  ls.foldlM (fun r l => if r.Enabled type l ∧ ok r l then r.exec type l else none)
    ⟨DocumentEventQueue.init, 0, 0, [], [], []⟩

/-- What a run computes is reached. -/
theorem reachable_of_after {type : E → StdString} {ok : EventQueueRun E → Label E → Prop}
    [∀ r l, Decidable (ok r l)] {ls : List (Label E)} {r : EventQueueRun E}
    (h : after type ok ls = some r) : ((runs type).restrict ok).Reachable r := by
  refine Lts.Reachable.foldlM (fun r l r' hstep => ?_) (.init rfl) h
  split at hstep
  · rename_i henabled
    exact ⟨henabled.2, henabled.1, hstep⟩
  · cases hstep

/-- The type of the events in the runs below. -/
def click : Nat → StdString := fun _ => "click".toList

/-- Two events are queued, and the second is cancelled while the timer waits in the register. -/
theorem delivers_iff_ok_of_cancelled :
    ∃ r : EventQueueRun Nat, ((runs click).restrict Ok).Reachable r ∧
      r.queue.queuedEvents = [0] ∧ r.queue.queuedSources = [7] ∧ Delivers r := by
  obtain ⟨r, hr, hevents, hsources⟩ : ∃ r, after click Ok [.enqueueEvent 0 (some 7) 5,
      .enqueueEvent 1 none 5, .expire, .cancelEvent 1] = some r ∧
        r.queue.queuedEvents = [0] ∧ r.queue.queuedSources = [7] := ⟨_, rfl, rfl, rfl⟩
  have hreach := reachable_of_after hr
  exact ⟨r, hreach, hevents, hsources, (delivers_iff_ok hreach).1⟩

/-- Two events are queued and the timer fires twice: the first event is dispatched each time, the
    second is not, and no source is left. In another run the only event is cancelled, for which
    the first element of an empty queue is asked for. -/
theorem event_dispatched_twice :
    (∃ r : EventQueueRun Nat, (runs click).Reachable r ∧ r.accepted.map Prod.fst = [0, 1] ∧
      r.cancelled = [] ∧ r.dispatched = [0, 0] ∧ r.queue.queuedEvents = [0, 1] ∧
      r.queue.queuedSources = [] ∧ ¬Delivers r) ∧
    ∃ r : EventQueueRun Nat, (runs click).Reachable r ∧ r.queue.queuedEvents = [0] ∧
      r.exec click (.cancelEvent 0) = none := by
  let any : EventQueueRun Nat → Label Nat → Prop := fun _ _ => True
  refine ⟨?_, ?_⟩
  · -- the second event is never dispatched, and the first one twice
    obtain ⟨r, hr, hobs⟩ : ∃ r, after click any [.enqueueEvent 0 (some 7) 5, .expire,
        .beginFire (eventDescriptor "click".toList 0), .endFire 8, .enqueueEvent 1 none 5,
        .expire, .beginFire (eventDescriptor "click".toList 1), .endFire 9] = some r ∧
          r.accepted.map Prod.fst = [0, 1] ∧ r.cancelled = [] ∧
            r.dispatched = [0, 0] ∧ r.queue.queuedEvents = [0, 1] ∧ r.queue.queuedSources = [] :=
      ⟨_, rfl, rfl, rfl, rfl, rfl, rfl⟩
    have hreach := (reachable_of_after hr).of_restrict
    obtain ⟨haccepted, hcancelled, hdispatched, hevents, hsources⟩ := hobs
    refine ⟨r, hreach, haccepted, hcancelled, hdispatched, hevents, hsources,
      not_delivers_of_dispatched hreach ?_⟩
    rw [hdispatched]
    exact List.cons_ne_nil _ _
  · -- an event without a source cannot be cancelled
    obtain ⟨r, hr, hevents, hcancel⟩ : ∃ r, after click any [.enqueueEvent 0 (some 7) 5] =
        some r ∧ r.queue.queuedEvents = [0] ∧ r.exec click (.cancelEvent 0) = none :=
      ⟨_, rfl, rfl, rfl⟩
    exact ⟨r, (reachable_of_after hr).of_restrict, hevents, hcancel⟩

end EventQueueRun

end R4
