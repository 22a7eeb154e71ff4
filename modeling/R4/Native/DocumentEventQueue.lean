import R4.ForStd.CString
import R4.ForStd.Numbering
import R4.Native.OneShotTimer

/-!
# The event queue of a document

`WebCore::DocumentEventQueue` (`DocumentEventQueue.h`, `DocumentEventQueue.cpp`): events that are
dispatched one for each firing of `m_pendingEventTimer`, and beside them the event actions that
they were queued by. The firing is cut in two at the call of `dispatchEvent`, whose handlers may
queue and cancel events themselves.

The events are the elements of a set in the order of insertion, compared as pointers, and none of
them is null. `none` as a result is undefined behaviour: the first element of an empty queue or
list, or the removal of an element that is not there.

Closing the queue, and what is kept to merge scroll events, are left out.
-/

namespace R4

open StdString

variable {E : Type} [DecidableEq E]

/-- `DocumentEventQueue`, with the sequence numbers that all queues share. -/
structure DocumentEventQueue (E : Type) where
  pendingEventTimer : OneShotTimer
  queuedEvents : List E
  queuedSources : List EventActionId
  seqNumber : KeyNumbering StdString
  lastFireEventAction : EventActionId

namespace DocumentEventQueue

/-- The constructor. -/
def init : DocumentEventQueue E where
  pendingEventTimer := OneShotTimer.init
  queuedEvents := []
  queuedSources := []
  seqNumber := ∅
  lastFireEventAction := 0

/-- The removal of a value from the set of events, which may be a null pointer. -/
def remove (events : List E) (value : Option E) : List E := events.filter fun e => some e ≠ value

/-- The descriptor of the next firing. -/
def eventDescriptor (type : StdString) (number : UInt32) : EventActionDescriptor :=
  .make .other "DocumentEventQueue".toList (type ++ ',' :: decimal number.toNat)

/-- `tryUpdateAndStartTimer`, where `type` is the type of an event. -/
def tryUpdateAndStartTimer (type : E → StdString) (q : DocumentEventQueue E) :
    Option (DocumentEventQueue E) :=
  if q.pendingEventTimer.isActive then some q
  else
    match q.queuedEvents with
    | [] => none
    | first :: _ =>
      let (number, seqNumber) := q.seqNumber.next (type first)
      some { q with
        pendingEventTimer := (q.pendingEventTimer.setEventActionDescriptor
          (eventDescriptor (type first) number)).startOneShot
        seqNumber := seqNumber }

/-- `enqueueEvent` filters the event out: it is not the first resize event. -/
def filtered (type : E → StdString) (q : DocumentEventQueue E) (event : E) : Bool :=
  type event = "resize".toList && 0 < q.seqNumber.counter (type event)

/-- `enqueueEvent` on a queue that is not closed. -/
def enqueueEvent (type : E → StdString) (q : DocumentEventQueue E) (event : E)
    (currentEventAction : Option EventActionId) (lastUIEventAction : EventActionId) :
    Option (DocumentEventQueue E) :=
  if q.filtered type event then some q
  else
    tryUpdateAndStartTimer type { q with
      -- the first resize event is counted, and those after it are not let through
      seqNumber :=
        if type event = "resize".toList then (q.seqNumber.next (type event)).2 else q.seqNumber
      queuedEvents := if event ∈ q.queuedEvents then q.queuedEvents else q.queuedEvents ++ [event]
      queuedSources := q.queuedSources ++ [currentEventAction.getD lastUIEventAction] }

/-- `cancelEvent`: whether the event was found, and the queue. -/
def cancelEvent (type : E → StdString) (q : DocumentEventQueue E) (event : E) :
    Option (Bool × DocumentEventQueue E) :=
  if event ∈ q.queuedEvents then
    let index := q.queuedEvents.idxOf event
    let q := if q.queuedEvents.head? = some event then
        { q with pendingEventTimer := q.pendingEventTimer.stop }
      else q
    if index < q.queuedSources.length then
      (tryUpdateAndStartTimer type { q with
        queuedSources := q.queuedSources.eraseIdx index
        queuedEvents := remove q.queuedEvents (some event) }).map fun q => (true, q)
    else none
  else some (false, q)

/-- `pendingEventTimerFired` up to the call of `dispatchEvent`: the event, and the queue. -/
def takeEvent (q : DocumentEventQueue E) : Option (E × DocumentEventQueue E) :=
  match q.queuedEvents with
  | [] => none
  | event :: _ =>
    -- `remove(0)` is the removal of a null pointer
    some (event, { q with queuedEvents := remove q.queuedEvents none })

/-- The rest of `pendingEventTimerFired`: the happens-before arcs, and the queue. -/
def finishEvent (q : DocumentEventQueue E) (currentEventAction : EventActionId) :
    Option (List (EventActionId × EventActionId) × DocumentEventQueue E) :=
  match q.queuedSources with
  | [] => none
  | source :: rest =>
    let chaining := if q.lastFireEventAction ≠ 0 then
        [(q.lastFireEventAction, currentEventAction)]
      else []
    some ((source, currentEventAction) :: chaining,
      { q with queuedSources := rest, lastFireEventAction := currentEventAction })

end DocumentEventQueue

end R4
