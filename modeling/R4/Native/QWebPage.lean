import R4.Native.DeferredQEvent
import R4.Native.OneShotTimer

/-!
# Deferred user events

`QWebPagePrivate` (`qwebpage.cpp`), as far as user events are deferred: `deferEvent` queues an
event, and each firing of `m_deferredEventTimer` hands the first one to `eventDeferred`. The
firing is cut in two at the call of `eventDeferred`, whose handlers may defer events themselves.

The provider that makes user events up when a log is replayed does not go through the queue and
is left out.
-/

namespace R4

/-- `QWebPagePrivate`. -/
structure QWebPagePrivate where
  ignoreMouseMove : Bool
  deferredEventQueue : List DeferredQEvent
  deferredEventTimer : OneShotTimer

namespace QWebPagePrivate

/-- The constructor. -/
def init : QWebPagePrivate where
  ignoreMouseMove := false
  deferredEventQueue := []
  deferredEventTimer := OneShotTimer.init

variable (keyModifiers : Int32 → Int32 → Int32)

/-- The descriptor of the firing that delivers an event. -/
def userEventDescriptor (event : DeferredQEvent) : EventActionDescriptor :=
  .make .userInterface "UserEvent".toList (event.serialize keyModifiers)

/-- `rescheduleDeferredEventTimerIfStopped`. -/
def rescheduleDeferredEventTimerIfStopped (p : QWebPagePrivate) : QWebPagePrivate :=
  if p.deferredEventTimer.isActive then p
  else
    match p.deferredEventQueue with
    | [] => p
    | event :: _ =>
      { p with deferredEventTimer :=
          (p.deferredEventTimer.setEventActionDescriptor
            (userEventDescriptor keyModifiers event)).startOneShot }

/-- `deferEvent` returns before it queues the event. -/
def filtered (p : QWebPagePrivate) (event : DeferredQEvent) : Bool :=
  (p.ignoreMouseMove && event.type = .mouse .mouseMove) ||
    -- a press and the release after it are one event
    event.type = .mouse .mouseButtonPress

/-- `deferEvent`: what is queued is a copy of Qt's event. -/
def deferEvent (p : QWebPagePrivate) (event : DeferredQEvent) : QWebPagePrivate :=
  if p.filtered event then p
  else
    { p with
      deferredEventQueue := p.deferredEventQueue ++ [event.copy keyModifiers]
    }.rescheduleDeferredEventTimerIfStopped keyModifiers

/-- `deferredEventTimerFired` up to the call of `eventDeferred`: the event that is delivered.
    `none` is the first element of an empty queue. -/
def takeEvent (p : QWebPagePrivate) : Option (DeferredQEvent × QWebPagePrivate) :=
  match p.deferredEventQueue with
  | [] => none
  | event :: rest => some (event, { p with deferredEventQueue := rest })

end QWebPagePrivate

end R4
