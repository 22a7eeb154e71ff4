import R4.Native.Descriptor

/-!
# One timer of a component

`WebCore::Timer` as a component uses it that has one timer with a descriptor and starts it with
`startOneShot`: whether the timer is in the heap, the mark that it waits in the register, and the
descriptors under which handlers that refer to it wait there.

The heap with its times, and the timers of others, are those of `ThreadTimers`.
-/

namespace R4

/-- A `Timer` that is not repeating. -/
structure OneShotTimer where
  inHeap : Bool
  inEventActionRegister : Bool
  eventActionDescriptor : EventActionDescriptor
  waiting : List EventActionDescriptor
deriving DecidableEq

namespace OneShotTimer

/-- The constructor. -/
def init : OneShotTimer where
  inHeap := false
  inEventActionRegister := false
  eventActionDescriptor := EventActionDescriptor.null
  waiting := []

/-- `isActive`. -/
def isActive (t : OneShotTimer) : Bool := t.inHeap || t.inEventActionRegister

/-- The timer will fire: it can expire, or a handler of it can be dispatched. -/
def isPending (t : OneShotTimer) : Bool := t.inHeap || !t.waiting.isEmpty

/-- `setEventActionDescriptor`. -/
def setEventActionDescriptor (t : OneShotTimer) (d : EventActionDescriptor) : OneShotTimer :=
  { t with eventActionDescriptor := d }

/-- `startOneShot`: whether the timer waits in the register is not looked at. -/
def startOneShot (t : OneShotTimer) : OneShotTimer := { t with inHeap := true }

/-- `stop`: the handlers go if the timer is marked, and the mark stays. -/
def stop (t : OneShotTimer) : OneShotTimer :=
  { t with
    inHeap := false
    waiting :=
      if t.inEventActionRegister then
        t.waiting.filter fun d => d.toString ≠ t.eventActionDescriptor.toString
      else t.waiting }

/-- The timer is due, and is moved from the heap to the register. -/
def expire (t : OneShotTimer) : Option OneShotTimer :=
  if t.inHeap ∧ t.eventActionDescriptor.isNull = false then
    some { t with
      inHeap := false
      inEventActionRegister := true
      waiting := t.waiting ++ [t.eventActionDescriptor] }
  else none

/-- A handler that waits under `d` is dispatched, up to the call of `fired()`. The mark and the
    fire time are reset whether or not the timer has been started since. -/
def dispatch (t : OneShotTimer) (d : EventActionDescriptor) : Option OneShotTimer :=
  if d ∈ t.waiting then
    some { t with
      inHeap := false
      inEventActionRegister := false
      waiting := t.waiting.erase d }
  else none

/-- A timer that expires was in the heap and has a descriptor. -/
theorem expire_eq_some {t t' : OneShotTimer} (h : t.expire = some t') :
    t.inHeap = true ∧ t.eventActionDescriptor.isNull = false ∧
      t' = { t with
        inHeap := false
        inEventActionRegister := true
        waiting := t.waiting ++ [t.eventActionDescriptor] } := by
  unfold expire at h
  split at h
  · rename_i hheap
    exact ⟨hheap.1, hheap.2, (Option.some.inj h).symm⟩
  · cases h

/-- A timer that is dispatched was waiting under its descriptor. -/
theorem dispatch_eq_some {t t' : OneShotTimer} {d : EventActionDescriptor}
    (h : t.dispatch d = some t') :
    d ∈ t.waiting ∧ t' = { t with
      inHeap := false
      inEventActionRegister := false
      waiting := t.waiting.erase d } := by
  unfold dispatch at h
  split at h
  · rename_i hmem
    exact ⟨hmem, (Option.some.inj h).symm⟩
  · cases h

/-- What the operations do to the timer. -/
inductive Step : OneShotTimer → OneShotTimer → Prop where
  | stay (t : OneShotTimer) : Step t t
  | setEventActionDescriptor (t : OneShotTimer) (d : EventActionDescriptor) :
      Step t (t.setEventActionDescriptor d)
  | startOneShot (t : OneShotTimer) : Step t t.startOneShot
  | stop (t : OneShotTimer) : Step t t.stop
  | expire {t t' : OneShotTimer} (h : t.expire = some t') : Step t t'
  | dispatch {t t' : OneShotTimer} {d : EventActionDescriptor} (h : t.dispatch d = some t') :
      Step t t'

end OneShotTimer

end R4
