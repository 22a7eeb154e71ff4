import Mathlib.Algebra.Ring.Int.Defs
import Mathlib.Order.WithBot
import R4.ForStd.Heap
import R4.Native.Register

/-!
# Timers

`WebCore::TimerBase` (`Timer.h`, `Timer.cpp`) and `WebCore::ThreadTimers`
(`ThreadTimers.cpp`): the heap of running timers, and the way a timer takes through the
event action register once its time has come.

`ι` are the timer objects. `T` are the times, doubles in the source: all the code does with
them is compare them, test them for 0 and add an interval to a time, and nothing is assumed
of the addition. The handler that a timer registers is `fireTimerCallback` with the timer,
so the handlers of the register are timers too. `none` is undefined behaviour: the heap is
accessed through an index that is not in it.

The happens-before and action log calls, the interval that is stored for them and the
shared timer of the platform are left out, as none of them is read by the code below.
-/

namespace R4

variable {ι T : Type} [DecidableEq ι] [LinearOrder T] [Zero T] [Add T]

/-- `TimerBase`. `nextFireTime` and `repeatInterval` are 0 while there is none, and
    `heapIndex` is -1 in the source where it is `none` here. -/
structure TimerBase (T : Type) where
  nextFireTime : T
  repeatInterval : T
  heapIndex : Option Nat
  heapInsertionOrder : UInt32
  eventActionDescriptor : EventActionDescriptor
  inEventActionRegister : Bool

/-- `TimerBase()`; the source leaves the insertion order uninitialised. -/
def TimerBase.init : TimerBase T where
  nextFireTime := 0
  repeatInterval := 0
  heapIndex := none
  heapInsertionOrder := 0
  eventActionDescriptor := EventActionDescriptor.null
  inEventActionRegister := false

/-- `isActive`. -/
def TimerBase.isActive (t : TimerBase T) : Bool := t.nextFireTime ≠ 0 || t.inEventActionRegister

/-- `TimerHeapLessThanFunction`, for keys that `heapPop` can change: a timer is less than
    another when it fires later, and among equal times when it was inserted later. The
    difference of the insertion orders wraps around. -/
def timerHeapLessThan (key : ι → WithBot T) (order : ι → UInt32) (a b : ι) : Bool :=
  if key b ≠ key a then key b < key a else order a - order b < 4294967295 / 2

/-- The timers of a thread. -/
structure ThreadTimers (ι T : Type) where
  timers : ι → TimerBase T
  timerHeap : Array ι
  currentHeapInsertionOrder : UInt32
  eventActionRegister : EventActionRegister ι

namespace ThreadTimers

/-- No timer is running. -/
def init : ThreadTimers ι T where
  timers _ := TimerBase.init
  timerHeap := #[]
  currentHeapInsertionOrder := 0
  eventActionRegister := EventActionRegister.empty

/-- Change the fields of one timer. -/
def modify (s : ThreadTimers ι T) (t : ι) (f : TimerBase T → TimerBase T) : ThreadTimers ι T :=
  { s with timers := Function.update s.timers t (f (s.timers t)) }

omit [LinearOrder T] [Zero T] [Add T] in
/-- The timer that is changed. -/
@[simp] theorem modify_self (s : ThreadTimers ι T) (t : ι) (f : TimerBase T → TimerBase T) :
    (s.modify t f).timers t = f (s.timers t) := Function.update_self ..

omit [LinearOrder T] [Zero T] [Add T] in
/-- The timers that are not changed. -/
theorem modify_of_ne {s : ThreadTimers ι T} {t u : ι} (f : TimerBase T → TimerBase T)
    (hu : u ≠ t) : (s.modify t f).timers u = s.timers u := Function.update_of_ne hu ..

omit [LinearOrder T] [Zero T] [Add T] in
@[simp] theorem modify_eventActionRegister (s : ThreadTimers ι T) (t : ι)
    (f : TimerBase T → TimerBase T) :
    (s.modify t f).eventActionRegister = s.eventActionRegister := rfl

/-! ## The heap -/

/-- The position of a timer in the heap. -/
def heapPosition (heap : Array ι) (t : ι) : Option Nat :=
  if t ∈ heap.toList then some (heap.toList.idxOf t) else none

/-- The heap is written through `TimerHeapReference`, which keeps `m_heapIndex` of every
    timer in it up to date. -/
def setHeap (s : ThreadTimers ι T) (heap : Array ι) : ThreadTimers ι T :=
  { s with
    timerHeap := heap
    timers := fun u =>
      match heapPosition heap u with
      | some i => { s.timers u with heapIndex := some i }
      | none => s.timers u }

/-- The keys of the heap. -/
def fireTimes (s : ThreadTimers ι T) (t : ι) : WithBot T := (s.timers t).nextFireTime

/-- The comparison of the heap. -/
def lessThan (s : ThreadTimers ι T) (key : ι → WithBot T) : ι → ι → Bool :=
  timerHeapLessThan key fun u => (s.timers u).heapInsertionOrder

/-- `heapDecreaseKey`. -/
def heapDecreaseKey (s : ThreadTimers ι T) (key : ι → WithBot T) (t : ι) :
    Option (ThreadTimers ι T) :=
  match (s.timers t).heapIndex with
  | some i =>
    -- pushing starts at the index that the timer has been given
    if i < s.timerHeap.size then
      some (s.setHeap (StdHeap.pushHeap (s.lessThan key) s.timerHeap i))
    else none
  | none => none

/-- `heapPopMin`. -/
def heapPopMin (s : ThreadTimers ι T) (key : ι → WithBot T) : ThreadTimers ι T :=
  s.setHeap (StdHeap.popHeap (s.lessThan key) s.timerHeap)

/-- `heapPop`: the timer is given the key minus infinity while it is popped. -/
def heapPop (s : ThreadTimers ι T) (t : ι) : Option (ThreadTimers ι T) :=
  let key := Function.update s.fireTimes t ⊥
  (s.heapDecreaseKey key t).map fun s => s.heapPopMin key

/-- `heapDelete`. -/
def heapDelete (s : ThreadTimers ι T) (t : ι) : Option (ThreadTimers ι T) :=
  (s.heapPop t).map fun s =>
    { s with timerHeap := s.timerHeap.pop }.modify t fun b => { b with heapIndex := none }

/-- `heapIncreaseKey`. -/
def heapIncreaseKey (s : ThreadTimers ι T) (t : ι) : Option (ThreadTimers ι T) := do
  let s ← s.heapPop t
  s.heapDecreaseKey s.fireTimes t

/-- `heapInsert`. -/
def heapInsert (s : ThreadTimers ι T) (t : ι) : Option (ThreadTimers ι T) :=
  let s := { s with timerHeap := s.timerHeap.push t }.modify t fun b =>
    { b with heapIndex := some s.timerHeap.size }
  s.heapDecreaseKey s.fireTimes t

/-- The heap operation that a change of the fire time asks for. -/
def reorder (s : ThreadTimers ι T) (t : ι) (oldTime newTime : T) : Option (ThreadTimers ι T) :=
  -- 0 stands for a timer that is not in the heap
  if oldTime = 0 then s.heapInsert t
  else if newTime = 0 then s.heapDelete t
  else if newTime < oldTime then s.heapDecreaseKey s.fireTimes t
  else s.heapIncreaseKey t

/-- `setNextFireTime`. -/
def setNextFireTime (s : ThreadTimers ι T) (t : ι) (newTime : T) : Option (ThreadTimers ι T) :=
  let oldTime := (s.timers t).nextFireTime
  if oldTime ≠ newTime then
    let s := s.modify t fun b =>
      { b with nextFireTime := newTime, heapInsertionOrder := s.currentHeapInsertionOrder }
    { s with currentHeapInsertionOrder := s.currentHeapInsertionOrder + 1 }.reorder t oldTime
      newTime
  else some s

/-! ## Timers -/

/-- `start`, at time `now` of the monotonic clock. -/
def start (s : ThreadTimers ι T) (t : ι) (now nextFireInterval repeatInterval : T) :
    Option (ThreadTimers ι T) :=
  (s.modify t fun b => { b with repeatInterval := repeatInterval }).setNextFireTime t
    (now + nextFireInterval)

/-- `ThreadTimers::deregisterEventActionHandler`. -/
def deregisterEventActionHandler (s : ThreadTimers ι T) (t : ι) : ThreadTimers ι T :=
  { s with
    eventActionRegister :=
      s.eventActionRegister.deregisterEventActionHandler (s.timers t).eventActionDescriptor }

/-- `stop`, which is also what the destructor does. -/
def stop (s : ThreadTimers ι T) (t : ι) : Option (ThreadTimers ι T) :=
  ((s.modify t fun b => { b with repeatInterval := 0 }).setNextFireTime t 0).map fun s =>
    -- the flag stays set, and every handler under the descriptor goes
    if (s.timers t).inEventActionRegister then s.deregisterEventActionHandler t else s

/-- `augmentFireInterval`. -/
def augmentFireInterval (s : ThreadTimers ι T) (t : ι) (delta : T) : Option (ThreadTimers ι T) :=
  s.setNextFireTime t ((s.timers t).nextFireTime + delta)

/-- `augmentRepeatInterval`. -/
def augmentRepeatInterval (s : ThreadTimers ι T) (t : ι) (delta : T) :
    Option (ThreadTimers ι T) :=
  (s.augmentFireInterval t delta).map fun s =>
    s.modify t fun b => { b with repeatInterval := b.repeatInterval + delta }

/-- `setEventActionDescriptor`. -/
def setEventActionDescriptor (s : ThreadTimers ι T) (t : ι) (descriptor : EventActionDescriptor) :
    ThreadTimers ι T :=
  s.modify t fun b => { b with eventActionDescriptor := descriptor }

/-! ## Firing -/

/-- `fireTimerCallback` up to the call of `fired()`. -/
def fireTimerCallback (s : ThreadTimers ι T) (t : ι) (now : T) : Option (ThreadTimers ι T) :=
  let s := s.modify t fun b => { b with inEventActionRegister := false }
  let interval := (s.timers t).repeatInterval
  -- a repeating timer is started again before it fires
  s.setNextFireTime t (if interval ≠ 0 then now + interval else 0)

/-- What becomes of a timer that has been taken off the heap: it is fired at once if it has
    no descriptor, and registered otherwise. -/
def hand (s : ThreadTimers ι T) (t : ι) (now : T) : Option (ThreadTimers ι T) :=
  let descriptor := (s.timers t).eventActionDescriptor
  if descriptor.isNull then s.fireTimerCallback t now
  else
    let s := s.modify t fun b => { b with inEventActionRegister := true }
    some { s with
      eventActionRegister := s.eventActionRegister.registerEventActionHandler descriptor t }

/-- One round of the loop of `sharedTimerFiredInternal`, if the first timer is due at
    `fireTime`. -/
def expire (s : ThreadTimers ι T) (fireTime now : T) : Option (ThreadTimers ι T) := do
  let t ← s.timerHeap[0]?
  if (s.timers t).nextFireTime ≤ fireTime then
    -- the time is reset first, so the key in the heap is not the old one
    let s ← (s.modify t fun b => { b with nextFireTime := 0 }).heapDelete t
    s.hand t now
  else none

end ThreadTimers

end R4
