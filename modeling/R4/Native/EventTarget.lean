import R4.ForStd.Lts
import R4.Native.ActionLog
import R4.Native.EventAttachLog
import R4.Native.EventListenerMap
import R4.Native.WarningCollector

/-!
# Event targets

`EventTarget` (`dom/EventTarget.h`, `EventTarget.cpp`): the listeners of a target, the activations
of `fireEventListeners` that are under way, and what is logged of both. A listener is a script; it
runs inside of the activation that called it, and may add and remove listeners of the target and
fire events at it. What is logged are the calls of the functions that report to the action log; a
report that repeats another one of its event action, for one, does not become a command there.

An activation is cut into steps, so that the scripts can do anything between them: the state keeps
its `FiringEventIterator` with the two locals that this refers to, and says whether a listener is
running. `loop` is the loop from its head up to the next call of `handleEvent`, to the next
iteration or to the end; `handled` is the return of `handleEvent`.
-/

namespace R4

/-! ## Texts -/

/-- A `WTF::AtomicString` that is not null, as its UTF-16 units. -/
abbrev AtomicString := List UInt16

/-- `%p`. -/
def pointerText (address : Nat) : StdString :=
  if address = 0 then "(nil)".toList else "0x".toList ++ Nat.toDigits 16 address

/-- A call of one of the functions of `wtf/ActionLogReport.cpp` that report a command: the command
    and its text. -/
abbrev LogReport := CommandType × StdString

/-- `ActionLogFormat`; `vsnprintf` writes at most 511 bytes, the zero included. -/
def ActionLogFormat (command : CommandType) (text : StdString) : LogReport :=
  (command, text.take 510)

/-- `ActionLogScopeStart`. -/
def ActionLogScopeStart (name : StdString) : LogReport := (.enterScope, name)

/-- `ActionLogScopeEnd`. -/
def ActionLogScopeEnd : LogReport := (.exitScope, [])

/-- What a report hands to `ActionLog::logCommand`: the text is replaced by its index in the set of
    strings for such commands. -/
def LogReport.command (addString : CommandType → StdString → Int) (report : LogReport) : Command :=
  if report.1 = .exitScope then ⟨.exitScope, -1⟩ else ⟨report.1, addString report.1 report.2⟩

/-! ## The data -/

/-- What a target is: its address, and the address and the name of `toNode()`. -/
structure EventTargetObject where
  address : Nat
  node : Option (Nat × AtomicString)
deriving DecidableEq

/-- `Event::PhaseType`. -/
inductive EventPhase where
  | none
  | capturingPhase
  | atTarget
  | bubblingPhase
deriving DecidableEq, Repr

/-- An `Event` that is fired: the object, `type()` and `eventPhase()`. -/
structure FiredEvent where
  identity : Nat
  type : AtomicString
  eventPhase : EventPhase
deriving DecidableEq

/-- `!(eventPhase == CAPTURING_PHASE && !useCapture)`, and the same for bubbling. -/
def FiredEvent.concerns {L : Type} (event : FiredEvent) (r : RegisteredEventListener L) :
    Bool :=
  !(event.eventPhase = .capturingPhase && !r.useCapture) &&
    !(event.eventPhase = .bubblingPhase && r.useCapture)

/-- A `FiringEventIterator` and the activation of `fireEventListeners` that it belongs to.
    `iterator` and `finish` are the locals `i` and `end`, `entry` is the vector behind the
    reference `entry`; `handling` says that `handleEvent` runs. -/
structure FiringEventIterator where
  event : FiredEvent
  iterator : Nat
  finish : Nat
  entry : Nat
  handling : Bool
deriving DecidableEq

/-- `EventTargetData`. The last of the `firingEventIterators` is the head of the list. -/
structure EventTargetData (L : Type) where
  eventListenerMap : EventListenerMap AtomicString L
  firingEventIterators : List FiringEventIterator

/-- `EventTargetData()`. -/
def EventTargetData.init {L : Type} : EventTargetData L := ⟨.init, []⟩

/-- A target with what its functions change: `eventTargetData()`, the events on which
    `stopImmediatePropagation` was called, the log of attached events and the reports to the action
    log. -/
structure EventTarget (L : Type) where
  eventTargetData : Option (EventTargetData L)
  immediatePropagationStopped : List Nat
  attached : EventAttachLog Nat
  reports : List LogReport

/-! ## The arithmetic of `size_t` -/

/-- `++`. -/
def sizeSucc (n : Nat) : Nat := (n + 1) % 2 ^ 64

/-- `--`. -/
def sizePred (n : Nat) : Nat := (n + (2 ^ 64 - 1)) % 2 ^ 64

/-- What a firing event is told of a removal. -/
def FiringEventIterator.notify (f : FiringEventIterator) (eventType : AtomicString) (index : Nat) :
    FiringEventIterator :=
  if eventType ≠ f.event.type then f
  else if f.finish ≤ index then f
  else
    { f with
      finish := sizePred f.finish
      iterator := if index ≤ f.iterator then sizePred f.iterator else f.iterator }

/-- What a firing event is told when all listeners go. -/
def FiringEventIterator.drain (f : FiringEventIterator) : FiringEventIterator :=
  { f with iterator := 0, finish := 0 }

namespace EventTarget

variable {L : Type} (self : EventTargetObject)

/-- The commands are reported to the action log. -/
def report (s : EventTarget L) (commands : List LogReport) : EventTarget L :=
  { s with reports := s.reports ++ commands }

/-- The text of `EventTargetAccess`. -/
def accessText (eventType : AtomicString) : StdString :=
  match self.node with
  | some (node, nodeName) =>
    asciiData nodeName ++ "[".toList ++ pointerText node ++ "].".toList ++ asciiData eventType
  | none => "[".toList ++ pointerText self.address ++ "].".toList ++ asciiData eventType

/-- `EventTargetAccess`. -/
def EventTargetAccess (command : CommandType) (eventType : AtomicString) : LogReport :=
  ActionLogFormat command (accessText self eventType)

/-- `getEventAttachLog()->addEventStr(toNode(), ..)`. -/
def attachEvent (s : EventTarget L) (eventType : AtomicString) : EventTarget L :=
  match self.node with
  | some (node, _) => { s with attached := s.attached.addEventStr node (asciiData eventType) }
  | none => s

/-- `getEventAttachLog()->removeEventTarget(toNode())`. -/
def detachEvents (s : EventTarget L) : EventTarget L :=
  match self.node with
  | some (node, _) => { s with attached := s.attached.removeEventTarget node }
  | none => s

/-- The activations that are under way. -/
def firing (s : EventTarget L) : List FiringEventIterator :=
  match s.eventTargetData with
  | some d => d.firingEventIterators
  | none => []

/-- `d->eventListenerMap.find`. -/
def find (s : EventTarget L) (eventType : AtomicString) : Option (EventListenerVector L) :=
  match s.eventTargetData with
  | some d => d.eventListenerMap.find eventType
  | none => none

/-- `getEventListeners`, which reports a read. -/
def getEventListeners (s : EventTarget L) (eventType : AtomicString) :
    List (RegisteredEventListener L) × EventTarget L :=
  (((s.find eventType).map EventListenerVector.listeners).getD [],
    s.report [EventTargetAccess self .readMemory eventType])

/-- `removeAllEventListeners`. Nothing is reported. -/
def removeAllEventListeners (s : EventTarget L) : EventTarget L :=
  match s.eventTargetData with
  | none => s
  | some d =>
    { s with
      eventTargetData := some
        ⟨d.eventListenerMap.clear, d.firingEventIterators.map FiringEventIterator.drain⟩ }

section

variable [DecidableEq L]

/-- `addEventListener`; `none` is the crash for want of memory. -/
def addEventListener (s : EventTarget L) (eventType : AtomicString)
    (r : RegisteredEventListener L) : Option (Bool × EventTarget L) :=
  let s := s.report
    [ActionLogScopeStart "addEventListener".toList, EventTargetAccess self .writeMemory eventType,
      ActionLogFormat .memoryValue
        ("Event[".toList ++ pointerText r.listener.address ++ "]".toList)]
  let s := s.attachEvent self eventType
  let d := s.eventTargetData.getD .init
  (d.eventListenerMap.add eventType r).map fun result =>
    (result.1, ({ s with eventTargetData := some { d with eventListenerMap := result.2 } } :
      EventTarget L).report [ActionLogScopeEnd])

/-- `removeEventListener`. -/
def removeEventListener (s : EventTarget L) (eventType : AtomicString)
    (r : RegisteredEventListener L) : Bool × EventTarget L :=
  let s := s.detachEvents self
  match s.eventTargetData with
  | none => (false, s)
  | some d =>
    let s := s.report
      [ActionLogScopeStart "removeEventListener".toList,
        EventTargetAccess self .writeMemory eventType,
        ActionLogFormat .memoryValue "undefined".toList]
    let result := d.eventListenerMap.remove eventType r
    match result.1 with
    | none =>
      (false, ({ s with eventTargetData := some { d with eventListenerMap := result.2 } } :
        EventTarget L).report [ActionLogScopeEnd])
    | some index =>
      (true, ({ s with
          eventTargetData := some
            ⟨result.2, d.firingEventIterators.map fun f => f.notify eventType index⟩ } :
        EventTarget L).report [ActionLogScopeEnd])

variable (isAttribute : L → Bool)

/-- `getAttributeEventListener`: the first listener that an attribute has set. -/
def getAttributeEventListener (s : EventTarget L) (eventType : AtomicString) :
    Option (EventListener L) × EventTarget L :=
  let (entry, s) := s.getEventListeners self eventType
  ((entry.find? fun r => isAttribute r.listener.value).map RegisteredEventListener.listener, s)

/-- `clearAttributeEventListener`. -/
def clearAttributeEventListener (s : EventTarget L) (eventType : AtomicString) :
    Bool × EventTarget L :=
  match s.getAttributeEventListener self isAttribute eventType with
  | (none, s) => (false, s)
  | (some listener, s) => s.removeEventListener self eventType ⟨listener, false⟩

/-- `setAttributeEventListener`. -/
def setAttributeEventListener (s : EventTarget L) (eventType : AtomicString)
    (listener : Option (EventListener L)) : Option (Bool × EventTarget L) :=
  let s := (s.clearAttributeEventListener self isAttribute eventType).2
  match listener with
  | none => some (false, s)
  | some listener => s.addEventListener self eventType ⟨listener, false⟩

end

/-! ## Firing -/

/-- What `fire:%s @ %s` says of the phase. -/
def phaseText : EventPhase → StdString
  | .atTarget => "TARGET".toList
  | .capturingPhase => "CAPTURE".toList
  | _ => "BUBBLE".toList

/-- `fireEventListeners(event)` up to the head of the loop. Where the target has never had a
    listener not even the read is reported. -/
def fireEventListeners (s : EventTarget L) (event : FiredEvent) : EventTarget L :=
  match s.eventTargetData with
  | none => s
  | some d =>
    let s := s.report
      [ActionLogFormat .readMemory ("NodeTree:".toList ++ pointerText self.address),
        EventTargetAccess self .readMemory event.type]
    match d.eventListenerMap.find event.type with
    | none => s
    | some entry =>
      ({ s with
          eventTargetData := some { d with
            firingEventIterators :=
              ⟨event, 0, entry.listeners.length, entry.identity, false⟩ ::
                d.firingEventIterators } } : EventTarget L).report
        [ActionLogFormat .enterScope ("fire:".toList ++ asciiData event.type ++ " @ ".toList ++
          phaseText event.eventPhase)]

/-- How an iteration of the loop ends: with the call of a listener, with the next iteration, or
    with the end of the loop. -/
inductive LoopOutcome (L : Type) where
  | call (r : RegisteredEventListener L)
  | skip (r : RegisteredEventListener L)
  | finish
deriving DecidableEq

/-- `entry[i]`. The vector is the one that was found as long as its type has it; `none` is an
    access to what is not there any more. -/
def entryAt (d : EventTargetData L) (f : FiringEventIterator) :
    Option (RegisteredEventListener L) :=
  match d.eventListenerMap.find f.event.type with
  | none => none
  | some vector => if vector.identity = f.entry then vector.listeners[f.iterator]? else none

/-- The head of the loop of the last activation, up to a call. At its end the activation goes, and
    the scope that it is in. -/
def loop (s : EventTarget L) : Option (LoopOutcome L × EventTarget L) :=
  match s.eventTargetData with
  | none => none
  | some d =>
    match d.firingEventIterators with
    | [] => none
    | f :: fs =>
      let finished := ({ s with
        eventTargetData := some { d with firingEventIterators := fs } } : EventTarget L).report
          [ActionLogScopeEnd]
      if f.iterator < f.finish then
        (entryAt d f).map fun r =>
          if !f.event.concerns r then
            (.skip r, { s with
              eventTargetData := some { d with
                firingEventIterators := { f with iterator := sizeSucc f.iterator } :: fs } })
          else if f.event.identity ∈ s.immediatePropagationStopped then (.finish, finished)
          else
            (.call r, { s with
              eventTargetData := some { d with
                firingEventIterators := { f with handling := true } :: fs } })
      else some (.finish, finished)

/-- `handleEvent` of the last activation returns. -/
def handled (s : EventTarget L) : EventTarget L :=
  match s.eventTargetData with
  | none => s
  | some d =>
    match d.firingEventIterators with
    | [] => s
    | f :: fs =>
      { s with
        eventTargetData := some { d with
          firingEventIterators :=
            { f with iterator := sizeSucc f.iterator, handling := false } :: fs } }

/-! ## Runs -/

/-- A script may run: no activation is under way, or the last one has called a listener. -/
def scriptRuns (s : EventTarget L) : Bool :=
  match s.firing with
  | [] => true
  | f :: _ => f.handling

/-- What happens to a target. -/
inductive Label (L : Type) where
  | addEventListener (eventType : AtomicString) (r : RegisteredEventListener L)
  | removeEventListener (eventType : AtomicString) (r : RegisteredEventListener L)
  | setAttributeEventListener (eventType : AtomicString) (listener : Option (EventListener L))
  | removeAllEventListeners
  | fireEventListeners (event : FiredEvent)
  | stopImmediatePropagation (event : Nat)
  | loop (outcome : LoopOutcome L)
  | handled

variable [DecidableEq L] (isAttribute : L → Bool)

/-- One step; `none` is a step that cannot be taken, or a crash. -/
def step (s : EventTarget L) : Label L → Option (EventTarget L)
  | .addEventListener eventType r =>
    if s.scriptRuns then (s.addEventListener self eventType r).map Prod.snd else none
  | .removeEventListener eventType r =>
    if s.scriptRuns then some (s.removeEventListener self eventType r).2 else none
  | .setAttributeEventListener eventType listener =>
    if s.scriptRuns then
      (s.setAttributeEventListener self isAttribute eventType listener).map Prod.snd
    else none
  | .removeAllEventListeners => if s.scriptRuns then some s.removeAllEventListeners else none
  | .fireEventListeners event =>
    if s.scriptRuns then some (s.fireEventListeners self event) else none
  | .stopImmediatePropagation event =>
    if s.scriptRuns then
      some { s with immediatePropagationStopped := event :: s.immediatePropagationStopped }
    else none
  | .loop outcome =>
    if s.scriptRuns then none
    else s.loop.bind fun result => if result.1 = outcome then some result.2 else none
  | .handled => if s.firing ≠ [] ∧ s.scriptRuns then some s.handled else none

/-- The target as a system. At first it has no data. -/
def system : Lts (EventTarget L) (Label L) where
  init s := s.eventTargetData = none
  step s l s' := s.step self isAttribute l = some s'

end EventTarget

end R4
