import R4.Native.Descriptor

/-!
# The record scheduler

`SpecificationScheduler` (`R4/clients/Record/specificationscheduler.h`,
`specificationscheduler.cpp`): the scheduler of a recording. Parsing goes first, then the
network, then the rest; once an event of a network sequence has run, the events of that
sequence run before anything else until the sequence is done.

The scheduler calls `runEventAction`, and a handler may deregister event actions, which
calls back into the scheduler. `RecordEnv.runEventAction` therefore acts on the scheduler
and on the rest of the program, `W`, together. `none` is the end of the process.
-/

namespace R4

open StdString

/-- The scheduler. `activeNetworkEvents` is a `std::set`, without repetitions. -/
structure SpecificationScheduler where
  activeNetworkEvents : List StdString
  activeNetworkQueue : List EventActionDescriptor
  parsingQueue : List EventActionDescriptor
  networkQueue : List EventActionDescriptor
  otherQueue : List EventActionDescriptor
  stopped : Bool

/-- What the scheduler calls in the rest of the program. -/
structure RecordEnv (W : Type) where
  runEventAction : EventActionDescriptor → SpecificationScheduler × W →
    Option (Bool × (SpecificationScheduler × W))
  doneCounter : W → UInt32

namespace SpecificationScheduler

/-- The constructor. -/
def init : SpecificationScheduler := ⟨[], [], [], [], [], false⟩

/-- `getNetworkSequenceId`: `url,url-sequence-number`. -/
def getNetworkSequenceId (descriptor : EventActionDescriptor) : Option StdString := do
  let url ← descriptor.getParameter 0
  let number ← descriptor.getParameter 1
  return url ++ ',' :: number

/-- `eventActionScheduled`. -/
def eventActionScheduled (s : SpecificationScheduler) (descriptor : EventActionDescriptor) :
    Option SpecificationScheduler :=
  if descriptor.type = "HTMLDocumentParser".toList then
    some { s with parsingQueue := s.parsingQueue ++ [descriptor] }
  else if descriptor.type = "Network".toList then
    (getNetworkSequenceId descriptor).map fun networkSeqId =>
      if networkSeqId ∈ s.activeNetworkEvents then
        { s with activeNetworkQueue := s.activeNetworkQueue ++ [descriptor] }
      else { s with networkQueue := s.networkQueue ++ [descriptor] }
  else some { s with otherQueue := s.otherQueue ++ [descriptor] }

/-- `dequeueSpecificElement`. -/
def dequeueSpecificElement (descriptor : EventActionDescriptor)
    (queue : List EventActionDescriptor) : List EventActionDescriptor :=
  queue.filter fun e => !e.equals descriptor

/-- `eventActionDescheduled`. The network branch compares the type with `"NETWORK"`. -/
def eventActionDescheduled (s : SpecificationScheduler) (descriptor : EventActionDescriptor) :
    Option SpecificationScheduler :=
  if descriptor.type = "HTMLDocumentParser".toList then
    some { s with parsingQueue := dequeueSpecificElement descriptor s.parsingQueue }
  else if descriptor.type = "NETWORK".toList then
    (getNetworkSequenceId descriptor).map fun networkSeqId =>
      if networkSeqId ∈ s.activeNetworkEvents then
        { s with activeNetworkQueue := dequeueSpecificElement descriptor s.activeNetworkQueue }
      else { s with networkQueue := dequeueSpecificElement descriptor s.networkQueue }
  else some { s with otherQueue := dequeueSpecificElement descriptor s.otherQueue }

/-- `strtoul(descriptor.getParameter(2).c_str(), NULL, 0) == ULONG_MAX`. -/
def isLastInSequence (descriptor : EventActionDescriptor) : Option Bool :=
  (descriptor.getParameter 2).map fun p => strtoul p == ulongMax

/-- `std::queue::pop`; on an empty queue it is undefined. -/
def popFront {α : Type} : List α → Option (List α)
  | [] => none
  | _ :: rest => some rest

/-- The split of the network queue when sequence `id` becomes active: its own events, and
    the rest. -/
def splitQueue (id : StdString) : List EventActionDescriptor →
    Option (List EventActionDescriptor × List EventActionDescriptor)
  | [] => some ([], [])
  | existingEvent :: currentQueue => do
    let existingEventId ← getNetworkSequenceId existingEvent
    let (own, others) ← splitQueue id currentQueue
    if id = existingEventId then return (existingEvent :: own, others)
    else return (own, existingEvent :: others)

variable {W : Type}

/-- The branch for an active sequence. -/
def executeActive (env : RecordEnv W) (descriptor : EventActionDescriptor)
    (s : SpecificationScheduler × W) : Option (Bool × (SpecificationScheduler × W)) := do
  let currentFinishedNetworkJobs := env.doneCounter s.2
  let (found, s, w) ← env.runEventAction descriptor s
  if found then
    let queue ← popFront s.activeNetworkQueue
    let s := { s with activeNetworkQueue := queue }
    let last ← isLastInSequence descriptor
    if last ∨ env.doneCounter w > currentFinishedNetworkJobs then
      -- this was the last element in the sequence, remove it from the active events
      let id ← getNetworkSequenceId descriptor
      return (false, { s with activeNetworkEvents := s.activeNetworkEvents.erase id }, w)
    else return (false, s, w)
  else return (false, s, w)

/-- The branch for the first event of a network sequence. -/
def executeNetwork (env : RecordEnv W) (descriptor : EventActionDescriptor)
    (s : SpecificationScheduler × W) : Option (Bool × (SpecificationScheduler × W)) := do
  let currentFinishedNetworkJobs := env.doneCounter s.2
  let (found, s, w) ← env.runEventAction descriptor s
  if found then
    let queue ← popFront s.networkQueue
    let s := { s with networkQueue := queue }
    let last ← isLastInSequence descriptor
    if last = false ∧ currentFinishedNetworkJobs = env.doneCounter w then
      -- this is not the last element in the sequence
      let id ← getNetworkSequenceId descriptor
      let (own, others) ← splitQueue id s.networkQueue
      return (true, { s with
        activeNetworkEvents :=
          if id ∈ s.activeNetworkEvents then s.activeNetworkEvents
          else s.activeNetworkEvents ++ [id]
        activeNetworkQueue := s.activeNetworkQueue ++ own
        networkQueue := others }, w)
    else return (true, s, w)
  else return (false, s, w)

/-- The branch for a parsing event. -/
def executeParsing (env : RecordEnv W) (descriptor : EventActionDescriptor)
    (s : SpecificationScheduler × W) : Option (Bool × (SpecificationScheduler × W)) := do
  let (found, s, w) ← env.runEventAction descriptor s
  if found then
    let queue ← popFront s.parsingQueue
    return (true, { s with parsingQueue := queue }, w)
  else return (false, s, w)

/-- The branch for any other event. -/
def executeOther (env : RecordEnv W) (descriptor : EventActionDescriptor)
    (s : SpecificationScheduler × W) : Option (Bool × (SpecificationScheduler × W)) := do
  let (found, s, w) ← env.runEventAction descriptor s
  if found then
    let queue ← popFront s.otherQueue
    return (true, { s with otherQueue := queue }, w)
  else return (false, s, w)

/-- `executeDelayedEventAction`. -/
def executeDelayedEventAction (env : RecordEnv W) (s : SpecificationScheduler × W) :
    Option (Bool × (SpecificationScheduler × W)) :=
  if s.1.stopped then some (false, s)
  else if s.1.activeNetworkEvents ≠ [] then
    match s.1.activeNetworkQueue with
    | [] => some (false, s)
    | descriptor :: _ => executeActive env descriptor s
  else
    match s.1.parsingQueue, s.1.networkQueue, s.1.otherQueue with
    | descriptor :: _, _, _ => executeParsing env descriptor s
    | [], descriptor :: _, _ => executeNetwork env descriptor s
    | [], [], descriptor :: _ => executeOther env descriptor s
    | [], [], [] => some (false, s)

end SpecificationScheduler

end R4
