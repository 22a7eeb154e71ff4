import R4.Native.Schedule

/-!
# The replay scheduler

`ReplayScheduler` (`R4/clients/Replay/replayscheduler.h`, `replayscheduler.cpp`): it runs
the event actions of a schedule file in order, waiting for each to become available. After
the second marker it may skip an event action that does not appear in time and keep it in
a backlog, and it may run a similar event action in its place (fuzzy matching).

The scheduler is generic in the rest of the program, `W`: the event action register, the
handlers it runs, the happens-before component and the warning collector, reached through
the operations of `ReplayEnv`. Only the scheduler sets the modes of the providers and the
descriptor string under which they look up values, so these are fields of its state and
are handed to the event action that runs.

`none` is the end of the process: `std::exit`, a failed assertion or a crash.
-/

namespace R4

open StdString

/-- `enum ReplayMode`. -/
inductive ReplayMode where
  | strict
  | bestEffort
  | bestEffortNond
  | stop
deriving DecidableEq, Repr

/-- `enum ReplaySchedulerState`. -/
inductive ReplaySchedulerState where
  | running
  | timeout
  | finished
  | error
deriving DecidableEq, Repr

/-- The part of a time or random provider that the scheduler writes. -/
structure ProviderControl where
  mode : ReplayMode
  currentDescriptorString : Option StdString
deriving DecidableEq, Repr

/-- The three providers, as far as the scheduler writes them. -/
structure Providers where
  time : ProviderControl
  random : ProviderControl
  networkMode : ReplayMode
deriving DecidableEq, Repr

namespace Providers

/-- `setCurrentDescriptorString` on both providers. -/
def setCurrentDescriptorString (p : Providers) (ident : StdString) : Providers :=
  { p with
    time := { p.time with currentDescriptorString := some ident }
    random := { p.random with currentDescriptorString := some ident } }

/-- `unsetCurrentDescriptorString` on both providers. -/
def unsetCurrentDescriptorString (p : Providers) : Providers :=
  { p with
    time := { p.time with currentDescriptorString := none }
    random := { p.random with currentDescriptorString := none } }

/-- `setMode` on all three. -/
def setMode (p : Providers) (mode : ReplayMode) : Providers :=
  { time := { p.time with mode := mode }
    random := { p.random with mode := mode }
    networkMode := mode }

end Providers

/-- A schedule item. `pos` is its position in the schedule file, which the source does not
    store: it gives two equal lines of the file different identities. -/
structure ReplayItem where
  pos : Nat
  id : EventActionId
  descriptor : EventActionDescriptor
deriving DecidableEq

/-- What the scheduler calls in the rest of the program. -/
structure ReplayEnv (W : Type) where
  runEventAction : Providers → EventActionId → EventActionId → EventActionDescriptor → W →
    Option (Bool × W)
  getWaitingNames : W → List StdString
  translateOldIdToNew : W → EventActionId → EventActionId
  debugPrintNames : W → StdString
  hbAllocateEventActionId : W → EventActionId × W
  actionLogStrictMode : Bool → W → W
  warningCollectorSetCurrentEventAction : EventActionId → W → W
  warningCollectorReport : StdString → StdString → StdString → W → W
  /-- `FuzzyUrlMatcher(QUrl(url)).score(QUrl(other))`, at most `UINT_MAX`. -/
  score : StdString → StdString → Nat

/-- The scheduler. `schedule` is `m_schedule` read from its back: the source reverses the
    file and takes `last()`, so the head of this list is the next item. `consumed` is not
    stored by the source: it collects the items in the order in which they left. -/
structure ReplayScheduler (W : Type) where
  world : W
  schedule : List ReplayItem
  scheduleBacklog : List ReplayItem
  consumed : List ReplayItem
  providers : Providers
  mode : ReplayMode
  state : ReplaySchedulerState
  doneEmitted : Bool
  sigDoneCount : Nat
  timeoutTimerActive : Bool
  timeoutTimerInterval : Int32
  skipAfterNextTry : Bool
  timeoutMiliseconds : UInt32
  nextEventActionId : EventActionId

namespace ReplayScheduler

variable {W : Type}

/-- `m_timeout_aggressive_miliseconds`. -/
def timeoutAggressiveMiliseconds : UInt32 := 500

/-- `QString::toULong()`: surrounding white space is ignored, and text that is not a number
    or does not fit is 0. -/
def toULong (s : StdString) : Nat :=
  let body := ((s.dropWhile Char.isWhitespace).reverse.dropWhile Char.isWhitespace).reverse
  -- one sign is accepted, a minus sign is not
  let digits := match body with
    | '+' :: rest => rest
    | rest => rest
  if digits ≠ [] ∧ digits.all Char.isDigit ∧ atoiDigits digits ≤ ulongMax then atoiDigits digits
  else 0

/-- The constructor, on the items of the schedule file. -/
def init (env : ReplayEnv W) (items : List EventActionScheduleItem) (schedulerTimeout : Int32)
    (w : W) : ReplayScheduler W :=
  -- an id is allocated ahead of the first event action
  let (id, w) := env.hbAllocateEventActionId w
  { world := w
    -- `zipIdx` numbers the lines of the file
    schedule := items.zipIdx.map fun e => ⟨e.2, e.1.1, e.1.2⟩
    scheduleBacklog := []
    consumed := []
    providers := ⟨⟨.strict, none⟩, ⟨.strict, none⟩, .strict⟩
    mode := .strict
    state := .running
    doneEmitted := false
    sigDoneCount := 0
    timeoutTimerActive := false
    timeoutTimerInterval := schedulerTimeout
    skipAfterNextTry := false
    timeoutMiliseconds := schedulerTimeout.toUInt32
    nextEventActionId := id }

/-! ## Stopping -/

/-- `WarningCollectorReport("WEBERA_SCHEDULER", ...)`. -/
def report (env : ReplayEnv W) (description : String) (details : StdString)
    (s : ReplayScheduler W) : ReplayScheduler W :=
  { s with
    world :=
      env.warningCollectorReport "WEBERA_SCHEDULER".toList description.toList details s.world }

/-- `stop()`. -/
def stop (s : ReplayScheduler W) : ReplayScheduler W :=
  if s.doneEmitted then s
  else
    { s with
      doneEmitted := true
      providers := s.providers.setMode .stop
      mode := .stop
      sigDoneCount := s.sigDoneCount + 1 }

/-- `stop(state)`. -/
def stopState (state : ReplaySchedulerState) (s : ReplayScheduler W) : ReplayScheduler W :=
  if s.doneEmitted then s else ({ s with state := state }).stop

/-- `stop(state, eventActionRegister)`: a finished replay reports what is still waiting. -/
def stopRegister (env : ReplayEnv W) (state : ReplaySchedulerState) (s : ReplayScheduler W) :
    ReplayScheduler W :=
  if s.doneEmitted then s
  else
    let s := { s with state := state }
    let s :=
      -- what never ran in the replay, in the order of the names
      if state = .finished then
        (env.getWaitingNames s.world).foldl
          (fun s name => s.report env "Non-executed event action." name) s
      else s
    s.stop

/-- `debugPrintTimers`. -/
def debugPrintTimers (env : ReplayEnv W) (s : ReplayScheduler W) : StdString :=
  let next := match s.schedule with
    | item :: _ => item.descriptor.toString
    | [] => []
  "=========== TIMERS ===========\n".toList
    ++ "RELAXED MODE: ".toList ++ (if s.mode = .bestEffort then "Yes\n".toList else "No\n".toList)
    ++ "NEXT -> ".toList ++ next ++ "\nQUEUE -> \n".toList
    ++ env.debugPrintNames s.world

/-! ## Fuzzy matching -/

/-- The types of event action that are fuzzy matched. -/
def isFuzzyType (type : StdString) : Bool :=
  type == "Network".toList || type == "HTMLDocumentParser".toList || type == "DOMTimer".toList
    || type == "BrowserLoadUrl".toList || type == "ScriptRunner".toList

/-- Whether parameter `i` of an event action of this type is read as a sequence number. -/
def hasSequenceNumber (type : StdString) : Nat → Bool
  | 1 => type == "Network".toList || type == "DOMTimer".toList
      || type == "HTMLDocumentParser".toList || type == "ScriptRunner".toList
  | 2 => type == "Network".toList || type == "DOMTimer".toList || type == "ScriptRunner".toList
  | 3 => type == "DOMTimer".toList
  | 4 => type == "DOMTimer".toList
  | 5 => type == "DOMTimer".toList
  | _ => false

/-- `sequenceNumber1` .. `sequenceNumber5`: parameter `i`, or 0 where the type has none. -/
def sequenceNumber (type : StdString) (d : EventActionDescriptor) (i : Nat) : Option Nat :=
  if hasSequenceNumber type i then (d.getParameter i).map toULong else some 0

/-- What fuzzy matching reads of a descriptor: its URL and its sequence numbers. -/
structure FuzzyKey where
  url : StdString
  number1 : Nat
  number2 : Nat
  number3 : Nat
  number4 : Nat
  number5 : Nat

/-- The parameters of `d`, read as those of an event action of the given type. -/
def fuzzyKey (type : StdString) (d : EventActionDescriptor) : Option FuzzyKey := do
  let url ← d.getParameter 0
  let number1 ← sequenceNumber type d 1
  let number2 ← sequenceNumber type d 2
  let number3 ← sequenceNumber type d 3
  let number4 ← sequenceNumber type d 4
  let number5 ← sequenceNumber type d 5
  return ⟨url, number1, number2, number3, number4, number5⟩

/-- The score of one waiting descriptor, 0 if it is not a candidate. -/
def candidateScore (env : ReplayEnv W) (type : StdString) (next : FuzzyKey)
    (candidate : EventActionDescriptor) : Option Nat :=
  if candidate.type ≠ type then some 0
  else
    (fuzzyKey type candidate).map fun key =>
      if key.number1 ≠ next.number1 ∨ key.number2 ≠ next.number2 ∨ key.number3 ≠ next.number3
          ∨ key.number5 ≠ next.number5 then 0
      else
        -- an `unsigned int`: half of its range is kept for the parent id
        let score := env.score next.url key.url
        -- the parent id of a DOMTimer is preferred, not required
        if next.number4 ≠ 0 then
          score / 2 + (if next.number4 = key.number4 then (2 ^ 32 - 1) / 2 else 0)
        else score

/-- The loop over the waiting names: the first of the best candidates and its score. -/
def bestCandidate (env : ReplayEnv W) (type : StdString) (next : FuzzyKey) :
    List StdString → Nat → EventActionDescriptor → Option (Nat × EventActionDescriptor)
  | [], bestScore, bestDescriptor => some (bestScore, bestDescriptor)
  | name :: names, bestScore, bestDescriptor => do
    let candidate ← EventActionDescriptor.deserialize name
    let score ← candidateScore env type next candidate
    -- of candidates with the same score the first is taken
    if score > bestScore then bestCandidate env type next names score candidate
    else bestCandidate env type next names bestScore bestDescriptor

/-! ## Running one item -/

/-- `runEventAction` under the descriptor string that the providers log and look up under. -/
def runUnder (env : ReplayEnv W) (originalId : EventActionId) (d : EventActionDescriptor)
    (s : ReplayScheduler W) : Option (Bool × ReplayScheduler W) := do
  let providers := s.providers.setCurrentDescriptorString d.toUnpatchedString
  let (found, w) ← env.runEventAction providers s.nextEventActionId originalId d s.world
  return (found, { s with world := w, providers := providers.unsetCurrentDescriptorString })

/-- A marker: the first ends `STRICT`, every later one enters `BEST_EFFORT`. -/
def marker (s : ReplayScheduler W) : ReplayScheduler W :=
  if s.mode = .strict then
    { s with providers := s.providers.setMode .bestEffortNond, mode := .bestEffortNond }
  else
    -- from the second marker on the waiting times are short
    { s with
      providers := s.providers.setMode .bestEffort
      mode := .bestEffort
      timeoutTimerInterval := timeoutAggressiveMiliseconds.toInt32 }

/-- The patch of a `DOMTimer` descriptor, which names its parent event action by id. -/
def patchDescriptor (env : ReplayEnv W) (d : EventActionDescriptor) (w : W) :
    Option EventActionDescriptor :=
  if d.type = "DOMTimer".toList ∧ d.isPatched = false then do
    -- the last parameter but one of a timer is the id of its parent
    let oldId ← d.getParameter 4
    d.patchParameter 4 (decimalInt (env.translateOldIdToNew w (atoi oldId)))
  else some d

/-- The fuzzy stage of `tryExecuteEventActionDescriptor`. -/
def tryFuzzy (env : ReplayEnv W) (originalId : EventActionId) (d : EventActionDescriptor)
    (s : ReplayScheduler W) : Option (Bool × ReplayScheduler W) := do
  let key ← fuzzyKey d.type d
  let (bestScore, best) ← bestCandidate env d.type key (env.getWaitingNames s.world) 0 .null
  if bestScore > 0 then
    let details := d.toString ++ " (expected) fuzzy matched with ".toList ++ best.toString
      ++ " (score ".toList ++ decimal bestScore ++ ")This is the current queue of events\n".toList
      ++ s.debugPrintTimers env
    -- the candidate runs under the id of the item it stands in for
    (s.report env "Event action fuzzy matched in best effort mode." details).runUnder env originalId
      best
  else return (false, s)

/-- Whether an event action that was not found is fuzzy matched: only just before giving up. -/
def fuzzyStage (env : ReplayEnv W) (originalId : EventActionId) (d : EventActionDescriptor)
    (found : Bool) (s : ReplayScheduler W) : Option (Bool × ReplayScheduler W) :=
  if found = false ∧ s.skipAfterNextTry ∧ s.mode = .bestEffort ∧ isFuzzyType d.type then
    s.tryFuzzy env originalId d
  else some (found, s)

/-- The exact attempt on a descriptor that has been patched, and the fuzzy one after it. -/
def tryDescriptor (env : ReplayEnv W) (originalId : EventActionId) (d : EventActionDescriptor)
    (s : ReplayScheduler W) : Option (Bool × ReplayScheduler W) := do
  let (found, s) ← s.runUnder env originalId d
  let (found, s) ← s.fuzzyStage env originalId d found
  if found then
    -- the id has been used: the next event action gets another one
    let (id, w) := env.hbAllocateEventActionId s.world
    return (true, { s with world := w, nextEventActionId := id })
  else return (false, s)

/-- `tryExecuteEventActionDescriptor`. The source patches the item where it is stored:
    `inPlace` writes it back there. -/
def tryExecuteEventActionDescriptor (env : ReplayEnv W)
    (inPlace : ReplayItem → ReplayScheduler W → ReplayScheduler W) (next : ReplayItem)
    (s : ReplayScheduler W) : Option (Bool × ReplayItem × ReplayScheduler W) :=
  -- a marker takes its turn like an event action that has run
  if next.descriptor.isNull then some (true, next, s.marker)
  else do
    let s := { s with
      world := env.warningCollectorSetCurrentEventAction s.nextEventActionId s.world }
    let d ← patchDescriptor env next.descriptor s.world
    let next := { next with descriptor := d }
    let (found, s) ← (inPlace next s).tryDescriptor env next.id d
    return (found, next, s)

/-! ## One step of the driver loop -/

/-- The loop over the backlog. `done` are the items that were tried already. -/
def tryBacklog (env : ReplayEnv W) :
    List ReplayItem → List ReplayItem → ReplayScheduler W → Option (Bool × ReplayScheduler W)
  | _, [], s => some (false, s)
  | done, item :: rest, s => do
    -- an item that runs late may ask for arcs that go backwards
    let s := { s with world := env.actionLogStrictMode false s.world }
    let (success, item, s) ← s.tryExecuteEventActionDescriptor env
      (fun item s => { s with scheduleBacklog := done ++ item :: rest }) item
    let s := { s with world := env.actionLogStrictMode true s.world }
    if success then
      let s := { s with scheduleBacklog := done ++ rest, consumed := s.consumed ++ [item] }
      return (true, s.report env "Event action executed from pending schedule." [])
    else tryBacklog env (done ++ [item]) rest s

/-- The time that the next item may take, as the `int` that `QTimer::setInterval` gets. -/
def timeoutInterval (d : EventActionDescriptor) (s : ReplayScheduler W) : Option Int32 :=
  -- a timer is given the time after which it is to fire; the sum is an `unsigned long`
  if d.type = "DOMTimer".toList then
    (d.getParameter 2).map fun p => Int32.ofNat (toULong p + timeoutAggressiveMiliseconds.toNat)
  else some (if s.mode = .bestEffort then timeoutAggressiveMiliseconds.toInt32
    else s.timeoutMiliseconds.toInt32)

/-- The attempt on the next item of the schedule: run it, skip it into the backlog, or wait
    for it. -/
def tryHead (env : ReplayEnv W) (item : ReplayItem) (rest : List ReplayItem)
    (s : ReplayScheduler W) : Option (Bool × ReplayScheduler W) := do
  let (success, item, s) ← s.tryExecuteEventActionDescriptor env
    (fun item s => { s with schedule := item :: rest }) item
  if success then
    return (true, { s with
      schedule := rest
      consumed := s.consumed ++ [item]
      skipAfterNextTry := false
      timeoutTimerActive := false })
  -- this goes on until an event action runs, which resets the flag
  else if s.skipAfterNextTry then
    let s := s.report env "Event action skipped after timeout."
      ("This is the current queue of events\n".toList ++ s.debugPrintTimers env)
    return (true, { s with scheduleBacklog := s.scheduleBacklog ++ [item], schedule := rest })
  -- the timer has been started for this item already
  else if s.timeoutTimerActive then return (false, s)
  else do
    let interval ← s.timeoutInterval item.descriptor
    return (false, { s with timeoutTimerActive := true, timeoutTimerInterval := interval })

/-- `executeDelayedEventAction`. -/
def executeDelayedEventAction (env : ReplayEnv W) (s : ReplayScheduler W) :
    Option (Bool × ReplayScheduler W) :=
  match s.schedule with
  -- what is left in the backlog never runs
  | [] => some (false, s.stopRegister env .finished)
  | item :: rest =>
    if s.mode = .stop then some (false, s.stopRegister env .finished)
    else do
      let (success, s) ← tryBacklog env [] s.scheduleBacklog s
      if success then return (true, s)
      else s.tryHead env item rest

/-- The loop of `eventActionScheduled` and of `executeDelayedEventActions`, after at most so many
    rounds, and whether it is still going on. -/
def executeDelayedEventActions (env : ReplayEnv W) :
    Nat → ReplayScheduler W → Option (Bool × ReplayScheduler W)
  | 0, s => some (true, s)
  | rounds + 1, s => do
    let (more, s) ← s.executeDelayedEventAction env
    if more then executeDelayedEventActions env rounds s else return (false, s)

/-- `eventActionScheduled`. The descriptor that has been registered is not looked at. -/
def eventActionScheduled (env : ReplayEnv W) (_descriptor : EventActionDescriptor) (rounds : Nat)
    (s : ReplayScheduler W) : Option (Bool × ReplayScheduler W) :=
  s.executeDelayedEventActions env rounds

/-! ## Timeouts -/

/-- `slEventActionTimeout`, the slot of the single-shot timer. -/
def slEventActionTimeout (env : ReplayEnv W) (s : ReplayScheduler W) :
    Option (ReplayScheduler W) :=
  let s := { s with timeoutTimerActive := false }
  match s.schedule with
  | [] => some s
  | _ :: _ =>
    match s.mode with
    -- `std::exit(1)`: a strict replay does not go on
    | .strict => none
    | .bestEffortNond =>
      let details := "Error: Failed execution schedule after waiting for ".toList
        ++ decimal s.timeoutMiliseconds.toNat
        ++ " miliseconds...\nThis is the current queue of events\n".toList ++ s.debugPrintTimers env
      some ((s.report env "Could not replay schedule while in non-deterministic relax mode"
        details).stopState .error)
    -- one more attempt, with a fuzzy match, and then the item is skipped
    | .bestEffort => some { s with skipAfterNextTry := true }
    | .stop => some s

/-- `timeout`, the global one. -/
def timeout (env : ReplayEnv W) (s : ReplayScheduler W) : ReplayScheduler W :=
  (s.report env "Scheduler timed out." []).stopState .timeout

end ReplayScheduler

end R4
