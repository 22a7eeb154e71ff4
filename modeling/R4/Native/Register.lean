import Mathlib.Data.List.Sort
import R4.ForStd.QueueMap
import R4.Native.ActionLog
import R4.Native.Schedule

/-!
# The event action register

`WebCore::EventActionRegister` (`EventActionRegister.h`, `EventActionRegister.cpp`): the
event actions that are pending execution. A handler is registered for one descriptor and
runs once; a provider is offered every event action of a type before the handlers are.

A handler is a function pointer with an object. `O` stands for that pair, and
`Platform.call` for calling it: the handler may change the register it was taken from and
whatever else the program holds (`E`). `none` is the end of the process: a failed
assertion, a `CRASH()` or undefined behaviour.
-/

namespace R4

open StdString

/-- The register. `typeToProvider` is kept in the order in which a `std::map` is iterated,
    `currentDescriptors` in that of a `std::set`. -/
structure EventActionRegister (O : Type) where
  typeToProvider : List (StdString × List O)
  descriptorToHandler : QueueMap StdString O
  currentDescriptors : List StdString
  isDispatching : Bool
  dispatchHistory : List EventActionScheduleItem
  originalToNewEventActionIdMap : AList fun _ : EventActionId => EventActionId

/-- What the register calls outside itself: the happens-before component, the action log
    and the handlers. -/
structure Platform (O E : Type) where
  hbAllocateEventActionId : E → EventActionId × E
  hbEnterEventAction : EventActionId → ActionLogType → E → Option E
  hbExitEventAction : Bool → E → Option E
  actionLogEventTriggered : O → E → E
  call : O → EventActionDescriptor → EventActionRegister O × E →
    Option (Bool × (EventActionRegister O × E))

namespace EventActionRegister

variable {O E : Type}

/-- `EventActionRegister()`. -/
def empty : EventActionRegister O where
  typeToProvider := []
  descriptorToHandler := ∅
  currentDescriptors := []
  isDispatching := false
  dispatchHistory := []
  originalToNewEventActionIdMap := ∅

/-! ## Registration -/

/-- `m_typeToProvider[type].push_back(target)`. -/
def pushProvider (type : StdString) (target : O) :
    List (StdString × List O) → List (StdString × List O)
  | [] => [(type, [target])]
  | (t, l) :: rest =>
    if type = t then (t, l ++ [target]) :: rest
    else if type < t then (type, [target]) :: (t, l) :: rest
    else (t, l) :: pushProvider type target rest

/-- `registerEventActionProvider`. -/
def registerEventActionProvider (r : EventActionRegister O) (type : StdString) (target : O) :
    EventActionRegister O :=
  { r with typeToProvider := pushProvider type target r.typeToProvider }

/-- `registerEventActionHandler`. -/
def registerEventActionHandler (r : EventActionRegister O) (descriptor : EventActionDescriptor)
    (target : O) : EventActionRegister O :=
  let key := descriptor.toString
  { r with
    descriptorToHandler := r.descriptorToHandler.push key target
    currentDescriptors :=
      if key ∈ r.currentDescriptors then r.currentDescriptors
      else r.currentDescriptors.orderedInsert (· ≤ ·) key }

/-- `deregisterEventActionHandler`: every handler under the descriptor's string goes. -/
def deregisterEventActionHandler (r : EventActionRegister O) (descriptor : EventActionDescriptor) :
    EventActionRegister O :=
  let key := descriptor.toString
  { r with
    descriptorToHandler := r.descriptorToHandler.erase key
    currentDescriptors := r.currentDescriptors.erase key }

/-- The target is registered for the type. -/
def Registered (providers : List (StdString × List O)) (type : StdString) (o : O) : Prop :=
  ∃ targets, (type, targets) ∈ providers ∧ o ∈ targets

/-- Pushing a target registers it, and changes nothing else. -/
theorem registered_pushProvider_iff {providers : List (StdString × List O)}
    {type type' : StdString} {target o : O} :
    Registered (pushProvider type target providers) type' o ↔
      (type' = type ∧ o = target) ∨ Registered providers type' o := by
  induction providers with
  | nil => simp [pushProvider, Registered]
  | cons entry providers ih =>
    obtain ⟨t, l⟩ := entry
    -- a provider is in the first entry, or in the rest
    have hcons : ∀ {t : StdString} {l : List O} {rest : List (StdString × List O)},
        Registered ((t, l) :: rest) type' o ↔ (type' = t ∧ o ∈ l) ∨ Registered rest type' o := by
      intro t l rest
      simp only [Registered, List.mem_cons, Prod.mk.injEq, or_and_right, exists_or]
      exact or_congr_left (by simp)
    unfold pushProvider
    split
    · -- the type has providers already, and this is the last one
      rename_i heq
      subst heq
      rw [hcons, hcons, List.mem_append, List.mem_singleton, and_or_left, or_assoc, or_left_comm]
    · split
      · -- the type is new, and comes before this entry
        rw [hcons, List.mem_singleton]
      · -- the type comes later
        rw [hcons, hcons, ih, or_left_comm]

/-! ## Dispatching -/

/-- `toActionLogType`. -/
def toActionLogType : EventActionCategory → ActionLogType
  | .other => .unknown
  | .parsing => .unknown
  | .timer => .timer
  | .userInterface => .userInterface
  | .network => .network

/-- `currentEventActionDispatching`. -/
def currentEventActionDispatching (r : EventActionRegister O) : EventActionDescriptor :=
  if r.isDispatching then
    match r.dispatchHistory.getLast? with
    | some item => item.2
    | none => EventActionDescriptor.null
  else EventActionDescriptor.null

/-- `translateOldIdToNew`. -/
def translateOldIdToNew (r : EventActionRegister O) (oldId : EventActionId) : EventActionId :=
  (r.originalToNewEventActionIdMap.lookup oldId).getD oldId

/-- `eventActionDispatchStart`. `std::map::insert` keeps an entry that is there already. -/
def eventActionDispatchStart (r : EventActionRegister O) (id originalId : EventActionId)
    (descriptor : EventActionDescriptor) : EventActionRegister O :=
  { r with
    originalToNewEventActionIdMap :=
      match r.originalToNewEventActionIdMap.lookup originalId with
      | some _ => r.originalToNewEventActionIdMap
      | none => r.originalToNewEventActionIdMap.insert originalId id
    dispatchHistory := r.dispatchHistory ++ [(id, descriptor)]
    isDispatching := true }

/-- `eventActionDispatchEnd`. -/
def eventActionDispatchEnd (r : EventActionRegister O) (commit : Bool)
    (originalId : EventActionId) : EventActionRegister O :=
  -- what was entered stays entered
  if commit then { r with isDispatching := false }
  else
    { r with
      isDispatching := false
      -- the entry goes, also if it was there before the start
      originalToNewEventActionIdMap := r.originalToNewEventActionIdMap.erase originalId
      dispatchHistory := r.dispatchHistory.dropLast }

/-- The id of the next event action: the preallocated one, or a new one for `-1`. -/
def eventActionId (p : Platform O E) (newEventActionId : EventActionId) (env : E) :
    EventActionId × E :=
  if newEventActionId = -1 then p.hbAllocateEventActionId env else (newEventActionId, env)

/-- The two calls around every handler: the register and the happens-before component
    enter the event action. -/
def enterDispatch (p : Platform O E) (id originalId : EventActionId)
    (descriptor : EventActionDescriptor) (triggered : O) (r : EventActionRegister O) (env : E) :
    Option (EventActionRegister O × E) :=
  (p.hbEnterEventAction id (toActionLogType descriptor.category) env).map fun env =>
    (r.eventActionDispatchStart id originalId descriptor, p.actionLogEventTriggered triggered env)

/-- One provider is offered the event action. `first` is `l[0].object`, which the action
    log is given whichever provider runs. -/
def runProvider (p : Platform O E) (newEventActionId originalEventActionId : EventActionId)
    (descriptor : EventActionDescriptor) (first provider : O) (s : EventActionRegister O × E) :
    Option (Bool × (EventActionRegister O × E)) := do
  let (id, env) := eventActionId p newEventActionId s.2
  let s ← enterDispatch p id originalEventActionId descriptor first s.1 env
  -- the event action is entered before the provider decides
  let (found, r, env) ← p.call provider descriptor s
  let env ← p.hbExitEventAction found env
  return (found, r.eventActionDispatchEnd found originalEventActionId, env)

/-- The providers the source's outer loop visits: from the descriptor's type to the end of
    the map, each with the first provider of its own vector. -/
def providersFrom (r : EventActionRegister O) (type : StdString) : List (O × O) :=
  (r.typeToProvider.dropWhile fun e => e.1 ≠ type).flatMap fun e =>
    match e.2 with
    | [] => []
    | first :: rest => (first :: rest).map fun provider => (first, provider)

/-- The loop over the providers: it stops at the first that handles the event action. -/
def runProviders (p : Platform O E) (newEventActionId originalEventActionId : EventActionId)
    (descriptor : EventActionDescriptor) :
    List (O × O) → EventActionRegister O × E → Option (Bool × (EventActionRegister O × E))
  | [], s => some (false, s)
  | (first, provider) :: rest, s => do
    let (found, s) ←
      runProvider p newEventActionId originalEventActionId descriptor first provider s
    -- without a preallocated id the next one is entered under an id of its own
    if found then return (true, s)
    else runProviders p newEventActionId originalEventActionId descriptor rest s

/-- The cleanup of the lookup tables after a handler has run. The queue is popped as the
    handler left it; if the handler dropped it the source pops a destroyed one. -/
def popHandler (r : EventActionRegister O) (descriptorString : StdString) :
    Option (EventActionRegister O) :=
  match r.descriptorToHandler.lookup descriptorString with
  | none => none
  | some [] => none
  | some [_] => some { r with
      descriptorToHandler := r.descriptorToHandler.pop descriptorString
      currentDescriptors := r.currentDescriptors.erase descriptorString }
  | some (_ :: _ :: _) => some { r with
      descriptorToHandler := r.descriptorToHandler.pop descriptorString }

/-- A pop needs a handler, and changes nothing but the handlers and the descriptors in use. -/
theorem popHandler_frame {r r' : EventActionRegister O} {key : StdString}
    (h : r.popHandler key = some r') :
    r.descriptorToHandler.queue key ≠ [] ∧
      r' = { r with
        descriptorToHandler := r.descriptorToHandler.pop key
        currentDescriptors := r'.currentDescriptors } := by
  unfold popHandler at h
  split at h
  · simp at h
  · simp at h
  all_goals
    rename_i hl
    obtain rfl := Option.some.inj h
    refine ⟨?_, rfl⟩
    simp only [QueueMap.queue, hl, Option.getD_some]
    exact List.cons_ne_nil _ _

/-- A handler that is taken was the first of its queue. -/
theorem popHandler_eq_some {r r' : EventActionRegister O} {key : StdString}
    (h : r.popHandler key = some r') :
    r.descriptorToHandler.queue key ≠ [] ∧
      r'.descriptorToHandler = r.descriptorToHandler.pop key ∧
      r'.typeToProvider = r.typeToProvider := by
  obtain ⟨hne, heq⟩ := popHandler_frame h
  rw [heq]
  exact ⟨hne, rfl, rfl⟩

/-- The handler part of `runEventAction`. The handler is called while it is still at the
    front of its queue and popped afterwards. -/
def runHandler (p : Platform O E) (newEventActionId originalEventActionId : EventActionId)
    (descriptor : EventActionDescriptor) (s : EventActionRegister O × E) :
    Option (Bool × (EventActionRegister O × E)) :=
  match s.1.descriptorToHandler.lookup descriptor.toString with
  | none => some (false, s)
  | some [] => none
  -- the front stays in its queue while it runs
  | some (front :: _) => do
    let (id, env) := eventActionId p newEventActionId s.2
    let s ← enterDispatch p id originalEventActionId descriptor front s.1 env
    -- what the handler returns is asserted only: it counts as run
    let (_, r, env) ← p.call front descriptor s
    let r ← r.popHandler descriptor.toString
    let env ← p.hbExitEventAction true env
    return (true, r.eventActionDispatchEnd true originalEventActionId, env)

/-- `runEventAction(newEventActionId, originalEventActionId, descriptor)`. -/
def runEventAction (p : Platform O E) (newEventActionId originalEventActionId : EventActionId)
    (descriptor : EventActionDescriptor) (s : EventActionRegister O × E) :
    Option (Bool × (EventActionRegister O × E)) := do
  let (found, s) ← runProviders p newEventActionId originalEventActionId descriptor
    (s.1.providersFrom descriptor.type) s
  -- handlers are for what no provider has taken
  if found then return (true, s)
  else runHandler p newEventActionId originalEventActionId descriptor s

/-- What running a pending handler does. -/
theorem runHandler_eq_some {p : Platform O E} {newId originalId : EventActionId}
    {descriptor : EventActionDescriptor} {r r' : EventActionRegister O} {env env' : E}
    {found : Bool} {front : O} {rest : List O}
    (hq : r.descriptorToHandler.queue descriptor.toString = front :: rest)
    (h : runHandler p newId originalId descriptor (r, env) = some (found, r', env')) :
    found = true ∧ ∃ id env₀ env₁ done r₁ env₂ r₂,
      eventActionId p newId env = (id, env₀) ∧
      p.hbEnterEventAction id (toActionLogType descriptor.category) env₀ = some env₁ ∧
      p.call front descriptor (r.eventActionDispatchStart id originalId descriptor,
        p.actionLogEventTriggered front env₁) = some (done, r₁, env₂) ∧
      r₁.popHandler descriptor.toString = some r₂ ∧
      p.hbExitEventAction true env₂ = some env' ∧
      r' = r₂.eventActionDispatchEnd true originalId := by
  have hlookup := QueueMap.lookup_of_queue_ne_nil (m := r.descriptorToHandler)
    (k := descriptor.toString) (by rw [hq]; exact List.cons_ne_nil _ _)
  unfold runHandler at h
  dsimp only at h
  rw [hlookup, hq] at h
  simp only [Option.bind_eq_bind, Option.bind_eq_some_iff, enterDispatch,
    Option.map_eq_some_iff] at h
  obtain ⟨_, ⟨env₁, henter, rfl⟩, ⟨done, r₁, env₂⟩, hcall, r₂, hpop, env₃, hexit, h⟩ := h
  simp only [Option.pure_def, Option.some.injEq, Prod.mk.injEq] at h
  obtain ⟨rfl, rfl, rfl⟩ := h
  exact ⟨rfl, _, _, env₁, done, r₁, env₂, r₂, rfl, henter, hcall, hpop, hexit, rfl⟩

/-- Without providers the handler runs. -/
theorem runEventAction_of_noProviders {p : Platform O E} {newId originalId : EventActionId}
    {descriptor : EventActionDescriptor} {r : EventActionRegister O} {env : E}
    (h : r.typeToProvider = []) :
    runEventAction p newId originalId descriptor (r, env) =
      runHandler p newId originalId descriptor (r, env) := by
  have : r.providersFrom descriptor.type = [] := by rw [providersFrom, h]; rfl
  simp only [runEventAction, this, runProviders, Option.bind_eq_bind, Option.bind_some,
    Bool.false_eq_true, if_false]

/-! ## Immediate event actions -/

/-- `enterImmediateEventAction`. -/
def enterImmediateEventAction (p : Platform O E) (type : ActionLogType)
    (descriptor : EventActionDescriptor) (s : EventActionRegister O × E) :
    Option (EventActionRegister O × E) := do
  let (id, env) := p.hbAllocateEventActionId s.2
  let env ← p.hbEnterEventAction id type env
  -- there is no recorded id to translate
  return (s.1.eventActionDispatchStart id (-1) descriptor, env)

/-- `exitImmediateEventAction`. -/
def exitImmediateEventAction (p : Platform O E) (s : EventActionRegister O × E) :
    Option (EventActionRegister O × E) := do
  let env ← p.hbExitEventAction true s.2
  return (s.1.eventActionDispatchEnd true (-1), env)

/-! ## Inspection -/

/-- `getWaitingNames`. -/
def getWaitingNames (r : EventActionRegister O) : List StdString := r.currentDescriptors

/-- `debugPrintNames`. -/
def debugPrintNames (r : EventActionRegister O) : StdString :=
  let line (s : StdString) : StdString := s ++ ['\n']
  line "Handlers ::".toList
    ++ (r.descriptorToHandler.keys.insertionSort (· ≤ ·)).flatMap line
    ++ line "Providers ::".toList
    ++ (r.typeToProvider.map Prod.fst).flatMap line
    ++ line "--".toList

end EventActionRegister

end R4
