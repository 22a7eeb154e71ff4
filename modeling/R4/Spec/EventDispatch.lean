import R4.ForStd.List
import R4.Native.EventTarget

/-!
# Firing events at a target

What `fireEventListeners` is for: an event that is fired is dispatched to the listeners that are
registered then, one after the other, without those that are removed before it is their turn and
without those that come later. A dispatch knows what it has passed and what it still has to do,
as far as it is still registered.

The code does this with two indices into a vector that changes, for any number of dispatches that
are nested in each other, and while the vector is freed and made anew. It falls short of it in one
case: where a listener is removed that is still to come, while all that has been passed, the
running listener included, has been removed as well. The index has then wrapped around below zero,
where the removal takes it for an index behind the removed listener, and the dispatch is cut off.

## Key results

- `event_target_dispatches`: every run of a target is, step by step, a run of the dispatches
- `dispatches_are_complete`: no dispatch is cut off in a run in which no index has wrapped around
  when a listener in front of the end is removed
-/

namespace R4.EventDispatch

open EventTarget

variable {L : Type}

/-! ## What firing an event is for -/

/-- An event that is dispatched to the listeners of a target: those it found, those it called,
    and those it has passed and has yet to look at as far as they are registered. -/
structure Dispatch (L : Type) where
  event : FiredEvent
  found : List (RegisteredEventListener L)
  called : List (RegisteredEventListener L)
  passed : List (RegisteredEventListener L)
  todo : List (RegisteredEventListener L)
  running : Bool
  cut : Bool
deriving DecidableEq

/-- A registered listener is removed: the dispatch does not look at it any more. It is cut off
    when nothing is left of what it has passed. -/
def Dispatch.forget [DecidableEq L] (d : Dispatch L) (eventType : AtomicString) (key : L × Bool) :
    Dispatch L :=
  if eventType ≠ d.event.type then d
  else
    { d with
      passed := d.passed.eraseP fun r => r.key = key
      todo := d.todo.eraseP fun r => r.key = key
      cut := d.cut || (d.passed.isEmpty && d.running && d.todo.any fun r => r.key = key) }

/-- No listener is registered any more. -/
def Dispatch.forgetAll (d : Dispatch L) : Dispatch L :=
  { d with passed := [], todo := [], cut := false }

/-- The listeners of a target, however they are kept, and the dispatches that are under way, the
    last one first. -/
structure Dispatches (L : Type) where
  listeners : AtomicString → List (RegisteredEventListener L)
  dispatches : List (Dispatch L)
  immediatePropagationStopped : List Nat

namespace Dispatches

/-- A script may run. -/
def scriptRuns (a : Dispatches L) : Bool :=
  match a.dispatches with
  | [] => true
  | d :: _ => d.running

/-- The last dispatch goes on. -/
def loop (a : Dispatches L) : Option (LoopOutcome L × Dispatches L) :=
  match a.dispatches with
  | [] => none
  | d :: ds =>
    match d.todo with
    | [] => some (.finish, { a with dispatches := ds })
    | r :: todo =>
      if d.cut then some (.finish, { a with dispatches := ds })
      else if !d.event.concerns r then
        some (.skip r, { a with
          dispatches := { d with passed := d.passed ++ [r], todo := todo } :: ds })
      else if d.event.identity ∈ a.immediatePropagationStopped then
        some (.finish, { a with dispatches := ds })
      else
        some (.call r, { a with
          dispatches :=
            { d with
              called := d.called ++ [r], passed := d.passed ++ [r], todo := todo
              running := true } :: ds })

/-- The listener that the last dispatch has called returns. -/
def handled (a : Dispatches L) : Dispatches L :=
  match a.dispatches with
  | [] => a
  | d :: ds => { a with dispatches := { d with running := false } :: ds }

/-- An event is fired. -/
def fire (a : Dispatches L) (event : FiredEvent) : Dispatches L :=
  if a.listeners event.type = [] then a
  else
    { a with
      dispatches :=
        ⟨event, a.listeners event.type, [], [], a.listeners event.type, false, false⟩ ::
          a.dispatches }

/-- All listeners are removed. -/
def removeAll (a : Dispatches L) : Dispatches L :=
  { a with listeners := fun _ => [], dispatches := a.dispatches.map Dispatch.forgetAll }

variable [DecidableEq L]

/-- A listener is registered, unless it is. -/
def add (a : Dispatches L) (eventType : AtomicString) (r : RegisteredEventListener L) :
    Dispatches L :=
  if r.key ∈ (a.listeners eventType).map RegisteredEventListener.key then a
  else { a with listeners := Function.update a.listeners eventType (a.listeners eventType ++ [r]) }

/-- A listener is removed. -/
def remove (a : Dispatches L) (eventType : AtomicString) (r : RegisteredEventListener L) :
    Dispatches L :=
  { a with
    listeners :=
      Function.update a.listeners eventType
        ((a.listeners eventType).eraseP fun r' => r'.key = r.key)
    dispatches :=
      if r.key ∈ (a.listeners eventType).map RegisteredEventListener.key then
        a.dispatches.map fun d => d.forget eventType r.key
      else a.dispatches }

variable (isAttribute : L → Bool)

/-- The listener of an attribute is removed. -/
def clearAttribute (a : Dispatches L) (eventType : AtomicString) : Dispatches L :=
  match (a.listeners eventType).find? fun r => isAttribute r.listener.value with
  | none => a
  | some r => a.remove eventType ⟨r.listener, false⟩

/-- The listener of an attribute is replaced. -/
def setAttribute (a : Dispatches L) (eventType : AtomicString)
    (listener : Option (EventListener L)) : Dispatches L :=
  match listener with
  | none => a.clearAttribute isAttribute eventType
  | some listener => (a.clearAttribute isAttribute eventType).add eventType ⟨listener, false⟩

/-- One step. -/
def step (a : Dispatches L) : Label L → Option (Dispatches L)
  | .addEventListener eventType r => if a.scriptRuns then some (a.add eventType r) else none
  | .removeEventListener eventType r =>
    if a.scriptRuns then some (a.remove eventType r) else none
  | .setAttributeEventListener eventType listener =>
    if a.scriptRuns then some (a.setAttribute isAttribute eventType listener) else none
  | .removeAllEventListeners => if a.scriptRuns then some a.removeAll else none
  | .fireEventListeners event => if a.scriptRuns then some (a.fire event) else none
  | .stopImmediatePropagation event =>
    if a.scriptRuns then
      some { a with immediatePropagationStopped := event :: a.immediatePropagationStopped }
    else none
  | .loop outcome =>
    if a.scriptRuns then none
    else a.loop.bind fun result => if result.1 = outcome then some result.2 else none
  | .handled => if a.dispatches ≠ [] ∧ a.scriptRuns then some a.handled else none

/-- The dispatches as a system. At first nothing is registered. -/
def system : Lts (Dispatches L) (Label L) where
  init a := (∀ eventType, a.listeners eventType = []) ∧ a.dispatches = []
  step a l a' := a.step isAttribute l = some a'

end Dispatches

/-! ## What the operations of a target do -/

/-- The identity of the next vector. -/
def vectorsMade (s : EventTarget L) : Nat :=
  match s.eventTargetData with
  | some d => d.eventListenerMap.vectorsMade
  | none => 0

/-- What the operations of a target work on, without the logs. -/
structure Shows (s : EventTarget L) (find : AtomicString → Option (EventListenerVector L))
    (made : Nat) (firing : List FiringEventIterator) (stopped : List Nat) : Prop where
  find : ∀ t, s.find t = find t
  made : vectorsMade s = made
  firing : s.firing = firing
  stopped : s.immediatePropagationStopped = stopped

/-- A target shows what it holds. -/
theorem shows_self (s : EventTarget L) :
    Shows s s.find (vectorsMade s) s.firing s.immediatePropagationStopped :=
  ⟨fun _ => rfl, rfl, rfl, rfl⟩

/-- The logs do not matter. -/
theorem Shows.congr {s s' : EventTarget L} {find : AtomicString → Option (EventListenerVector L)}
    {made : Nat} {firing : List FiringEventIterator} {stopped : List Nat}
    (h : Shows s find made firing stopped) (hdata : s'.eventTargetData = s.eventTargetData)
    (hstopped : s'.immediatePropagationStopped = s.immediatePropagationStopped) :
    Shows s' find made firing stopped where
  find t := by rw [← h.find t, EventTarget.find, EventTarget.find, hdata]
  made := by rw [← h.made, vectorsMade, vectorsMade, hdata]
  firing := by rw [← h.firing, EventTarget.firing, EventTarget.firing, hdata]
  stopped := hstopped.trans h.stopped

/-- Reports leave the listeners and activations as they are. -/
@[simp] theorem eventTargetData_report (s : EventTarget L) (commands : List LogReport) :
    (s.report commands).eventTargetData = s.eventTargetData := rfl

/-- They stop no dispatch. -/
@[simp] theorem stopped_report (s : EventTarget L) (commands : List LogReport) :
    (s.report commands).immediatePropagationStopped = s.immediatePropagationStopped := rfl

/-- Attaching an event reports only. -/
@[simp] theorem eventTargetData_attachEvent (self : EventTargetObject) (s : EventTarget L)
    (t : AtomicString) : (s.attachEvent self t).eventTargetData = s.eventTargetData := by
  rw [attachEvent]
  split <;> rfl

/-- It stops no dispatch. -/
@[simp] theorem stopped_attachEvent (self : EventTargetObject) (s : EventTarget L)
    (t : AtomicString) :
    (s.attachEvent self t).immediatePropagationStopped = s.immediatePropagationStopped := by
  rw [attachEvent]
  split <;> rfl

/-- Detaching the events reports only. -/
@[simp] theorem eventTargetData_detachEvents (self : EventTargetObject) (s : EventTarget L) :
    (s.detachEvents self).eventTargetData = s.eventTargetData := by
  rw [detachEvents]
  split <;> rfl

/-- It stops no dispatch. -/
@[simp] theorem stopped_detachEvents (self : EventTargetObject) (s : EventTarget L) :
    (s.detachEvents self).immediatePropagationStopped = s.immediatePropagationStopped := by
  rw [detachEvents]
  split <;> rfl

/-- All vectors are dropped, and the activations are drained. -/
theorem shows_removeAllEventListeners (s : EventTarget L) :
    Shows s.removeAllEventListeners (fun _ => none) (vectorsMade s)
      (s.firing.map FiringEventIterator.drain) s.immediatePropagationStopped := by
  cases hd : s.eventTargetData <;>
    constructor <;> simp [removeAllEventListeners, EventTarget.find, vectorsMade, firing, hd]

/-- A dispatch that begins is a new activation on the vector of its type, if there is one. -/
theorem shows_fireEventListeners (self : EventTargetObject) (s : EventTarget L)
    (event : FiredEvent) :
    Shows (s.fireEventListeners self event) s.find (vectorsMade s)
      ((s.find event.type).elim s.firing fun entry =>
        ⟨event, 0, entry.listeners.length, entry.identity, false⟩ :: s.firing)
      s.immediatePropagationStopped := by
  cases hd : s.eventTargetData with
  | none =>
    rw [fireEventListeners, hd]
    refine ⟨fun _ => rfl, rfl, ?_, rfl⟩
    simp [EventTarget.find, hd]
  | some d =>
    cases hfind : d.eventListenerMap.find event.type <;>
      constructor <;>
      simp [fireEventListeners, EventTarget.find, vectorsMade, firing, report, hd, hfind]

section

variable [DecidableEq L]

/-- The listener is in the vector of its type, which is made if there is none. The activations stay.
    -/
theorem shows_addEventListener {self : EventTargetObject} {s s' : EventTarget L}
    {t : AtomicString} {r : RegisteredEventListener L} {added : Bool}
    (h : s.addEventListener self t r = some (added, s')) :
    ∃ vector, EventListenerMap.addListenerToVector
        ((s.find t).getD ⟨vectorsMade s, []⟩) r = some (added, vector) ∧
      Shows s' (fun t' => if t' = t then some vector else s.find t')
        (if (s.find t).isSome then vectorsMade s else vectorsMade s + 1) s.firing
        s.immediatePropagationStopped := by
  rw [addEventListener, Option.map_eq_some_iff] at h
  obtain ⟨⟨added', map⟩, hadd, heq⟩ := h
  obtain ⟨rfl, rfl⟩ := Prod.mk.inj heq
  -- what the map does with the listener, whichever way it is kept
  obtain ⟨vector, hvector, hfind, hmade⟩ := EventListenerMap.find_add hadd
  simp only [eventTargetData_report, eventTargetData_attachEvent] at hvector hfind hmade
  -- a target without data is one with an empty map
  have hdata : ∀ t', (s.eventTargetData.getD .init).eventListenerMap.find t' = s.find t' := by
    intro t'
    cases hd : s.eventTargetData <;> simp [EventTarget.find, hd, EventTargetData.init]
  have hold : (s.eventTargetData.getD .init).eventListenerMap.vectorsMade = vectorsMade s := by
    cases hd : s.eventTargetData <;> simp [vectorsMade, hd, EventTargetData.init]
    rfl
  rw [hdata, hold] at hvector
  -- the vector of the type, the identities given out, the activations; nobody is stopped
  refine ⟨vector, hvector, fun t' => ?_, ?_, ?_, by simp⟩
  · simp only [EventTarget.find, eventTargetData_report]
    rw [hfind, hdata]
    rfl
  · rw [← hdata, ← hold]
    simpa [vectorsMade] using hmade
  · cases hd : s.eventTargetData <;> simp [firing, hd, EventTargetData.init]

/-- The listener leaves the vector of its type, and the activations on that type are told its index.
    -/
theorem shows_removeEventListener (self : EventTargetObject) (s : EventTarget L)
    (t : AtomicString) (r : RegisteredEventListener L) :
    Shows (s.removeEventListener self t r).2
      (fun t' => if t' = t then (s.find t).bind fun vector => EventListenerMap.remaining vector r
        else s.find t')
      (vectorsMade s)
      (((s.find t).bind fun vector => EventListenerMap.indexOf vector r).elim s.firing
        fun index => s.firing.map fun f => f.notify t index)
      s.immediatePropagationStopped := by
  cases hd : s.eventTargetData with
  | none =>
    -- without data there is nothing to remove
    have hs' : (s.removeEventListener self t r).2 = s.detachEvents self := by
      simp [removeEventListener, hd]
    rw [hs']
    refine Shows.congr ⟨fun t' => ?_, rfl, ?_, rfl⟩ (eventTargetData_detachEvents self s)
      (stopped_detachEvents self s)
    · simp [EventTarget.find, hd]
    · simp [EventTarget.find, hd]
  | some d =>
    -- the map says whether the listener was there
    obtain ⟨hindex, hfind, hmade⟩ := d.eventListenerMap.find_remove t r
    have hs : ∀ t', s.find t' = d.eventListenerMap.find t' := fun t' => by
      rw [EventTarget.find, hd]
    simp only [hs, ← hindex]
    cases hremoved : (d.eventListenerMap.remove t r).1 with
    | none =>
      -- it was not: no activation is told
      have hs' : (s.removeEventListener self t r).2.eventTargetData =
          some { d with eventListenerMap := (d.eventListenerMap.remove t r).2 } := by
        simp [removeEventListener, hd, hremoved]
      refine ⟨fun t' => ?_, ?_, ?_, ?_⟩
      · rw [EventTarget.find, hs']
        exact hfind t'
      · rw [vectorsMade, hs', vectorsMade, hd]
        exact hmade
      · rw [firing, hs', firing, hd]
        rfl
      · simp [removeEventListener, hd, hremoved]
    | some index =>
      -- it was at `index`, and every activation is told
      have hs' : (s.removeEventListener self t r).2.eventTargetData =
          some ⟨(d.eventListenerMap.remove t r).2,
            d.firingEventIterators.map fun f => f.notify t index⟩ := by
        simp [removeEventListener, hd, hremoved]
      refine ⟨fun t' => ?_, ?_, ?_, ?_⟩
      · rw [EventTarget.find, hs']
        exact hfind t'
      · rw [vectorsMade, hs', vectorsMade, hd]
        exact hmade
      · rw [firing, hs', firing, hd]
        rfl
      · simp [removeEventListener, hd, hremoved]

end

/-! ## How an activation stands for a dispatch -/

/-- The index of the first listener that the activation has not passed. -/
def position (f : FiringEventIterator) : Nat :=
  if f.handling then sizeSucc f.iterator else f.iterator

/-- Where an activation is: in its vector, which what is left of the dispatch fills up to the end;
    at its end, with or without a vector; or at an index that has wrapped around twice, from where
    it can only end. -/
inductive Placed (find : AtomicString → Option (EventListenerVector L)) (f : FiringEventIterator)
    (d : Dispatch L) : Prop where
  | live (vector : EventListenerVector L) (found : find f.event.type = some vector)
      (alive : vector.identity = f.entry) (bound : f.finish ≤ vector.listeners.length)
      (rest : vector.listeners.take f.finish = d.passed ++ d.todo)
      (passed : d.passed.length = position f) (small : f.iterator < 2 ^ 64) (cut : d.cut = false)
  | drained (finish : f.finish = 0) (passed : d.passed = []) (todo : d.todo = [])
      (cut : d.cut = false)
  | wrapped (far : 2 ^ 63 + f.finish ≤ f.iterator)
      (small : f.iterator + (if f.handling then 1 else 0) < 2 ^ 64) (cut : d.cut = true)

/-- An activation stands for a dispatch. -/
structure Follows (find : AtomicString → Option (EventListenerVector L)) (f : FiringEventIterator)
    (d : Dispatch L) : Prop where
  event : d.event = f.event
  running : d.running = f.handling
  placed : Placed find f d

/-- What holds of the vectors of a target. -/
structure Valid (find : AtomicString → Option (EventListenerVector L)) (made : Nat)
    (firing : List FiringEventIterator) : Prop where
  nonempty : ∀ t vector, find t = some vector → vector.listeners ≠ []
  nodup : ∀ t vector, find t = some vector →
    (vector.listeners.map RegisteredEventListener.key).Nodup
  bound : ∀ t vector, find t = some vector → vector.listeners.length ≤ maxListeners
  old : ∀ t vector, find t = some vector → vector.identity < made
  entries : ∀ f ∈ firing, f.entry < made
  waiting : ∀ f ∈ firing.tail, f.handling = true

/-- A target stands for its listeners and dispatches. -/
structure StandsFor (s : EventTarget L) (a : Dispatches L) : Prop where
  valid : Valid s.find (vectorsMade s) s.firing
  listeners : ∀ t, a.listeners t = ((s.find t).map EventListenerVector.listeners).getD []
  firing : List.Forall₂ (Follows s.find) s.firing a.dispatches
  stopped : a.immediatePropagationStopped = s.immediatePropagationStopped

/-- A script may run on both sides or on neither. -/
theorem StandsFor.scriptRuns {s : EventTarget L} {a : Dispatches L} (h : StandsFor s a) :
    a.scriptRuns = s.scriptRuns := by
  have hfiring := h.firing
  rw [Dispatches.scriptRuns, EventTarget.scriptRuns]
  generalize s.firing = fs, a.dispatches = ds at hfiring
  cases hfiring with
  | nil => rfl
  | cons hf hfs => exact hf.running

/-- Standing for each other is about what a target shows. -/
theorem StandsFor.of_shows {s : EventTarget L} {a : Dispatches L}
    {find : AtomicString → Option (EventListenerVector L)} {made : Nat}
    {firing : List FiringEventIterator} {stopped : List Nat}
    (h : Shows s find made firing stopped) (valid : Valid find made firing)
    (listeners : ∀ t, a.listeners t = ((find t).map EventListenerVector.listeners).getD [])
    (follows : List.Forall₂ (Follows find) firing a.dispatches)
    (hstopped : a.immediatePropagationStopped = stopped) : StandsFor s a := by
  obtain ⟨hfind, rfl, rfl, rfl⟩ := h
  obtain rfl : s.find = find := funext hfind
  exact ⟨valid, listeners, follows, hstopped⟩

/-- When a script runs, all activations have called a listener. -/
theorem Valid.handling {find : AtomicString → Option (EventListenerVector L)} {made : Nat}
    {s : EventTarget L} (h : Valid find made s.firing) (hruns : s.scriptRuns = true) :
    ∀ f ∈ s.firing, f.handling = true := by
  intro f hf
  rw [EventTarget.scriptRuns] at hruns
  cases hfiring : s.firing with
  | nil =>
    rw [hfiring] at hf
    cases hf
  | cons f' fs =>
    rw [hfiring] at hf hruns
    rcases List.mem_cons.mp hf with rfl | hf
    · exact hruns
    · exact h.waiting f (by rw [hfiring]; exact hf)

/-! ## Adding -/

/-- The vector of another type does not matter to an activation, nor do more listeners behind. -/
theorem Follows.add {find find' : AtomicString → Option (EventListenerVector L)}
    {f : FiringEventIterator} {d : Dispatch L} (h : Follows find f d)
    (hfind : ∀ vector, find f.event.type = some vector → ∃ more : List (RegisteredEventListener L),
      find' f.event.type = some ⟨vector.identity, vector.listeners ++ more⟩) :
    Follows find' f d where
  event := h.event
  running := h.running
  placed := by
    cases h.placed with
    | live vector found alive bound rest passed small cut =>
      obtain ⟨more, hmore⟩ := hfind vector found
      refine .live _ hmore alive ?_ ?_ passed small cut
      · rw [List.length_append]
        omega
      · rw [List.take_append_of_le_length bound]
        exact rest
    | drained finish passed todo cut => exact .drained finish passed todo cut
    | wrapped far small cut => exact .wrapped far small cut

section

variable [DecidableEq L]

/-- An index is found if and only if a listener with that key is registered. -/
theorem isSome_indexOf_iff {vector : EventListenerVector L} {r : RegisteredEventListener L} :
    (EventListenerMap.indexOf vector r).isSome = true ↔
      r.key ∈ vector.listeners.map RegisteredEventListener.key := by
  rw [EventListenerMap.indexOf, List.findIdx?_isSome, List.any_eq_true, List.mem_map]
  simp only [decide_eq_true_eq]

/-- What `addListenerToVector` leaves is the vector with the listener, and still one that is
    valid. -/
theorem addListenerToVector_eq_some {vector vector' : EventListenerVector L}
    {r : RegisteredEventListener L} {added : Bool}
    (h : EventListenerMap.addListenerToVector vector r = some (added, vector')) :
    (r.key ∈ vector.listeners.map RegisteredEventListener.key ∧ vector' = vector) ∨
      (r.key ∉ vector.listeners.map RegisteredEventListener.key ∧
        vector' = ⟨vector.identity, vector.listeners ++ [r]⟩ ∧
        vector'.listeners.length ≤ maxListeners) := by
  rw [EventListenerMap.addListenerToVector] at h
  split at h
  -- it is registered already
  · next hin =>
    simp only [Option.some.injEq, Prod.mk.injEq] at h
    exact Or.inl ⟨isSome_indexOf_iff.mp hin, h.2.symm⟩
  · next hin =>
    split at h
    · cases h
    -- it is new, and there is room for one more
    · next hroom =>
      simp only [Option.some.injEq, Prod.mk.injEq] at h
      obtain ⟨-, rfl⟩ := h
      refine Or.inr ⟨fun hmem => hin (isSome_indexOf_iff.mpr hmem), rfl, ?_⟩
      rw [List.length_append, List.length_singleton]
      omega

/-- Registering a listener. -/
theorem StandsFor.add {self : EventTargetObject} {s s' : EventTarget L} {a : Dispatches L}
    {t : AtomicString} {r : RegisteredEventListener L} {added : Bool} (h : StandsFor s a)
    (hadd : s.addEventListener self t r = some (added, s')) : StandsFor s' (a.add t r) := by
  obtain ⟨vector, hvector, hshows⟩ := shows_addEventListener hadd
  have hold : a.listeners t = ((s.find t).getD ⟨vectorsMade s, []⟩).listeners := by
    rw [h.listeners]
    cases s.find t <;> rfl
  have hnodup : (((s.find t).getD ⟨vectorsMade s, []⟩).listeners.map
      RegisteredEventListener.key).Nodup := by
    cases hfind : s.find t with
    | none => exact List.nodup_nil
    | some v => exact h.valid.nodup t v hfind
  -- the vector of the type, before and after
  obtain ⟨more, hmore, hlisteners, hkeys, hbound, hne⟩ : ∃ more,
      vector = ⟨((s.find t).getD ⟨vectorsMade s, []⟩).identity,
        ((s.find t).getD ⟨vectorsMade s, []⟩).listeners ++ more⟩ ∧
      (a.add t r).listeners = Function.update a.listeners t vector.listeners ∧
      (vector.listeners.map RegisteredEventListener.key).Nodup ∧
      vector.listeners.length ≤ maxListeners ∧ vector.listeners ≠ [] := by
    rcases addListenerToVector_eq_some hvector with ⟨hin, rfl⟩ | ⟨hin, rfl, hroom⟩
    · -- an equal listener is there, so there is a vector
      obtain ⟨v, hv⟩ : ∃ v, s.find t = some v := by
        cases hfind : s.find t with
        | none =>
          rw [hfind] at hin
          cases hin
        | some v => exact ⟨v, rfl⟩
      rw [hv, Option.getD_some] at hnodup hin hold ⊢
      refine ⟨[], by rw [List.append_nil], ?_, hnodup, h.valid.bound t v hv,
        h.valid.nonempty t v hv⟩
      rw [Dispatches.add, if_pos (by rw [hold]; exact hin), ← hold, Function.update_eq_self]
    · refine ⟨[r], rfl, ?_, ?_, hroom, by simp⟩
      · rw [Dispatches.add, if_neg (by rw [hold]; exact hin), hold]
      · rw [List.map_append, List.nodup_append]
        refine ⟨hnodup, List.nodup_singleton _, fun x hx y hy => ?_⟩
        obtain rfl := List.mem_singleton.mp hy
        exact fun heq => hin (heq ▸ hx)
  have hdispatches : (a.add t r).dispatches = a.dispatches ∧
      (a.add t r).immediatePropagationStopped = a.immediatePropagationStopped := by
    rw [Dispatches.add]
    split <;> exact ⟨rfl, rfl⟩
  have hmade : vectorsMade s ≤ if (s.find t).isSome then vectorsMade s else vectorsMade s + 1 := by
    split <;> omega
  have hidentity : vector.identity <
      if (s.find t).isSome then vectorsMade s else vectorsMade s + 1 := by
    rw [hmore]
    cases hfind : s.find t with
    | none => exact Nat.lt_succ_self _
    | some v => exact h.valid.old t v hfind
  have hall : ∀ {P : EventListenerVector L → Prop}, P vector →
      (∀ t' v, s.find t' = some v → P v) →
      ∀ t' v, (if t' = t then some vector else s.find t') = some v → P v := by
    intro P hvector hrest t' v hv
    split at hv
    · exact Option.some.inj hv ▸ hvector
    · exact hrest t' v hv
  refine .of_shows hshows
    { nonempty := hall hne h.valid.nonempty
      nodup := hall hkeys h.valid.nodup
      bound := hall hbound h.valid.bound
      old := hall hidentity fun t' v hv => Nat.lt_of_lt_of_le (h.valid.old t' v hv) hmade
      entries := fun f hf => Nat.lt_of_lt_of_le (h.valid.entries f hf) hmade
      waiting := h.valid.waiting } (fun t' => ?_) ?_ (hdispatches.2.trans h.stopped)
  · rw [hlisteners, Function.update_apply]
    split
    · rfl
    · exact h.listeners t'
  · rw [hdispatches.1]
    refine h.firing.imp fun f d hfollows => hfollows.add fun v hv => ?_
    by_cases ht : f.event.type = t
    · rw [if_pos ht]
      rw [ht] at hv
      rw [hv] at hmore
      exact ⟨more, congrArg some hmore⟩
    · rw [if_neg ht]
      exact ⟨[], by rw [List.append_nil]; exact hv⟩

/-! ## Removing -/

/-- The listeners that `==` says are equal to the one that is removed. -/
def isRemoved (r r' : RegisteredEventListener L) : Bool := decide (r'.key = r.key)

/-- The index that is found is that of the first listener to be removed. -/
theorem indexOf_eq_some {vector : EventListenerVector L} {r : RegisteredEventListener L}
    {index : Nat} (h : EventListenerMap.indexOf vector r = some index) :
    index < vector.listeners.length ∧ vector.listeners.findIdx (isRemoved r) = index :=
  List.findIdx?_eq_some_iff_findIdx_eq.mp h

/-- What is left of a vector, by key. -/
theorem remaining_eq {vector : EventListenerVector L} {r : RegisteredEventListener L} {index : Nat}
    (h : EventListenerMap.indexOf vector r = some index) :
    EventListenerMap.remaining vector r =
      if (vector.listeners.eraseP (isRemoved r)).isEmpty then none
      else some ⟨vector.identity, vector.listeners.eraseP (isRemoved r)⟩ := by
  have herase : vector.listeners.eraseIdx index = vector.listeners.eraseP (isRemoved r) := by
    rw [List.eraseP_eq_eraseIdx]
    rw [EventListenerMap.indexOf] at h
    unfold isRemoved
    rw [h]
  simp only [EventListenerMap.remaining, EventListenerMap.removeListenerFromVector, h, herase]

/-- One listener of a vector has a given key, so one is removed. -/
theorem pairwise_isRemoved {listeners : List (RegisteredEventListener L)}
    (h : (listeners.map RegisteredEventListener.key).Nodup) (r : RegisteredEventListener L) :
    listeners.Pairwise fun x y => ¬(isRemoved r x = true ∧ isRemoved r y = true) := by
  refine (List.pairwise_map.mp h).imp fun {x y} hne hboth => hne ?_
  rw [of_decide_eq_true hboth.1, of_decide_eq_true hboth.2]

/-- What a dispatch of the type of the removed listener forgets. -/
theorem forget_self (d : Dispatch L) (r : RegisteredEventListener L) :
    d.forget d.event.type r.key =
      { d with
        passed := d.passed.eraseP (isRemoved r)
        todo := d.todo.eraseP (isRemoved r)
        cut := d.cut || (d.passed.isEmpty && d.running && d.todo.any (isRemoved r)) } := by
  rw [Dispatch.forget, if_neg (not_not_intro rfl)]
  rfl

/-- Subtracting one does not wrap around if there is one. -/
theorem sizePred_of_pos {n : Nat} (h : 0 < n) (hn : n < 2 ^ 64) : sizePred n = n - 1 := by
  unfold sizePred
  omega

section Cut

variable {vector : EventListenerVector L} {r : RegisteredEventListener L} {index finish : Nat}
  {passed todo : List (RegisteredEventListener L)}

/-- The listener that is removed is in front of the end, or is not. -/
theorem exists_isRemoved_iff (hindex : EventListenerMap.indexOf vector r = some index)
    (bound : finish ≤ vector.listeners.length)
    (rest : vector.listeners.take finish = passed ++ todo) :
    (∃ x ∈ passed ++ todo, isRemoved r x = true) ↔ index < finish := by
  have hfront : (passed ++ todo).length = finish := by
    rw [← rest, List.length_take, Nat.min_eq_left bound]
  rw [← List.findIdx_append_lt_length_iff (vector.listeners.drop finish), hfront, ← rest,
    List.take_append_drop, (indexOf_eq_some hindex).2]

/-- The vector without the listener: what is left of the dispatch, and what is behind the end. -/
theorem eraseP_isRemoved_eq
    (hnodup : (vector.listeners.map RegisteredEventListener.key).Nodup)
    (rest : vector.listeners.take finish = passed ++ todo) :
    vector.listeners.eraseP (isRemoved r) =
      (passed.eraseP (isRemoved r) ++ todo.eraseP (isRemoved r)) ++
        (vector.listeners.drop finish).eraseP (isRemoved r) := by
  have hone := pairwise_isRemoved hnodup r
  rw [← List.take_append_drop finish vector.listeners, rest] at hone
  conv_lhs => rw [← List.take_append_drop finish vector.listeners, rest]
  rw [List.eraseP_append_of_pairwise hone,
    List.eraseP_append_of_pairwise (List.pairwise_append.mp hone).1]

/-- How many listeners are left in front of the end, and how many of those that were passed. -/
theorem length_eraseP_isRemoved
    (hnodup : (vector.listeners.map RegisteredEventListener.key).Nodup)
    (hindex : EventListenerMap.indexOf vector r = some index)
    (bound : finish ≤ vector.listeners.length)
    (rest : vector.listeners.take finish = passed ++ todo) :
    (passed.eraseP (isRemoved r) ++ todo.eraseP (isRemoved r)).length =
        (if index < finish then finish - 1 else finish) ∧
      (passed.eraseP (isRemoved r)).length =
        if index < passed.length then passed.length - 1 else passed.length := by
  have hfront : (passed ++ todo).length = finish := by
    rw [← rest, List.length_take, Nat.min_eq_left bound]
  have hsplit : vector.listeners = (passed ++ todo) ++ vector.listeners.drop finish := by
    rw [← rest, List.take_append_drop]
  have hone := pairwise_isRemoved hnodup r
  rw [hsplit] at hone
  constructor
  · rw [← List.eraseP_append_of_pairwise (List.pairwise_append.mp hone).1,
      List.length_eraseP_of_append (vector.listeners.drop finish), ← hsplit,
      (indexOf_eq_some hindex).2, hfront]
  · rw [List.length_eraseP_of_append (todo ++ vector.listeners.drop finish), ← List.append_assoc,
      ← hsplit, (indexOf_eq_some hindex).2]

end Cut

/-- An activation stays in what is left of its vector, or is at its end if the vector goes with its
    last listener. -/
theorem Placed.of_erased {find : AtomicString → Option (EventListenerVector L)}
    {f : FiringEventIterator} {d : Dispatch L} {r : RegisteredEventListener L}
    {vector : EventListenerVector L} {index : Nat} {behind : List (RegisteredEventListener L)}
    (hindex : EventListenerMap.indexOf vector r = some index)
    (hfind : find f.event.type = EventListenerMap.remaining vector r)
    (alive : vector.identity = f.entry)
    (herase : vector.listeners.eraseP (isRemoved r) = (d.passed ++ d.todo) ++ behind)
    (hfinish : (d.passed ++ d.todo).length = f.finish) (passed : d.passed.length = position f)
    (small : f.iterator < 2 ^ 64) (cut : d.cut = false) : Placed find f d := by
  rw [remaining_eq hindex] at hfind
  split at hfind
  · next hempty =>
    rw [List.isEmpty_iff, herase, List.append_eq_nil_iff, List.append_eq_nil_iff] at hempty
    obtain ⟨⟨hpassed, htodo⟩, -⟩ := hempty
    exact .drained (by rw [← hfinish, hpassed, htodo]; rfl) hpassed htodo cut
  · refine .live _ hfind alive ?_ ?_ passed small cut
    · rw [herase, List.length_append, hfinish]
      exact Nat.le_add_right _ _
    · rw [herase, List.take_append_of_le_length (Nat.le_of_eq hfinish.symm),
        List.take_of_length_le (Nat.le_of_eq hfinish)]

/-- A removal behind the end of an activation. -/
theorem Placed.notify_behind {find find' : AtomicString → Option (EventListenerVector L)}
    {f : FiringEventIterator} {d : Dispatch L} {r : RegisteredEventListener L}
    {vector : EventListenerVector L} {index : Nat} (h : Placed find f d)
    (hfind : find f.event.type = some vector)
    (hnodup : (vector.listeners.map RegisteredEventListener.key).Nodup)
    (hindex : EventListenerMap.indexOf vector r = some index)
    (hfind' : find' f.event.type = EventListenerMap.remaining vector r)
    (hbehind : f.finish ≤ index) : Placed find' f (d.forget d.event.type r.key) := by
  rw [forget_self]
  cases h with
  | drained finish passed todo cut =>
    exact .drained finish (by simp [passed]) (by simp [todo]) (by simp [todo, cut])
  | wrapped far small cut => exact .wrapped far small (by simp [cut])
  | live v found alive bound rest passed small cut =>
    obtain rfl : v = vector := Option.some.inj (found.symm.trans hfind)
    obtain ⟨hfinish, hpassed⟩ := length_eraseP_isRemoved hnodup hindex bound rest
    have hle : d.passed.length ≤ f.finish := by
      have hfront := congrArg List.length rest
      rw [List.length_take, List.length_append] at hfront
      omega
    -- the listener is none of those in front of the end
    have hany : d.todo.any (isRemoved r) = false := by
      refine List.any_eq_false.mpr fun x hx hq => ?_
      have hbefore := (exists_isRemoved_iff hindex bound rest).mp
        ⟨x, List.mem_append_right _ hx, hq⟩
      omega
    refine .of_erased hindex hfind' alive (eraseP_isRemoved_eq hnodup rest) ?_ ?_ small ?_
    · rw [hfinish, if_neg (by omega)]
    · rw [hpassed, if_neg (by omega), passed]
    · rw [cut, hany, Bool.and_false]
      rfl

section Before

variable {find' : AtomicString → Option (EventListenerVector L)} {f : FiringEventIterator}
  {d : Dispatch L} {r : RegisteredEventListener L} {index : Nat}
  (hhandling : f.handling = true) (hbefore : index < f.finish)
include hhandling hbefore

/-- A removal in front of the end, where nothing is left of what was passed: the index has wrapped
    around below zero, and does so again. -/
theorem Placed.notify_before_of_nil (hrunning : d.running = true) (hpassed : d.passed = [])
    (hposition : d.passed.length = position f) (small : f.iterator < 2 ^ 64)
    (hbound : f.finish ≤ maxListeners) (hmem : ∃ x ∈ d.todo, isRemoved r x = true) :
    Placed find'
      { f with
        finish := sizePred f.finish
        iterator := if index ≤ f.iterator then sizePred f.iterator else f.iterator }
      (d.forget d.event.type r.key) := by
  rw [forget_self]
  -- the end is above zero, and does not wrap around
  unfold maxListeners at hbound
  have hfinish : sizePred f.finish = f.finish - 1 := sizePred_of_pos (by omega) (by omega)
  -- nothing has been passed, so the index is the one before the first
  have hiterator : f.iterator = 2 ^ 64 - 1 := by
    rw [position, if_pos hhandling, hpassed, List.length_nil, sizeSucc] at hposition
    omega
  rw [hfinish, if_pos (by omega), sizePred_of_pos (by omega) (by omega), hiterator]
  -- the index stays below zero, and the dispatch is cut off since something was left of it
  refine .wrapped ?_ ?_ ?_
  · dsimp only
    omega
  · rw [if_pos hhandling]
    dsimp only
    omega
  · simp only [hpassed, hrunning, List.isEmpty_nil, Bool.true_and, List.any_eq_true.mpr hmem,
      Bool.or_true]

/-- A removal in front of the end, where something is left of what was passed: the index stays
    behind the last of that. -/
theorem Placed.notify_before_of_ne_nil {vector : EventListenerVector L}
    (hne : d.passed ≠ [])
    (hnodup : (vector.listeners.map RegisteredEventListener.key).Nodup)
    (hbound : vector.listeners.length ≤ maxListeners)
    (hindex : EventListenerMap.indexOf vector r = some index)
    (hfind' : find' f.event.type = EventListenerMap.remaining vector r)
    (alive : vector.identity = f.entry) (bound : f.finish ≤ vector.listeners.length)
    (rest : vector.listeners.take f.finish = d.passed ++ d.todo)
    (hposition : d.passed.length = position f) (small : f.iterator < 2 ^ 64)
    (cut : d.cut = false) :
    Placed find'
      { f with
        finish := sizePred f.finish
        iterator := if index ≤ f.iterator then sizePred f.iterator else f.iterator }
      (d.forget d.event.type r.key) := by
  rw [forget_self]
  unfold maxListeners at hbound
  obtain ⟨hfront, hpassed⟩ := length_eraseP_isRemoved hnodup hindex bound rest
  have hpos : 0 < d.passed.length := List.length_pos_iff.mpr hne
  have hle : d.passed.length ≤ f.finish := by
    have hlength := congrArg List.length rest
    rw [List.length_take, List.length_append] at hlength
    omega
  have hiterator : f.iterator = d.passed.length - 1 := by
    rw [position, if_pos hhandling, sizeSucc] at hposition
    omega
  refine .of_erased hindex hfind' alive (eraseP_isRemoved_eq hnodup rest) ?_ ?_ ?_ ?_
  · rw [hfront, if_pos hbefore]
    exact (sizePred_of_pos (by omega) (by omega)).symm
  · -- the index moves with the listeners in front of it
    rw [hpassed, position, if_pos hhandling, sizeSucc]
    dsimp only
    split
    · rw [if_pos (by omega), sizePred]
      omega
    · rw [if_neg (by omega)]
      omega
  · dsimp only
    split
    · rw [sizePred]
      omega
    · exact small
  · rw [cut, List.isEmpty_eq_false_iff.mpr hne]
    rfl

end Before

/-- A removal in front of the end of an activation. -/
theorem Placed.notify_before {find find' : AtomicString → Option (EventListenerVector L)}
    {f : FiringEventIterator} {d : Dispatch L} {r : RegisteredEventListener L}
    {vector : EventListenerVector L} {index : Nat} (h : Placed find f d)
    (hhandling : f.handling = true) (hrunning : d.running = true)
    (hfind : find f.event.type = some vector)
    (hnodup : (vector.listeners.map RegisteredEventListener.key).Nodup)
    (hbound : vector.listeners.length ≤ maxListeners)
    (hindex : EventListenerMap.indexOf vector r = some index)
    (hfind' : find' f.event.type = EventListenerMap.remaining vector r)
    (hbefore : index < f.finish) :
    Placed find'
      { f with
        finish := sizePred f.finish
        iterator := if index ≤ f.iterator then sizePred f.iterator else f.iterator }
      (d.forget d.event.type r.key) := by
  obtain ⟨hlt, -⟩ := indexOf_eq_some hindex
  cases h with
  -- a drained activation has no listener before its end
  | drained finish passed todo cut => omega
  | wrapped far small cut =>
    -- in one that has wrapped the index and the end both go back by one
    rw [if_pos hhandling] at small
    have hiterator : sizePred f.iterator = f.iterator - 1 := sizePred_of_pos (by omega) (by omega)
    have hfinish : sizePred f.finish = f.finish - 1 := sizePred_of_pos (by omega) (by omega)
    rw [forget_self, if_pos (by omega), hfinish, hiterator]
    refine .wrapped ?_ ?_ (by simp [cut])
    · dsimp only
      omega
    · rw [if_pos hhandling]
      dsimp only
      omega
  | live v found alive bound rest passed small cut =>
    -- one that is live loses a listener that it has passed
    obtain rfl : v = vector := Option.some.inj (found.symm.trans hfind)
    -- whether the removed one was all that it has passed decides
    by_cases hp : d.passed = []
    · have hmem := (exists_isRemoved_iff hindex bound rest).mpr hbefore
      rw [hp, List.nil_append] at hmem
      exact .notify_before_of_nil hhandling hbefore hrunning hp passed small
        (Nat.le_trans bound hbound) hmem
    · exact .notify_before_of_ne_nil hhandling hbefore hp hnodup hbound hindex hfind' alive bound
        rest passed small cut

/-- A removal does not change the event of an activation. -/
@[simp] theorem event_notify (f : FiringEventIterator) (t : AtomicString) (index : Nat) :
    (f.notify t index).event = f.event := by
  rw [FiringEventIterator.notify]
  split
  · rfl
  · split <;> rfl

/-- A removal does not change which vector an activation reads. -/
@[simp] theorem entry_notify (f : FiringEventIterator) (t : AtomicString) (index : Nat) :
    (f.notify t index).entry = f.entry := by
  rw [FiringEventIterator.notify]
  split
  · rfl
  · split <;> rfl

/-- A removal does not change whether the handler of an activation runs. -/
@[simp] theorem handling_notify (f : FiringEventIterator) (t : AtomicString) (index : Nat) :
    (f.notify t index).handling = f.handling := by
  rw [FiringEventIterator.notify]
  split
  · rfl
  · split <;> rfl

/-- A removal does not change the event of a dispatch. -/
@[simp] theorem event_forget (d : Dispatch L) (t : AtomicString) (key : L × Bool) :
    (d.forget t key).event = d.event := by
  rw [Dispatch.forget]
  split <;> rfl

/-- A removal does not change whether the handler of a dispatch runs. -/
@[simp] theorem running_forget (d : Dispatch L) (t : AtomicString) (key : L × Bool) :
    (d.forget t key).running = d.running := by
  rw [Dispatch.forget]
  split <;> rfl

/-- An activation that is told of a removal stands for the dispatch that has forgotten the
    listener. -/
theorem Follows.notify {find find' : AtomicString → Option (EventListenerVector L)}
    {f : FiringEventIterator} {d : Dispatch L} {t : AtomicString} {r : RegisteredEventListener L}
    {vector : EventListenerVector L} {index : Nat} (h : Follows find f d)
    (hhandling : f.handling = true) (hfind : find t = some vector)
    (hnodup : (vector.listeners.map RegisteredEventListener.key).Nodup)
    (hbound : vector.listeners.length ≤ maxListeners)
    (hindex : EventListenerMap.indexOf vector r = some index)
    (hfind' : find' t = EventListenerMap.remaining vector r)
    (hother : ∀ t', t' ≠ t → find' t' = find t') :
    Follows find' (f.notify t index) (d.forget t r.key) where
  event := by rw [event_notify, event_forget, h.event]
  running := by rw [handling_notify, running_forget, h.running]
  placed := by
    by_cases ht : t = f.event.type
    · -- the activation is on the type of the listener
      subst ht
      have hevent : d.forget f.event.type r.key = d.forget d.event.type r.key := by rw [h.event]
      rw [FiringEventIterator.notify, if_neg (not_not_intro rfl), hevent]
      split
      -- the listener is behind the end
      · next hbehind => exact h.placed.notify_behind hfind hnodup hindex hfind' hbehind
      -- the listener is in front of the end
      · next hbefore =>
        exact h.placed.notify_before hhandling (h.running.trans hhandling) hfind hnodup hbound
          hindex hfind' (Nat.lt_of_not_le hbefore)
    · -- on any other type nothing moves
      rw [FiringEventIterator.notify, if_pos ht, Dispatch.forget,
        if_pos (by rw [h.event]; exact ht)]
      exact (h.add fun v hv => ⟨[], by
        rw [hother _ (Ne.symm ht), hv, List.append_nil]⟩).placed

/-- Removing what is not registered does nothing. -/
theorem Dispatches.remove_of_notMem {a : Dispatches L} {t : AtomicString}
    {r : RegisteredEventListener L}
    (h : r.key ∉ (a.listeners t).map RegisteredEventListener.key) : a.remove t r = a := by
  have herase : (a.listeners t).eraseP (fun r' => r'.key = r.key) = a.listeners t := by
    refine List.eraseP_of_forall_not fun x hx hq => h ?_
    rw [← of_decide_eq_true hq]
    exact List.mem_map_of_mem hx
  rw [Dispatches.remove, if_neg h, herase, Function.update_eq_self]

/-- Removing a listener. -/
theorem StandsFor.remove {self : EventTargetObject} {s : EventTarget L} {a : Dispatches L}
    {t : AtomicString} {r : RegisteredEventListener L} (h : StandsFor s a)
    (hruns : s.scriptRuns = true) :
    StandsFor (s.removeEventListener self t r).2 (a.remove t r) := by
  have hshows := shows_removeEventListener self s t r
  -- where nothing is removed the vectors stay, and so do the activations
  have hnothing : ((s.find t).bind fun vector => EventListenerMap.indexOf vector r) = none →
      ((s.find t).bind fun vector => EventListenerMap.remaining vector r) = s.find t →
      StandsFor (s.removeEventListener self t r).2 (a.remove t r) := by
    intro hindex hremaining
    have hmem : r.key ∉ (a.listeners t).map RegisteredEventListener.key := by
      rw [h.listeners]
      cases hfind : s.find t with
      | none => exact List.not_mem_nil
      | some v =>
        rw [hfind, Option.bind_some] at hindex
        rw [Option.map_some, Option.getD_some, ← isSome_indexOf_iff, hindex]
        exact Bool.false_ne_true
    have hsame : (fun t' => if t' = t then (s.find t).bind fun vector =>
        EventListenerMap.remaining vector r else s.find t') = s.find := by
      funext t'
      rw [hremaining]
      split
      · next ht => rw [ht]
      · rfl
    rw [hindex, hsame] at hshows
    rw [Dispatches.remove_of_notMem hmem]
    exact .of_shows hshows h.valid h.listeners h.firing h.stopped
  cases hfind : s.find t with
  | none => exact hnothing (by rw [hfind]; rfl) (by rw [hfind]; rfl)
  | some v =>
    cases hindex : EventListenerMap.indexOf v r with
    | none =>
      have hleft : EventListenerMap.remaining v r = some v := by
        rw [EventListenerMap.remaining]
        simp only [EventListenerMap.removeListenerFromVector, hindex]
        rw [if_neg (by rw [List.isEmpty_iff]; exact h.valid.nonempty t v hfind)]
      exact hnothing (by rw [hfind]; exact hindex) (by rw [hfind]; exact hleft)
    | some index =>
      rw [hfind, Option.bind_some, Option.bind_some, hindex, Option.elim_some] at hshows
      have hlisteners : a.listeners t = v.listeners := by rw [h.listeners, hfind]; rfl
      have hmem : r.key ∈ (a.listeners t).map RegisteredEventListener.key := by
        rw [hlisteners, ← isSome_indexOf_iff, hindex]
        rfl
      have hleft := remaining_eq hindex
      have hsub : (v.listeners.eraseP (isRemoved r)).Sublist v.listeners := List.eraseP_sublist
      have hall : ∀ {P : EventListenerVector L → Prop},
          (v.listeners.eraseP (isRemoved r) ≠ [] →
            P ⟨v.identity, v.listeners.eraseP (isRemoved r)⟩) →
          (∀ t' v', s.find t' = some v' → P v') →
          ∀ t' v', (if t' = t then EventListenerMap.remaining v r else s.find t') = some v' →
            P v' := by
        intro P hv hrest t' v' hv'
        split at hv'
        · rw [hleft] at hv'
          split at hv'
          · cases hv'
          · next hne => exact Option.some.inj hv' ▸ hv (by rwa [List.isEmpty_iff] at hne)
        · exact hrest t' v' hv'
      have hhandling := h.valid.handling hruns
      refine .of_shows hshows
        { nonempty := hall id h.valid.nonempty
          nodup := hall (fun _ => (hsub.map _).nodup (h.valid.nodup t v hfind)) h.valid.nodup
          bound := hall (fun _ => hsub.length_le.trans (h.valid.bound t v hfind)) h.valid.bound
          old := hall (fun _ => h.valid.old t v hfind) h.valid.old
          entries := ?_
          waiting := ?_ } (fun t' => ?_) ?_ h.stopped
      · intro f hf
        obtain ⟨f', hf', rfl⟩ := List.mem_map.mp hf
        rw [entry_notify]
        exact h.valid.entries f' hf'
      · intro f hf
        rw [← List.map_tail] at hf
        obtain ⟨f', hf', rfl⟩ := List.mem_map.mp hf
        rw [handling_notify]
        exact h.valid.waiting f' hf'
      · dsimp only [Dispatches.remove]
        rw [Function.update_apply]
        split
        · rw [hleft, hlisteners]
          split
          · next hempty => exact List.isEmpty_iff.mp hempty
          · rfl
        · exact h.listeners t'
      · rw [Dispatches.remove, if_pos hmem, List.forall₂_map_left_iff, List.forall₂_map_right_iff]
        refine ((List.forall₂_and_left _ _).mpr ⟨hhandling, h.firing⟩).imp fun f d hfollows => ?_
        exact hfollows.2.notify hfollows.1 hfind (h.valid.nodup t v hfind)
          (h.valid.bound t v hfind) hindex (if_pos rfl) fun t' ht' => if_neg ht'

/-- The listener of an attribute that is found is the same one. -/
theorem StandsFor.clearAttribute (self : EventTargetObject) (isAttribute : L → Bool)
    {s : EventTarget L} {a : Dispatches L} (t : AtomicString) (h : StandsFor s a)
    (hruns : s.scriptRuns = true) :
    StandsFor (s.clearAttributeEventListener self isAttribute t).2
      (a.clearAttribute isAttribute t) := by
  have hlog : StandsFor (s.report [EventTargetAccess self .readMemory t]) a :=
    .of_shows ((shows_self s).congr rfl rfl) h.valid h.listeners h.firing h.stopped
  have hget : s.getAttributeEventListener self isAttribute t =
      (((((s.find t).map EventListenerVector.listeners).getD []).find?
        fun r => isAttribute r.listener.value).map RegisteredEventListener.listener,
        s.report [EventTargetAccess self .readMemory t]) := rfl
  rw [clearAttributeEventListener, hget, Dispatches.clearAttribute, h.listeners]
  cases (((s.find t).map EventListenerVector.listeners).getD []).find?
      fun r => isAttribute r.listener.value with
  | none => exact hlog
  | some r => exact hlog.remove hruns

/-- Replacing the listener of an attribute, which removes the one that is set. -/
theorem StandsFor.setAttribute {self : EventTargetObject} {isAttribute : L → Bool}
    {s s' : EventTarget L} {a : Dispatches L} {t : AtomicString}
    {listener : Option (EventListener L)} {added : Bool} (h : StandsFor s a)
    (hruns : s.scriptRuns = true)
    (hset : s.setAttributeEventListener self isAttribute t listener = some (added, s')) :
    StandsFor s' (a.setAttribute isAttribute t listener) := by
  have hclear := h.clearAttribute self isAttribute t hruns
  cases listener with
  | none =>
    obtain ⟨-, rfl⟩ := Prod.mk.inj (Option.some.inj hset)
    exact hclear
  | some listener => exact hclear.add hset

end

/-! ## The other steps -/

/-- Removing all listeners. -/
theorem StandsFor.removeAll {s : EventTarget L} {a : Dispatches L} (h : StandsFor s a) :
    StandsFor s.removeAllEventListeners a.removeAll := by
  refine .of_shows (shows_removeAllEventListeners s)
    { nonempty := by simp
      nodup := by simp
      bound := by simp
      old := by simp
      entries := ?_
      waiting := ?_ } (fun _ => rfl) ?_ h.stopped
  · -- the activations keep their vectors, of which none is left
    intro f hf
    obtain ⟨f', hf', rfl⟩ := List.mem_map.mp hf
    exact h.valid.entries f' hf'
  · intro f hf
    rw [← List.map_tail] at hf
    obtain ⟨f', hf', rfl⟩ := List.mem_map.mp hf
    exact h.valid.waiting f' hf'
  · -- every activation is drained, and every dispatch has forgotten what was ahead
    rw [Dispatches.removeAll, List.forall₂_map_left_iff, List.forall₂_map_right_iff]
    exact h.firing.imp fun f d hfollows =>
      ⟨hfollows.event, hfollows.running, .drained rfl rfl rfl rfl⟩

/-- Firing an event. -/
theorem StandsFor.fire {self : EventTargetObject} {s : EventTarget L} {a : Dispatches L}
    {event : FiredEvent} (h : StandsFor s a) (hruns : s.scriptRuns = true) :
    StandsFor (s.fireEventListeners self event) (a.fire event) := by
  have hshows := shows_fireEventListeners self s event
  cases hfind : s.find event.type with
  | none =>
    -- nobody listens to the type
    have hlisteners : a.listeners event.type = [] := by
      rw [h.listeners, hfind]
      rfl
    rw [hfind] at hshows
    rw [Dispatches.fire, if_pos hlisteners]
    exact .of_shows hshows h.valid h.listeners h.firing h.stopped
  | some v =>
    -- the activation starts at the first listener of the vector
    have hlisteners : a.listeners event.type = v.listeners := by
      rw [h.listeners, hfind]
      rfl
    rw [hfind] at hshows
    have hne := h.valid.nonempty _ v hfind
    rw [Dispatches.fire, if_neg (by rw [hlisteners]; exact hne)]
    refine .of_shows hshows
      { nonempty := h.valid.nonempty
        nodup := h.valid.nodup
        bound := h.valid.bound
        old := h.valid.old
        entries := ?_
        waiting := h.valid.handling hruns } h.listeners (.cons ⟨rfl, rfl, ?_⟩ h.firing) h.stopped
    · -- the identity of the vector was given out before
      intro f hf
      rcases List.mem_cons.mp hf with rfl | hf
      · exact h.valid.old _ v hfind
      · exact h.valid.entries f hf
    · -- nothing is passed and everything is ahead
      refine .live v hfind rfl (Nat.le_refl _) ?_ rfl (Nat.two_pow_pos 64) rfl
      rw [List.take_length, hlisteners]
      rfl

/-- Only the activations change. -/
theorem shows_setFiring {s : EventTarget L} {d : EventTargetData L}
    (h : s.eventTargetData = some d) (fs : List FiringEventIterator) :
    Shows { s with eventTargetData := some { d with firingEventIterators := fs } } s.find
      (vectorsMade s) fs s.immediatePropagationStopped where
  find t := by rw [EventTarget.find, EventTarget.find, h]
  made := by rw [vectorsMade, vectorsMade, h]
  firing := rfl
  stopped := rfl

/-- The last activation, and the last dispatch. -/
theorem StandsFor.last {s : EventTarget L} {a : Dispatches L} (h : StandsFor s a)
    {f : FiringEventIterator} {fs : List FiringEventIterator} (hfiring : s.firing = f :: fs) :
    ∃ data d ds, s.eventTargetData = some data ∧ data.firingEventIterators = f :: fs ∧
      a.dispatches = d :: ds ∧ Follows s.find f d ∧ List.Forall₂ (Follows s.find) fs ds := by
  have hfollows := h.firing
  rw [hfiring] at hfollows
  -- the lists of activations and dispatches have one length
  cases hdispatches : a.dispatches with
  | nil =>
    rw [hdispatches] at hfollows
    cases hfollows
  | cons d ds =>
    rw [hdispatches, List.forall₂_cons] at hfollows
    rw [EventTarget.firing] at hfiring
    cases hdata : s.eventTargetData with
    | none =>
      rw [hdata] at hfiring
      cases hfiring
    | some data =>
      rw [hdata] at hfiring
      exact ⟨data, d, ds, rfl, hfiring, rfl, hfollows⟩

/-- The last activation goes on. -/
theorem StandsFor.set {s s' : EventTarget L} {a : Dispatches L} (h : StandsFor s a)
    {f f' : FiringEventIterator} {fs : List FiringEventIterator} {d' : Dispatch L}
    {ds : List (Dispatch L)} (hfiring : s.firing = f :: fs)
    (hshows : Shows s' s.find (vectorsMade s) (f' :: fs) s.immediatePropagationStopped)
    (hentry : f'.entry = f.entry) (hfollows : Follows s.find f' d')
    (hrest : List.Forall₂ (Follows s.find) fs ds) :
    StandsFor s' { a with dispatches := d' :: ds } := by
  obtain ⟨nonempty, nodup, bound, old, entries, waiting⟩ := h.valid
  rw [hfiring] at entries waiting
  refine .of_shows hshows ⟨nonempty, nodup, bound, old, fun f hf => ?_, waiting⟩ h.listeners
    (.cons hfollows hrest) h.stopped
  rcases List.mem_cons.mp hf with rfl | hf
  · rw [hentry]
    exact entries _ List.mem_cons_self
  · exact entries f (List.mem_cons_of_mem _ hf)

/-- The last activation ends. -/
theorem StandsFor.pop {s s' : EventTarget L} {a : Dispatches L} (h : StandsFor s a)
    {f : FiringEventIterator} {fs : List FiringEventIterator} {ds : List (Dispatch L)}
    (hfiring : s.firing = f :: fs)
    (hshows : Shows s' s.find (vectorsMade s) fs s.immediatePropagationStopped)
    (hrest : List.Forall₂ (Follows s.find) fs ds) :
    StandsFor s' { a with dispatches := ds } := by
  obtain ⟨nonempty, nodup, bound, old, entries, waiting⟩ := h.valid
  rw [hfiring] at entries waiting
  exact .of_shows hshows
    ⟨nonempty, nodup, bound, old, fun f hf => entries f (List.mem_cons_of_mem _ hf),
      fun f hf => waiting f (List.mem_of_mem_tail hf)⟩ h.listeners hrest h.stopped

/-- A listener returns. -/
theorem StandsFor.handled {s : EventTarget L} {a : Dispatches L} (h : StandsFor s a)
    (hruns : s.scriptRuns = true) (hne : s.firing ≠ []) : StandsFor s.handled a.handled := by
  obtain ⟨f, fs, hfiring⟩ := List.exists_cons_of_ne_nil hne
  have hhandling := h.valid.handling hruns f (by rw [hfiring]; exact List.mem_cons_self)
  obtain ⟨data, d, ds, hdata, hiterators, hdispatches, hfollows, hrest⟩ := h.last hfiring
  have hshows := shows_setFiring hdata
    ({ f with iterator := sizeSucc f.iterator, handling := false } :: fs)
  rw [EventTarget.handled, Dispatches.handled, hdata, hdispatches]
  simp only [hiterators]
  refine h.set hfiring hshows rfl ⟨hfollows.event, rfl, ?_⟩ hrest
  -- the index goes on by one, from wherever the activation is
  cases hfollows.placed with
  | live v found alive bound rest passed small cut =>
    rw [position, if_pos hhandling] at passed
    exact .live v found alive bound rest passed (Nat.mod_lt _ (Nat.two_pow_pos 64)) cut
  | drained finish passed todo cut => exact .drained finish passed todo cut
  | wrapped far small cut =>
    rw [if_pos hhandling] at small
    have hsucc : sizeSucc f.iterator = f.iterator + 1 := Nat.mod_eq_of_lt small
    refine .wrapped ?_ ?_ cut
    · dsimp only
      omega
    · rw [if_neg Bool.false_ne_true]
      dsimp only
      omega

/-- The loop finds what the dispatch has to look at. -/
theorem StandsFor.loop {s : EventTarget L} {a : Dispatches L} (h : StandsFor s a)
    (hruns : s.scriptRuns = false) :
    ∃ outcome s' a', s.loop = some (outcome, s') ∧ a.loop = some (outcome, a') ∧
      StandsFor s' a' := by
  obtain ⟨f, fs, hfiring⟩ : ∃ f fs, s.firing = f :: fs := by
    refine List.exists_cons_of_ne_nil fun hnil => ?_
    rw [EventTarget.scriptRuns, hnil] at hruns
    cases hruns
  have hhandling : f.handling = false := by
    rw [EventTarget.scriptRuns, hfiring] at hruns
    exact hruns
  obtain ⟨data, d, ds, hdata, hiterators, hdispatches, hfollows, hrest⟩ := h.last hfiring
  have hfind : ∀ t, s.find t = data.eventListenerMap.find t := fun t => by
    rw [EventTarget.find, hdata]
  -- the end of the loop is the end of the dispatch
  have hend : ¬f.iterator < f.finish → (d.todo = [] ∨ d.cut = true) →
      ∃ outcome s' a', s.loop = some (outcome, s') ∧ a.loop = some (outcome, a') ∧
        StandsFor s' a' := by
    intro hover hdone
    refine ⟨.finish, ({ s with
        eventTargetData := some { data with firingEventIterators := fs } } : EventTarget L).report
          [ActionLogScopeEnd], { a with dispatches := ds }, ?_, ?_,
      h.pop hfiring ((shows_setFiring hdata fs).congr rfl rfl) hrest⟩
    · rw [EventTarget.loop, hdata]
      simp only [hiterators, if_neg hover]
    · rw [Dispatches.loop, hdispatches]
      rcases htodo : d.todo with _ | ⟨r, todo⟩
      · simp only [htodo]
      · have hcut := hdone.resolve_left (by rw [htodo]; exact List.cons_ne_nil _ _)
        simp only [htodo, hcut, ↓reduceIte]
  cases hfollows.placed with
  | drained finish passed todo cut => exact hend (by omega) (Or.inl todo)
  | wrapped far small cut => exact hend (by omega) (Or.inr cut)
  | live v found alive bound rest passed small cut =>
    rw [position, if_neg (by rw [hhandling]; exact Bool.false_ne_true)] at passed
    have hlen : (d.passed ++ d.todo).length = f.finish := by
      rw [← rest, List.length_take, Nat.min_eq_left bound]
    rw [List.length_append] at hlen
    rcases htodo : d.todo with _ | ⟨r, todo⟩
    · refine hend ?_ (Or.inl htodo)
      rw [htodo, List.length_nil] at hlen
      omega
    · rw [htodo, List.length_cons] at hlen
      have hin : f.iterator < f.finish := by omega
      have hentry : entryAt data f = some r := by
        rw [entryAt, ← hfind, found]
        simp only [alive, ↓reduceIte]
        rw [← List.getElem?_take_of_lt hin, rest, htodo]
        exact List.getElem?_append_cons passed.symm
      have hsucc : sizeSucc f.iterator = f.iterator + 1 := Nat.mod_eq_of_lt (by
        have := h.valid.bound _ v found
        unfold maxListeners at this
        omega)
      have hrest' : v.listeners.take f.finish = (d.passed ++ [r]) ++ todo := by
        rw [rest, htodo, List.append_assoc]
        rfl
      have hpassed' : (d.passed ++ [r]).length = sizeSucc f.iterator := by
        rw [List.length_append, passed, hsucc]
        rfl
      rw [EventTarget.loop, Dispatches.loop, hdata, hdispatches]
      simp only [hiterators, htodo, cut, if_pos hin, hentry, Option.map_some, Bool.false_eq_true,
        ↓reduceIte]
      have hconcerns' : d.event.concerns r = f.event.concerns r := by rw [hfollows.event]
      have hstopped' : d.event.identity ∈ a.immediatePropagationStopped ↔
          f.event.identity ∈ s.immediatePropagationStopped := by
        rw [hfollows.event, h.stopped]
      cases hconcerns : f.event.concerns r with
      | false =>
        -- the listener is for another phase
        have hnext : Follows s.find { f with iterator := sizeSucc f.iterator }
            { d with passed := d.passed ++ [r], todo := todo, cut := false } := by
          refine ⟨hfollows.event, hfollows.running, .live v found alive bound hrest' ?_
            (Nat.mod_lt _ (Nat.two_pow_pos 64)) rfl⟩
          rw [position, if_neg (by rw [hhandling]; exact Bool.false_ne_true)]
          exact hpassed'
        simp only [hconcerns', hconcerns, Bool.not_false, ↓reduceIte]
        exact ⟨_, _, _, rfl, rfl, h.set hfiring (shows_setFiring hdata _) rfl hnext hrest⟩
      | true =>
        simp only [hconcerns', hconcerns, Bool.not_true, Bool.false_eq_true, ↓reduceIte, hstopped']
        split
        · exact ⟨_, _, _, rfl, rfl,
            h.pop hfiring ((shows_setFiring hdata fs).congr rfl rfl) hrest⟩
        · have hnext : Follows s.find { f with handling := true }
              { d with
                called := d.called ++ [r], passed := d.passed ++ [r], todo := todo
                running := true, cut := false } :=
            ⟨hfollows.event, rfl, .live v found alive bound hrest' hpassed' small rfl⟩
          exact ⟨_, _, _, rfl, rfl, h.set hfiring (shows_setFiring hdata _) rfl hnext hrest⟩

/-! ## Runs -/

/-- A target that has no data stands for nothing registered. -/
theorem standsFor_init {s : EventTarget L} (h : s.eventTargetData = none) :
    StandsFor s ⟨fun _ => [], [], s.immediatePropagationStopped⟩ := by
  have hfind : ∀ t, s.find t = none := fun t => by rw [EventTarget.find, h]
  have hfiring : s.firing = [] := by rw [EventTarget.firing, h]
  refine .of_shows (shows_self s)
    { nonempty := by simp [hfind]
      nodup := by simp [hfind]
      bound := by simp [hfind]
      old := by simp [hfind]
      entries := by simp [hfiring]
      waiting := by simp [hfiring] } (fun t => by rw [hfind]; rfl) (by rw [hfiring]; exact .nil) rfl

variable [DecidableEq L]

/-- Each step of a target is one of the dispatches. -/
theorem standsFor_step (self : EventTargetObject) (isAttribute : L → Bool) {s s' : EventTarget L}
    {a : Dispatches L} {l : Label L} (h : StandsFor s a)
    (hstep : s.step self isAttribute l = some s') :
    ∃ a', a.step isAttribute l = some a' ∧ StandsFor s' a' := by
  -- a script may run on both sides or on neither
  have hscript := h.scriptRuns
  cases l with
  | addEventListener t r =>
    simp only [step, Option.ite_none_right_eq_some, Option.map_eq_some_iff] at hstep
    obtain ⟨hruns, ⟨added, s''⟩, hadd, rfl⟩ := hstep
    exact ⟨_, by simp only [Dispatches.step, hscript, hruns, ↓reduceIte], h.add hadd⟩
  | removeEventListener t r =>
    simp only [step, Option.ite_none_right_eq_some, Option.some.injEq] at hstep
    obtain ⟨hruns, rfl⟩ := hstep
    exact ⟨_, by simp only [Dispatches.step, hscript, hruns, ↓reduceIte], h.remove hruns⟩
  | setAttributeEventListener t listener =>
    simp only [step, Option.ite_none_right_eq_some, Option.map_eq_some_iff] at hstep
    obtain ⟨hruns, ⟨added, s''⟩, hset, rfl⟩ := hstep
    exact ⟨_, by simp only [Dispatches.step, hscript, hruns, ↓reduceIte],
      h.setAttribute hruns hset⟩
  | removeAllEventListeners =>
    simp only [step, Option.ite_none_right_eq_some, Option.some.injEq] at hstep
    obtain ⟨hruns, rfl⟩ := hstep
    exact ⟨_, by simp only [Dispatches.step, hscript, hruns, ↓reduceIte], h.removeAll⟩
  | fireEventListeners event =>
    simp only [step, Option.ite_none_right_eq_some, Option.some.injEq] at hstep
    obtain ⟨hruns, rfl⟩ := hstep
    exact ⟨_, by simp only [Dispatches.step, hscript, hruns, ↓reduceIte], h.fire hruns⟩
  | stopImmediatePropagation event =>
    simp only [step, Option.ite_none_right_eq_some, Option.some.injEq] at hstep
    obtain ⟨hruns, rfl⟩ := hstep
    refine ⟨_, by simp only [Dispatches.step, hscript, hruns, ↓reduceIte]; rfl, ?_⟩
    exact ⟨h.valid, h.listeners, h.firing, by rw [h.stopped]⟩
  | loop outcome =>
    simp only [step, Option.ite_none_left_eq_some, Option.bind_eq_some_iff,
      Option.ite_none_right_eq_some, Option.some.injEq] at hstep
    obtain ⟨hruns, ⟨outcome', s''⟩, hloop, rfl, rfl⟩ := hstep
    rw [Bool.not_eq_true] at hruns
    obtain ⟨outcome, s₂, a', hloop', haloop, hfollows⟩ := h.loop hruns
    -- both loops are the same one
    rw [hloop, Option.some.injEq, Prod.mk.injEq] at hloop'
    obtain ⟨rfl, rfl⟩ := hloop'
    refine ⟨a', ?_, hfollows⟩
    simp only [Dispatches.step, hscript, hruns, haloop, Option.bind_some, Bool.false_eq_true,
      ↓reduceIte]
  | handled =>
    simp only [step, Option.ite_none_right_eq_some, Option.some.injEq] at hstep
    obtain ⟨⟨hne, hruns⟩, rfl⟩ := hstep
    -- there is a dispatch for the activation that handles its event
    have hne' : a.dispatches ≠ [] := by
      intro hnil
      have hfiring := h.firing
      rw [hnil, List.forall₂_nil_right_iff] at hfiring
      exact hne hfiring
    exact ⟨_, by simp only [Dispatches.step, hscript, if_pos (And.intro hne' hruns)],
      h.handled hruns hne⟩

/-- The targets are simulated by the dispatches. -/
theorem simulation (self : EventTargetObject) (isAttribute : L → Bool) :
    Lts.Simulation (EventTarget.system self isAttribute) (Dispatches.system isAttribute)
      StandsFor where
  init _ h := ⟨_, ⟨fun _ => rfl, rfl⟩, standsFor_init h⟩
  step _ _ _ _ h hstep := standsFor_step self isAttribute h hstep

/-! ## What a dispatch calls -/

/-- What was called and what is to come are found listeners, in the order in which they were
    registered. What was called was meant for the phase. -/
structure Dispatch.InOrder (d : Dispatch L) : Prop where
  sublist : (d.called ++ d.todo).Sublist d.found
  concerns : ∀ r ∈ d.called, d.event.concerns r = true

/-- Forgetting a listener keeps the order of a dispatch. -/
theorem Dispatch.InOrder.forget {d : Dispatch L} (h : d.InOrder) (t : AtomicString)
    (key : L × Bool) : (d.forget t key).InOrder := by
  rw [Dispatch.forget]
  split
  · exact h
  · exact ⟨(List.Sublist.append_left List.eraseP_sublist _).trans h.sublist, h.concerns⟩

omit [DecidableEq L] in
/-- So does forgetting them all. -/
theorem Dispatch.InOrder.forgetAll {d : Dispatch L} (h : d.InOrder) : d.forgetAll.InOrder :=
  ⟨(List.Sublist.append_left (List.nil_sublist _) _).trans h.sublist, h.concerns⟩

omit [DecidableEq L] in
/-- Registering a listener changes no dispatch. -/
theorem dispatches_add [DecidableEq L] (a : Dispatches L) (t : AtomicString)
    (r : RegisteredEventListener L) : (a.add t r).dispatches = a.dispatches := by
  rw [Dispatches.add]
  split <;> rfl

/-- Whatever a removal keeps of all dispatches. -/
theorem forall_remove {P : Dispatch L → Prop} {a : Dispatches L} {t : AtomicString}
    {r : RegisteredEventListener L} (h : ∀ d ∈ a.dispatches, P d)
    (hforget : ∀ d ∈ a.dispatches, P (d.forget t r.key)) :
    ∀ d ∈ (a.remove t r).dispatches, P d := by
  intro d hd
  dsimp only [Dispatches.remove] at hd
  split at hd
  · obtain ⟨d', hd', rfl⟩ := List.mem_map.mp hd
    exact hforget d' hd'
  · exact h d hd

/-- Removing the listener of an attribute keeps the order. -/
theorem inOrder_clearAttribute {isAttribute : L → Bool} {a : Dispatches L} {t : AtomicString}
    (h : ∀ d ∈ a.dispatches, d.InOrder) :
    ∀ d ∈ (a.clearAttribute isAttribute t).dispatches, d.InOrder := by
  rw [Dispatches.clearAttribute]
  split
  · exact h
  · exact forall_remove h fun d hd => (h d hd).forget _ _

omit [DecidableEq L] in
/-- A dispatch that goes on keeps the order: what it passes was the first that was ahead. -/
theorem inOrder_loop {a a' : Dispatches L} {outcome : LoopOutcome L}
    (h : ∀ d ∈ a.dispatches, d.InOrder) (hloop : a.loop = some (outcome, a')) :
    ∀ d ∈ a'.dispatches, d.InOrder := by
  rw [Dispatches.loop] at hloop
  cases hdispatches : a.dispatches with
  | nil =>
    rw [hdispatches] at hloop
    cases hloop
  | cons d ds =>
    rw [hdispatches] at h hloop
    obtain ⟨hd, hds⟩ := List.forall_mem_cons.mp h
    have hsub := hd.sublist
    rcases htodo : d.todo with _ | ⟨r, todo⟩
    · -- nothing is ahead: the dispatch ends
      simp only [htodo, Option.some.injEq, Prod.mk.injEq] at hloop
      rw [← hloop.2]
      exact hds
    · rw [htodo] at hsub
      simp only [htodo] at hloop
      split at hloop
      · -- the dispatch was cut off: it ends
        simp only [Option.some.injEq, Prod.mk.injEq] at hloop
        rw [← hloop.2]
        exact hds
      · split at hloop
        · -- the event does not concern the listener: it is passed, and the rest stays in order
          simp only [Option.some.injEq, Prod.mk.injEq] at hloop
          rw [← hloop.2]
          refine List.forall_mem_cons.mpr ⟨⟨?_, hd.concerns⟩, hds⟩
          exact (List.Sublist.append_left (List.sublist_cons_self r todo) _).trans hsub
        · next hconcerns =>
          split at hloop
          · -- the dispatch was stopped: it ends
            simp only [Option.some.injEq, Prod.mk.injEq] at hloop
            rw [← hloop.2]
            exact hds
          · -- the listener is called: it goes from what is ahead to what was called
            simp only [Option.some.injEq, Prod.mk.injEq] at hloop
            rw [← hloop.2]
            refine List.forall_mem_cons.mpr ⟨⟨?_, fun r' hr' => ?_⟩, hds⟩
            · rw [List.append_assoc]
              exact hsub
            · rcases List.mem_append.mp hr' with hr' | hr'
              · exact hd.concerns r' hr'
              · obtain rfl := List.mem_singleton.mp hr'
                simpa using hconcerns

/-- Every step keeps the order. -/
theorem inOrder_step {isAttribute : L → Bool} {a a' : Dispatches L} {l : Label L}
    (h : ∀ d ∈ a.dispatches, d.InOrder) (hstep : a.step isAttribute l = some a') :
    ∀ d ∈ a'.dispatches, d.InOrder := by
  cases l with
  | addEventListener t r =>
    simp only [Dispatches.step, Option.ite_none_right_eq_some, Option.some.injEq] at hstep
    rw [← hstep.2, dispatches_add]
    exact h
  | removeEventListener t r =>
    simp only [Dispatches.step, Option.ite_none_right_eq_some, Option.some.injEq] at hstep
    rw [← hstep.2]
    exact forall_remove h fun d hd => (h d hd).forget _ _
  | setAttributeEventListener t listener =>
    simp only [Dispatches.step, Option.ite_none_right_eq_some, Option.some.injEq] at hstep
    rw [← hstep.2]
    cases listener with
    -- removing the listener of the attribute keeps the order, and adding one changes no dispatch
    | none => exact inOrder_clearAttribute h
    | some listener =>
      rw [Dispatches.setAttribute, dispatches_add]
      exact inOrder_clearAttribute h
  | removeAllEventListeners =>
    simp only [Dispatches.step, Option.ite_none_right_eq_some, Option.some.injEq] at hstep
    rw [← hstep.2]
    intro d hd
    obtain ⟨d', hd', rfl⟩ := List.mem_map.mp hd
    exact (h d' hd').forgetAll
  | fireEventListeners event =>
    simp only [Dispatches.step, Option.ite_none_right_eq_some, Option.some.injEq] at hstep
    rw [← hstep.2, Dispatches.fire]
    split
    · exact h
    · exact List.forall_mem_cons.mpr
        ⟨⟨List.Sublist.refl _, fun r hr => absurd hr List.not_mem_nil⟩, h⟩
  | stopImmediatePropagation event =>
    simp only [Dispatches.step, Option.ite_none_right_eq_some, Option.some.injEq] at hstep
    rw [← hstep.2]
    exact h
  | loop outcome =>
    simp only [Dispatches.step, Option.ite_none_left_eq_some, Option.bind_eq_some_iff,
      Option.ite_none_right_eq_some, Option.some.injEq] at hstep
    obtain ⟨-, ⟨outcome', a''⟩, hloop, -, rfl⟩ := hstep
    exact inOrder_loop h hloop
  | handled =>
    simp only [Dispatches.step, Option.ite_none_right_eq_some, Option.some.injEq] at hstep
    rw [← hstep.2, Dispatches.handled]
    cases hdispatches : a.dispatches with
    | nil => exact absurd hdispatches hstep.1.1
    | cons d ds =>
      -- only whether its handler runs changes of the last dispatch
      rw [hdispatches] at h
      obtain ⟨hd, hds⟩ := List.forall_mem_cons.mp h
      exact List.forall_mem_cons.mpr ⟨⟨hd.sublist, hd.concerns⟩, hds⟩

/-- In every run the dispatches are in order. -/
theorem inOrder_of_runs {isAttribute : L → Bool} {a : Dispatches L} {ls : List (Label L)}
    (r : (Dispatches.system isAttribute).Runs ls a) : ∀ d ∈ a.dispatches, d.InOrder := by
  refine r.reachable.invariant (P := fun a => ∀ d ∈ a.dispatches, d.InOrder) ?_ ?_
  · intro a hinit
    rw [hinit.2]
    exact List.forall_mem_nil _
  · intro a l a' _ h hstep
    exact inOrder_step h hstep

/-- Every run of a target is a run of the dispatches: whatever the listeners do, each one that is
    called is the next one that its dispatch has to look at, and no activation touches a vector
    that is gone or an index that its vector does not have. -/
theorem event_target_dispatches (self : EventTargetObject) (isAttribute : L → Bool)
    {ls : List (Label L)} {s : EventTarget L}
    (r : (EventTarget.system self isAttribute).Runs ls s) :
    ∃ a, (Dispatches.system isAttribute).Runs ls a ∧ StandsFor s a ∧
      (∀ d ∈ a.dispatches, d.InOrder) ∧
      (s.scriptRuns = false →
        ∃ outcome s', s.step self isAttribute (.loop outcome) = some s') := by
  obtain ⟨a, ha, hstands⟩ := (simulation self isAttribute).runs r
  refine ⟨a, ha, hstands, inOrder_of_runs ha, fun hruns => ?_⟩
  obtain ⟨outcome, s', -, hloop, -⟩ := hstands.loop hruns
  exact ⟨outcome, s', by
    simp only [step, hruns, hloop, Option.bind_some, Bool.false_eq_true, ↓reduceIte]⟩

/-! ### A run with three listeners -/

/-- A `DIV`. -/
def divElement : EventTargetObject := ⟨16, some (16, [68, 73, 86])⟩

/-- A target for which nothing has happened. -/
def freshTarget : EventTarget Nat := ⟨none, [], .init, []⟩

/-- `click`. -/
def clickType : AtomicString := [99, 108, 105, 99, 107]

/-- A listener for bubbling events. -/
def bubbling (n : Nat) : RegisteredEventListener Nat := ⟨⟨4096 + 16 * n, n⟩, false⟩

/-- Three listeners, the first of which removes itself and the second one. -/
def removingListeners : List (Label Nat) :=
  [.addEventListener clickType (bubbling 1), .addEventListener clickType (bubbling 2),
    .addEventListener clickType (bubbling 3),
    .fireEventListeners ⟨0, clickType, .atTarget⟩, .loop (.call (bubbling 1)),
    .removeEventListener clickType (bubbling 1), .removeEventListener clickType (bubbling 2),
    .handled, .loop .finish]

/-- What a run computes. -/
theorem runs_of_foldlM {self : EventTargetObject} {isAttribute : L → Bool}
    (ok : EventTarget L → Label L → Prop) [∀ s l, Decidable (ok s l)] {s s' : EventTarget L}
    {ls : List (Label L)} (hinit : s.eventTargetData = none)
    (h : ls.foldlM (fun s l => if ok s l then s.step self isAttribute l else none) s = some s') :
    ((EventTarget.system self isAttribute).restrict ok).Runs ls s' :=
  Lts.Runs.foldlM ok (T := EventTarget.system self isAttribute) (fun _ _ _ h => h) (.nil hinit) h

/-- A run in which the first listener removes itself and the second one. -/
theorem event_target_dispatches_of_removing :
    ∃ s : EventTarget Nat, ∃ a,
      (Dispatches.system fun _ => false).Runs removingListeners a ∧ StandsFor s a ∧
      (∀ d ∈ a.dispatches, d.InOrder) ∧
      (s.scriptRuns = false →
        ∃ outcome s', s.step divElement (fun _ => false) (.loop outcome) = some s') := by
  have hrun : (removingListeners.foldlM (fun s l => if True then
      s.step divElement (fun _ => false) l else none) freshTarget).isSome = true := by
    decide +kernel
  obtain ⟨s, hs⟩ := Option.isSome_iff_exists.mp hrun
  exact ⟨s, event_target_dispatches divElement (fun _ => false)
    (runs_of_foldlM (fun _ _ => True) rfl hs).of_restrict⟩

/-! ## Dispatches that are cut off -/

/-- No activation whose index has wrapped around has the removed listener in front of its end. -/
def RemovalKeepsPlace (s : EventTarget L) (t : AtomicString) (r : RegisteredEventListener L) :
    Prop :=
  ∀ f ∈ s.firing, f.event.type = t → f.iterator = 2 ^ 64 - 1 →
    ∀ index ∈ (s.find t).bind fun vector => EventListenerMap.indexOf vector r, f.finish ≤ index

instance (s : EventTarget L) (t : AtomicString) (r : RegisteredEventListener L) :
    Decidable (RemovalKeepsPlace s t r) :=
  inferInstanceAs (Decidable (∀ f ∈ s.firing, _ → _ → ∀ index ∈ _, _))

/-- The same of a step. Setting the listener of an attribute removes the one that is set. -/
def KeepsPlace (self : EventTargetObject) (isAttribute : L → Bool) (s : EventTarget L) :
    Label L → Prop
  | .removeEventListener t r => RemovalKeepsPlace s t r
  | .setAttributeEventListener t _ =>
    ∀ listener ∈ (s.getAttributeEventListener self isAttribute t).1,
      RemovalKeepsPlace s t ⟨listener, false⟩
  | _ => True

instance (self : EventTargetObject) (isAttribute : L → Bool) (s : EventTarget L) (l : Label L) :
    Decidable (KeepsPlace self isAttribute s l) :=
  match l with
  | .removeEventListener _ _ => inferInstanceAs (Decidable (RemovalKeepsPlace _ _ _))
  | .setAttributeEventListener _ _ => inferInstanceAs (Decidable (∀ listener ∈ _, _))
  | .addEventListener _ _ => isTrue trivial
  | .removeAllEventListeners => isTrue trivial
  | .fireEventListeners _ => isTrue trivial
  | .stopImmediatePropagation _ => isTrue trivial
  | .loop _ => isTrue trivial
  | .handled => isTrue trivial

/-- Nothing has been cut off. -/
def NoneCut (a : Dispatches L) : Prop := ∀ d ∈ a.dispatches, d.cut = false

/-- When a removal cuts off a dispatch. -/
theorem Follows.cut_forget_iff {find : AtomicString → Option (EventListenerVector L)}
    {f : FiringEventIterator} {d : Dispatch L} {r : RegisteredEventListener L}
    {vector : EventListenerVector L} {index : Nat} (h : Follows find f d) (hcut : d.cut = false)
    (hhandling : f.handling = true) (hfind : find f.event.type = some vector)
    (hbound : vector.listeners.length ≤ maxListeners)
    (hindex : EventListenerMap.indexOf vector r = some index) :
    (d.forget f.event.type r.key).cut = false ↔
      (f.iterator = 2 ^ 64 - 1 → f.finish ≤ index) := by
  have hevent : d.forget f.event.type r.key = d.forget d.event.type r.key := by rw [h.event]
  obtain ⟨-, hidx⟩ := indexOf_eq_some hindex
  rw [hevent, forget_self]
  simp only [hcut, h.running, hhandling, Bool.false_or, Bool.and_true]
  cases h.placed with
  | drained finish passed todo cut => simp [todo, finish]
  | wrapped far small cut =>
    rw [hcut] at cut
    cases cut
  | live v found alive bound rest passed small cut =>
    obtain rfl : v = vector := Option.some.inj (found.symm.trans hfind)
    rw [position, if_pos hhandling] at passed
    have hsplit : v.listeners = (d.passed ++ d.todo) ++ v.listeners.drop f.finish := by
      rw [← rest, List.take_append_drop]
    have hlen : (d.passed ++ d.todo).length = f.finish := by
      rw [← rest, List.length_take, Nat.min_eq_left bound]
    have hempty : d.passed.isEmpty = true ↔ f.iterator = 2 ^ 64 - 1 := by
      rw [List.isEmpty_iff, ← List.length_eq_zero_iff, passed, sizeSucc]
      omega
    rw [Bool.and_eq_false_imp, hempty]
    refine imp_congr_right fun hiterator => ?_
    have hnil : d.passed = [] := List.isEmpty_iff.mp (hempty.mpr hiterator)
    rw [hnil, List.nil_append] at hsplit hlen
    -- the removed listener is one of those to come if its index is in front of the end
    have hin := List.findIdx_append_lt_length_iff (q := isRemoved r) (l := d.todo)
      (v.listeners.drop f.finish)
    rw [← hsplit, hidx, hlen, ← List.any_eq_true] at hin
    rw [← Bool.not_eq_true, ← hin, Nat.not_lt]

/-- A removal cuts off no dispatch if and only if it keeps the place of each. -/
theorem StandsFor.noneCut_remove_iff {s : EventTarget L} {a : Dispatches L} {t : AtomicString}
    {r : RegisteredEventListener L} (h : StandsFor s a) (hruns : s.scriptRuns = true)
    (hnone : NoneCut a) : NoneCut (a.remove t r) ↔ RemovalKeepsPlace s t r := by
  have hhandling := h.valid.handling hruns
  by_cases hmem : r.key ∈ (a.listeners t).map RegisteredEventListener.key
  · -- the listener is registered, and so has a vector and an index there
    obtain ⟨v, hfind⟩ : ∃ v, s.find t = some v := by
      rw [h.listeners] at hmem
      cases hfind : s.find t with
      | none =>
        rw [hfind] at hmem
        cases hmem
      | some v => exact ⟨v, rfl⟩
    have hlisteners : a.listeners t = v.listeners := by
      rw [h.listeners, hfind]
      rfl
    obtain ⟨index, hindex⟩ := Option.isSome_iff_exists.mp
      (isSome_indexOf_iff.mpr (hlisteners ▸ hmem))
    -- an activation on that type is cut off if its index has wrapped and goes behind its end
    have hiff : ∀ f d, f ∈ s.firing → Follows s.find f d → d.cut = false →
        ((d.forget t r.key).cut = false ↔
          (f.event.type = t → f.iterator = 2 ^ 64 - 1 → f.finish ≤ index)) := by
      intro f d hf hfollows hcut
      by_cases ht : f.event.type = t
      · subst ht
        -- on the type of the listener
        rw [hfollows.cut_forget_iff hcut (hhandling f hf) hfind (h.valid.bound _ v hfind) hindex]
        exact ⟨fun himp _ => himp, fun himp => himp rfl⟩
      · -- on another type the dispatch stays as it is
        have hsame : d.forget t r.key = d := by
          rw [Dispatch.forget, if_pos]
          rw [hfollows.event]
          exact Ne.symm ht
        rw [hsame]
        exact iff_of_true hcut fun heq => absurd heq ht
    have hremove : NoneCut (a.remove t r) ↔
        ∀ d ∈ a.dispatches, (d.forget t r.key).cut = false := by
      dsimp only [NoneCut, Dispatches.remove]
      rw [if_pos hmem, List.forall_mem_map]
    have hkeeps : RemovalKeepsPlace s t r ↔
        ∀ f ∈ s.firing, f.event.type = t → f.iterator = 2 ^ 64 - 1 → f.finish ≤ index := by
      rw [RemovalKeepsPlace, hfind, Option.bind_some, hindex]
      refine forall₂_congr fun f hf => forall₂_congr fun ht hiterator => ?_
      exact ⟨fun himp => himp index rfl, fun hle index' hindex' => Option.some.inj hindex' ▸ hle⟩
    rw [hremove, hkeeps]
    -- the activations stand for the dispatches one by one
    have hpairs : List.Forall₂ (fun f d => (f.event.type = t → f.iterator = 2 ^ 64 - 1 →
        f.finish ≤ index) ↔ (d.forget t r.key).cut = false) s.firing a.dispatches := by
      refine List.forall₂_iff_zip.mpr ⟨h.firing.length_eq, fun {f d} hpair => ?_⟩
      obtain ⟨hf, hd⟩ := List.of_mem_zip hpair
      exact (hiff f d hf (List.forall₂_zip h.firing hpair) (hnone d hd)).symm
    exact (List.forall_mem_iff_of_forall₂ hpairs).symm
  · -- the listener is not registered, so that nothing is removed
    rw [Dispatches.remove_of_notMem hmem]
    refine iff_of_true hnone fun f hf ht hiterator index hindex => absurd ?_ hmem
    obtain ⟨v, hfind, hindex⟩ := Option.bind_eq_some_iff.mp hindex
    rw [h.listeners, hfind, Option.map_some, Option.getD_some, ← isSome_indexOf_iff, hindex]
    rfl

/-- The same for the listener of an attribute, if there is one. -/
theorem StandsFor.noneCut_clearAttribute_iff {self : EventTargetObject} {isAttribute : L → Bool}
    {s : EventTarget L} {a : Dispatches L} {t : AtomicString} (h : StandsFor s a)
    (hruns : s.scriptRuns = true) (hnone : NoneCut a) :
    NoneCut (a.clearAttribute isAttribute t) ↔
      ∀ listener ∈ (s.getAttributeEventListener self isAttribute t).1,
        RemovalKeepsPlace s t ⟨listener, false⟩ := by
  have hget : (s.getAttributeEventListener self isAttribute t).1 =
      ((a.listeners t).find? fun r => isAttribute r.listener.value).map
        RegisteredEventListener.listener := by
    rw [h.listeners]
    rfl
  rw [Dispatches.clearAttribute, hget]
  cases (a.listeners t).find? fun r => isAttribute r.listener.value with
  | none => exact iff_of_true hnone fun listener hlistener => by cases hlistener
  | some r =>
    have hiff := h.noneCut_remove_iff (t := t) (r := ⟨r.listener, false⟩) hruns hnone
    refine ⟨fun hnone' listener hlistener => ?_, fun hkeeps => hiff.mpr (hkeeps _ rfl)⟩
    exact Option.some.inj hlistener ▸ hiff.mp hnone'

omit [DecidableEq L] in
/-- A dispatch that goes on is not cut off by that. -/
theorem noneCut_loop {a a' : Dispatches L} {outcome : LoopOutcome L} (h : NoneCut a)
    (hloop : a.loop = some (outcome, a')) : NoneCut a' := by
  rw [Dispatches.loop] at hloop
  rw [NoneCut] at h
  cases hdispatches : a.dispatches with
  | nil =>
    rw [hdispatches] at hloop
    cases hloop
  | cons d ds =>
    rw [hdispatches] at h hloop
    obtain ⟨hd, hds⟩ := List.forall_mem_cons.mp h
    rcases htodo : d.todo with _ | ⟨r, todo⟩
    · -- the dispatch ends, and the others are as they were
      simp only [htodo, Option.some.injEq, Prod.mk.injEq] at hloop
      rw [← hloop.2]
      exact hds
    · simp only [htodo, hd, Bool.false_eq_true, ↓reduceIte] at hloop
      split at hloop
      · -- what has been passed grows, but nothing is cut off
        simp only [Option.some.injEq, Prod.mk.injEq] at hloop
        rw [← hloop.2]
        exact List.forall_mem_cons.mpr ⟨rfl, hds⟩
      · split at hloop
        · -- the dispatch was stopped
          simp only [Option.some.injEq, Prod.mk.injEq] at hloop
          rw [← hloop.2]
          exact hds
        · -- the listener is called
          simp only [Option.some.injEq, Prod.mk.injEq] at hloop
          rw [← hloop.2]
          exact List.forall_mem_cons.mpr ⟨rfl, hds⟩

/-- A step cuts off a dispatch exactly where it does not keep the place of an activation. -/
theorem StandsFor.noneCut_step_iff {self : EventTargetObject} {isAttribute : L → Bool}
    {s : EventTarget L} {a a' : Dispatches L} {l : Label L} (h : StandsFor s a)
    (hnone : NoneCut a) (hstep : a.step isAttribute l = some a') :
    NoneCut a' ↔ KeepsPlace self isAttribute s l := by
  have hscript := h.scriptRuns
  cases l with
  | addEventListener t r =>
    simp only [Dispatches.step, Option.ite_none_right_eq_some, Option.some.injEq] at hstep
    -- adding a listener changes no dispatch
    rw [← hstep.2, NoneCut, dispatches_add]
    exact iff_of_true hnone trivial
  | removeEventListener t r =>
    simp only [Dispatches.step, Option.ite_none_right_eq_some, Option.some.injEq] at hstep
    rw [← hstep.2]
    exact h.noneCut_remove_iff (hscript ▸ hstep.1) hnone
  | setAttributeEventListener t listener =>
    simp only [Dispatches.step, Option.ite_none_right_eq_some, Option.some.injEq] at hstep
    -- the listener that is set instead changes no dispatch either
    have hdispatches : (a.setAttribute isAttribute t listener).dispatches =
        (a.clearAttribute isAttribute t).dispatches := by
      cases listener with
      | none => rfl
      | some listener => exact dispatches_add _ _ _
    rw [← hstep.2, NoneCut, hdispatches]
    exact h.noneCut_clearAttribute_iff (hscript ▸ hstep.1) hnone
  | removeAllEventListeners =>
    simp only [Dispatches.step, Option.ite_none_right_eq_some, Option.some.injEq] at hstep
    rw [← hstep.2]
    -- with all listeners gone nothing is left to be cut off
    refine iff_of_true (fun d hd => ?_) trivial
    obtain ⟨d', hd', rfl⟩ := List.mem_map.mp hd
    rfl
  | fireEventListeners event =>
    simp only [Dispatches.step, Option.ite_none_right_eq_some, Option.some.injEq] at hstep
    rw [← hstep.2, Dispatches.fire]
    -- a new dispatch has lost nothing
    refine iff_of_true ?_ trivial
    split
    · exact hnone
    · exact List.forall_mem_cons.mpr ⟨rfl, hnone⟩
  | stopImmediatePropagation event =>
    simp only [Dispatches.step, Option.ite_none_right_eq_some, Option.some.injEq] at hstep
    rw [← hstep.2]
    exact iff_of_true hnone trivial
  | loop outcome =>
    simp only [Dispatches.step, Option.ite_none_left_eq_some, Option.bind_eq_some_iff,
      Option.ite_none_right_eq_some, Option.some.injEq] at hstep
    obtain ⟨-, ⟨outcome', a''⟩, hloop, -, rfl⟩ := hstep
    exact iff_of_true (noneCut_loop hnone hloop) trivial
  | handled =>
    simp only [Dispatches.step, Option.ite_none_right_eq_some, Option.some.injEq] at hstep
    rw [← hstep.2, Dispatches.handled]
    refine iff_of_true ?_ trivial
    cases hdispatches : a.dispatches with
    | nil => exact absurd hdispatches hstep.1.1
    | cons d ds =>
      rw [NoneCut, hdispatches] at hnone
      -- of the last dispatch only the handler changes
      obtain ⟨hd, hds⟩ := List.forall_mem_cons.mp hnone
      exact List.forall_mem_cons.mpr ⟨hd, hds⟩

/-- In a run in which every step keeps the places of all activations no dispatch is cut off: it
    calls all listeners that it has to, unless the event is stopped. The next step cuts off a
    dispatch exactly if it does not keep a place. -/
theorem dispatches_are_complete (self : EventTargetObject) (isAttribute : L → Bool)
    {ls : List (Label L)} {s : EventTarget L}
    (r : ((EventTarget.system self isAttribute).restrict
      (KeepsPlace self isAttribute)).Runs ls s) :
    ∃ a, (Dispatches.system isAttribute).Runs ls a ∧ StandsFor s a ∧ NoneCut a ∧
      ∀ l s', s.step self isAttribute l = some s' → ∃ a', a.step isAttribute l = some a' ∧
        StandsFor s' a' ∧ (NoneCut a' ↔ KeepsPlace self isAttribute s l) := by
  -- the simulation of all runs, with nothing cut off as long as every removal keeps the places
  have hsim : Lts.Simulation
      ((EventTarget.system self isAttribute).restrict (KeepsPlace self isAttribute))
      (Dispatches.system isAttribute) (fun s a => StandsFor s a ∧ NoneCut a) := by
    constructor
    · intro s hinit
      obtain ⟨a, ha, hstands⟩ := (simulation self isAttribute).init s hinit
      refine ⟨a, ha, hstands, ?_⟩
      -- at the start there is no dispatch
      rw [NoneCut, ha.2]
      exact List.forall_mem_nil _
    · rintro s l s' a ⟨hstands, hnone⟩ ⟨hkeeps, hstep⟩
      obtain ⟨a', hastep, hstands'⟩ := standsFor_step self isAttribute hstands hstep
      exact ⟨a', hastep, hstands', (hstands.noneCut_step_iff hnone hastep).mpr hkeeps⟩
  obtain ⟨a, ha, hstands, hnone⟩ := hsim.runs r
  -- one more step after the run, which may cut something off
  refine ⟨a, ha, hstands, hnone, fun l s' hstep => ?_⟩
  obtain ⟨a', hastep, hstands'⟩ := standsFor_step self isAttribute hstands hstep
  exact ⟨a', hastep, hstands', hstands.noneCut_step_iff hnone hastep⟩

/-- The first listener removes itself and adds another one, the second one removes the third. -/
def changingListeners : List (Label Nat) :=
  [.addEventListener clickType (bubbling 1), .addEventListener clickType (bubbling 2),
    .addEventListener clickType (bubbling 3),
    .fireEventListeners ⟨0, clickType, .atTarget⟩, .loop (.call (bubbling 1)),
    .removeEventListener clickType (bubbling 1), .addEventListener clickType (bubbling 4),
    .handled, .loop (.call (bubbling 2)), .removeEventListener clickType (bubbling 3), .handled]

/-- A run in which listeners are added and removed, and nothing is cut off. -/
theorem dispatches_are_complete_of_changing :
    ∃ s : EventTarget Nat, ∃ a,
      (Dispatches.system fun _ => false).Runs changingListeners a ∧ StandsFor s a ∧ NoneCut a ∧
      ∀ l s', s.step divElement (fun _ => false) l = some s' →
        ∃ a', a.step (fun _ => false) l = some a' ∧ StandsFor s' a' ∧
          (NoneCut a' ↔ KeepsPlace divElement (fun _ => false) s l) := by
  have hrun : (changingListeners.foldlM (fun s l =>
      if KeepsPlace divElement (fun _ => false) s l then s.step divElement (fun _ => false) l
      else none) freshTarget).isSome = true := by
    decide +kernel
  obtain ⟨s, hs⟩ := Option.isSome_iff_exists.mp hrun
  exact ⟨s, dispatches_are_complete divElement (fun _ => false)
    (runs_of_foldlM (KeepsPlace divElement fun _ => false) rfl hs)⟩

/-- The run of `removingListeners` takes a step that does not keep a place: its third listener is
    not called. -/
example : removingListeners.foldlM (fun s l =>
    if KeepsPlace divElement (fun _ => false) s l then s.step divElement (fun _ => false) l
    else none) freshTarget = none := by
  decide +kernel

end R4.EventDispatch
