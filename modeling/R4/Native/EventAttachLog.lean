import Mathlib.Logic.Function.Basic
import R4.ForStd.CString

/-!
# The log of attached events

`EventAttachLog` (`wtf/ActionLogReport.h`, `ActionLogReport.cpp`): the events for which listeners
have been attached, which the automatic exploration of a page triggers one after the other. There
is a queue of event targets for each type of event.

A target is a pointer to a node; `O` stands for these pointers.
-/

namespace R4

/-- `enum EventAttachLog::EventType`, without the number of its elements. -/
inductive EventAttachType where
  | keydown
  | keyup
  | keypress
  | change
  | resize
  | focus
  | blur
  | mouseover
  | mouseout
  | mouseup
  | mousedown
  | mousemove
  | dblclick
  | click
deriving DecidableEq, Repr

namespace EventAttachType

/-- The types in the order of the enumeration. -/
def all : List EventAttachType :=
  [keydown, keyup, keypress, change, resize, focus, blur, mouseover, mouseout, mouseup,
    mousedown, mousemove, dblclick, click]

/-- The value of the enumerator. -/
def toNat : EventAttachType → Nat
  | keydown => 0
  | keyup => 1
  | keypress => 2
  | change => 3
  | resize => 4
  | focus => 5
  | blur => 6
  | mouseover => 7
  | mouseout => 8
  | mouseup => 9
  | mousedown => 10
  | mousemove => 11
  | dblclick => 12
  | click => 13

/-- `EventTypeStr`. -/
def name : EventAttachType → StdString
  | keydown => "keydown".toList
  | keyup => "keyup".toList
  | keypress => "keypress".toList
  | change => "change".toList
  | resize => "resize".toList
  | focus => "focus".toList
  | blur => "blur".toList
  | mouseover => "mouseover".toList
  | mouseout => "mouseout".toList
  | mouseup => "mouseup".toList
  | mousedown => "mousedown".toList
  | mousemove => "mousemove".toList
  | dblclick => "dblclick".toList
  | click => "click".toList

/-- `StrEventType`; `none` is `EV_NUM_EVENTS`. -/
def ofName? (str : StdString) : Option EventAttachType := all.find? fun type => type.name = str

/-- Every type is looked at. -/
theorem mem_all (type : EventAttachType) : type ∈ all := by
  cases type <;> decide

/-- The types are looked at in the order of their numbers. -/
theorem pairwise_all : all.Pairwise fun t t' => t.toNat < t'.toNat := by
  decide

/-- The names tell the types apart. -/
theorem ofName?_name (type : EventAttachType) : ofName? type.name = some type := by
  cases type <;> decide

end EventAttachType

/-- `EventAttachLogImpl`. -/
structure EventAttachLog (O : Type) where
  queues : EventAttachType → List O

namespace EventAttachLog

variable {O : Type}

/-- `EventAttachLogImpl()`. -/
def init : EventAttachLog O := ⟨fun _ => []⟩

/-- The inner loop of `removeEventTarget`, which turns the queue round: `l` elements from the
    front go to the back, or away if they are the target. -/
def rotate [DecidableEq O] (eventTarget : O) : Nat → List O → List O
  | 0, q => q
  | _ + 1, [] => []
  | l + 1, front :: q =>
    rotate eventTarget l (if front ≠ eventTarget then q ++ [front] else q)

/-- `removeEventTarget`. -/
def removeEventTarget [DecidableEq O] (log : EventAttachLog O) (eventTarget : O) :
    EventAttachLog O :=
  ⟨fun type => rotate eventTarget (log.queues type).length (log.queues type)⟩

/-- `addEvent`. -/
def addEvent (log : EventAttachLog O) (eventTarget : O) (type : EventAttachType) :
    EventAttachLog O :=
  ⟨Function.update log.queues type (log.queues type ++ [eventTarget])⟩

/-- `addEventStr`. Clicks, and types that are not known, are left out. -/
def addEventStr (log : EventAttachLog O) (eventTarget : O) (str : StdString) :
    EventAttachLog O :=
  match EventAttachType.ofName? str with
  | none => log
  | some .click => log
  | some type => log.addEvent eventTarget type

/-- The loop of `pullEvent` over the types. -/
def pullFrom (log : EventAttachLog O) :
    List EventAttachType → Option (EventAttachType × O × EventAttachLog O)
  | [] => none
  | type :: types =>
    match log.queues type with
    | [] => pullFrom log types
    | front :: q => some (type, front, ⟨Function.update log.queues type q⟩)

/-- `pullEvent`; `none` is the result `false`. -/
def pullEvent (log : EventAttachLog O) : Option (EventAttachType × O × EventAttachLog O) :=
  log.pullFrom EventAttachType.all

/-! ## What the operations do to the queues -/

/-- The loop keeps what it has passed behind what it has not, in order. -/
theorem rotate_append [DecidableEq O] (eventTarget : O) (rest passed : List O) :
    rotate eventTarget rest.length (rest ++ passed) =
      passed ++ rest.filter (· ≠ eventTarget) := by
  induction rest generalizing passed with
  | nil => exact (List.append_nil _).symm
  | cons front rest ih =>
    rw [List.length_cons, List.cons_append, rotate]
    by_cases h : front = eventTarget
    · rw [if_neg (not_not.mpr h), ih, List.filter_cons_of_neg (by simpa using h)]
    · rw [if_pos h, List.append_assoc, ih, List.append_assoc,
        List.filter_cons_of_pos (by simpa using h), List.singleton_append]

/-- The removal of a target keeps the order of the others. -/
theorem queues_removeEventTarget [DecidableEq O] (log : EventAttachLog O) (eventTarget : O)
    (type : EventAttachType) : (log.removeEventTarget eventTarget).queues type =
      (log.queues type).filter (· ≠ eventTarget) := by
  have h := rotate_append eventTarget (log.queues type) []
  rwa [List.append_nil, List.nil_append] at h

/-- An event is put at the end of the queue of its type. -/
theorem queues_addEvent (log : EventAttachLog O) (eventTarget : O)
    (type type' : EventAttachType) : (log.addEvent eventTarget type).queues type' =
      if type' = type then log.queues type' ++ [eventTarget] else log.queues type' := by
  show Function.update log.queues type (log.queues type ++ [eventTarget]) type' = _
  rw [Function.update_apply]
  split
  · rename_i heq
    rw [heq]
  · rfl

/-- A click is not added by its name. -/
theorem addEventStr_name (log : EventAttachLog O) (eventTarget : O) (type : EventAttachType) :
    log.addEventStr eventTarget type.name =
      if type = .click then log else log.addEvent eventTarget type := by
  rw [addEventStr, EventAttachType.ofName?_name]
  cases type <;> rfl

/-- An event is pulled from the first queue that is not empty. -/
theorem pullFrom_eq_some {log log' : EventAttachLog O} {types : List EventAttachType}
    {type : EventAttachType} {eventTarget : O}
    (h : log.pullFrom types = some (type, eventTarget, log')) :
    (∃ before after, types = before ++ type :: after ∧ ∀ t ∈ before, log.queues t = []) ∧
      log.queues type = eventTarget :: log'.queues type ∧
      ∀ t ≠ type, log'.queues t = log.queues t := by
  induction types with
  | nil => exact nomatch h
  | cons first types ih =>
    rw [pullFrom] at h
    split at h
    · -- the queue of the first type is empty, and the next one is looked at
      rename_i hempty
      obtain ⟨⟨before, after, htypes, hbefore⟩, hqueue, hframe⟩ := ih h
      refine ⟨⟨first :: before, after, by rw [htypes, List.cons_append], ?_⟩, hqueue, hframe⟩
      intro t ht
      rcases List.mem_cons.mp ht with rfl | ht
      · exact hempty
      · exact hbefore t ht
    · -- the first element of the first queue is taken
      rename_i front q hqueue
      obtain ⟨rfl, hrest⟩ := Prod.mk.inj (Option.some.inj h)
      obtain ⟨rfl, rfl⟩ := Prod.mk.inj hrest
      refine ⟨⟨[], types, rfl, fun t ht => absurd ht List.not_mem_nil⟩, ?_, fun t ht => ?_⟩
      · show _ = front :: Function.update log.queues first q first
        rw [hqueue, Function.update_self]
      · exact Function.update_of_ne ht _ _

/-- Nothing is pulled only if the queues are empty. -/
theorem pullFrom_eq_none {log : EventAttachLog O} {types : List EventAttachType}
    (h : log.pullFrom types = none) : ∀ t ∈ types, log.queues t = [] := by
  induction types with
  | nil => exact fun t ht => absurd ht List.not_mem_nil
  | cons first types ih =>
    rw [pullFrom] at h
    split at h
    · rename_i hempty
      intro t ht
      rcases List.mem_cons.mp ht with rfl | ht
      · exact hempty
      · exact ih h t ht
    · exact nomatch h

end EventAttachLog

end R4
