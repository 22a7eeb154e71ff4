import R4.Native.Descriptor

/-!
# Schedules

`WebCore::EventActionSchedule` (`EventActionSchedule.h`, `EventActionSchedule.cpp`): the
list of event actions that a run dispatched, written one to a line and read back by the
replayer. A `<relax>` or `<change>` line is a marker and becomes a null descriptor.
-/

namespace R4

open StdString

/-- `EventActionScheduleItem`: the id of an event action and its descriptor. -/
abbrev EventActionScheduleItem := EventActionId × EventActionDescriptor

namespace EventActionSchedule

/-- The line of one item, without its newline. -/
def serializeItem (item : EventActionScheduleItem) : StdString :=
  decimalInt item.1 ++ ';' :: item.2.serialize

/-- `serialize`: every item on a line of its own. -/
def serialize (schedule : List EventActionScheduleItem) : StdString :=
  schedule.flatMap fun item => serializeItem item ++ ['\n']

/-- The item that one line holds: the id up to the first `;`, then the descriptor. -/
def deserializeLine (eventaction : StdString) : Option EventActionScheduleItem :=
  if eventaction = "<relax>".toList ∨ eventaction = "<change>".toList then
    some (0, EventActionDescriptor.null)
  else
    let id := eventaction.takeWhile (· != ';')
    let description := (eventaction.dropWhile (· != ';')).drop 1
    (EventActionDescriptor.deserialize description).map fun descriptor => (atoi id, descriptor)

/-- `deserialize`: blank lines are ignored. -/
def deserialize (text : StdString) : Option (List EventActionScheduleItem) :=
  ((lines text).filter (· ≠ [])).mapM deserializeLine

end EventActionSchedule

end R4
