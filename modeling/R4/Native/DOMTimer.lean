import R4.ForStd.Numbering
import R4.Native.HappensBefore

/-!
# Timers of scripts

`WebCore::DOMTimer` (`DOMTimer.h`, `DOMTimer.cpp`): the descriptor that `setTimeout` and
`setInterval` give to a timer. It names the place of the call, the arguments, the event action
that calls, and which of the calls with the same place and event action it is.

The timer itself, its nesting level and the action log are left out, as the descriptor does not
depend on them.
-/

namespace R4

open StdString

/-- What `ScheduledAction` says about the call: the URL of the script and the line in it. -/
structure ScheduledAction where
  calledUrl : StdString
  calledLine : UInt32
deriving DecidableEq

namespace DOMTimer

/-- The key of a call in `m_nextSameUrlSequenceNumber`. -/
def ident (url : StdString) (line : UInt32) (eventActionId : EventActionId) : StdString :=
  -- nothing stands between the line and the id
  url ++ '-' :: (decimal line.toNat ++ decimalInt eventActionId)

/-- `getNextSameUrlSequenceNumber`: the number, and the table after the call. -/
def getNextSameUrlSequenceNumber (table : KeyNumbering StdString) (url : StdString) (line : UInt32)
    (eventActionId : EventActionId) : UInt32 × KeyNumbering StdString :=
  match table.lookup (ident url line eventActionId) with
  | some id => (id, table.insert (ident url line eventActionId) (id + 1))
  | none => (0, table.insert (ident url line eventActionId) 1)

/-- `install`: the descriptor of the new timer, and the table after the call. -/
def install (table : KeyNumbering StdString) (hb : HBState) (action : ScheduledAction)
    (timeout : Int) (singleShot : Bool) : EventActionDescriptor × KeyNumbering StdString :=
  let url := if action.calledUrl = [] then "-".toList
    else EventActionDescriptor.escapeParam action.calledUrl
  let singleShotStr := if singleShot then "true".toList else "false".toList
  let calleeEventActionId := hb.currentEventAction.getD (-1)
  let (number, table) :=
    getNextSameUrlSequenceNumber table url action.calledLine calleeEventActionId
  (.make .timer "DOMTimer".toList
    (url ++ ',' :: (decimal action.calledLine.toNat ++ ',' :: (decimalInt timeout ++ ',' ::
      (singleShotStr ++ ',' :: (decimalInt calleeEventActionId ++ ',' ::
        decimal number.toNat))))), table)

/-- The table numbers the calls with the same key. -/
theorem getNextSameUrlSequenceNumber_eq (table : KeyNumbering StdString) (url : StdString)
    (line : UInt32) (eventActionId : EventActionId) :
    getNextSameUrlSequenceNumber table url line eventActionId =
      table.next (ident url line eventActionId) := by
  unfold getNextSameUrlSequenceNumber KeyNumbering.next KeyNumbering.counter
  cases table.lookup (ident url line eventActionId) <;> rfl

end DOMTimer

end R4
