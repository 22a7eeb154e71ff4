import R4.ForStd.CString
import R4.Native.OneShotTimer

/-!
# Scripts that are executed in order

`WebCore::ScriptRunner` (`ScriptRunner.h`, `ScriptRunner.cpp`), as far as scripts are executed in
order: each firing of `m_inOrderTimer` executes the first script that is queued. The firing is
cut in two at the call of `execute`; the script may queue further ones and cause any other call.

Whether a resource is loaded is up to the loader. The asynchronous scripts, the load event of the
document and the happens-before relations are left out.
-/

namespace R4

open StdString

variable {S C : Type}

/-- `PendingScript`. -/
structure PendingScript (S C : Type) where
  element : S
  cachedScript : C
deriving DecidableEq

/-- `ScriptRunner`. -/
structure ScriptRunner (S C : Type) where
  scriptRunnerId : UInt32
  scriptsToExecuteInOrder : List (PendingScript S C)
  inOrderTimer : OneShotTimer
  inOrderExecuted : UInt32
  suspended : Bool

namespace ScriptRunner

/-- The constructor. -/
def init (scriptRunnerId : UInt32) : ScriptRunner S C where
  scriptRunnerId := scriptRunnerId
  scriptsToExecuteInOrder := []
  inOrderTimer := OneShotTimer.init
  inOrderExecuted := 0
  suspended := false

/-- The descriptor of the next firing. -/
def inOrderDescriptor (r : ScriptRunner S C) : EventActionDescriptor :=
  .make .parsing "ScriptRunner".toList
    (decimal r.scriptRunnerId.toNat ++ ',' :: ("InOrder".toList ++ ',' ::
      decimal r.inOrderExecuted.toNat))

/-- `updateInOrderTimer`, which does not look at `m_suspended`. -/
def updateInOrderTimer (isLoaded : C → Bool) (r : ScriptRunner S C) : ScriptRunner S C :=
  match r.scriptsToExecuteInOrder with
  | [] => r
  | first :: _ =>
    if !isLoaded first.cachedScript then r
    else if r.inOrderTimer.isActive then r
    else
      { r with inOrderTimer :=
          (r.inOrderTimer.setEventActionDescriptor r.inOrderDescriptor).startOneShot }

/-- `queueScriptForExecution`, in order. -/
def queueScriptForExecution (r : ScriptRunner S C) (script : PendingScript S C) :
    ScriptRunner S C :=
  { r with scriptsToExecuteInOrder := r.scriptsToExecuteInOrder ++ [script] }

/-- `suspend`. -/
def suspend (r : ScriptRunner S C) : ScriptRunner S C :=
  if r.inOrderTimer.isActive then
    { r with suspended := true, inOrderTimer := r.inOrderTimer.stop }
  else r

/-- `resume`. -/
def resume (r : ScriptRunner S C) : ScriptRunner S C :=
  if r.suspended then
    -- whether there is a script to execute is not looked at
    { r with suspended := false, inOrderTimer := r.inOrderTimer.startOneShot }
  else r

/-- `notifyScriptReady`, in order: of whichever script, the first one is looked at. -/
def notifyScriptReady (isLoaded : C → Bool) (r : ScriptRunner S C) : ScriptRunner S C :=
  r.updateInOrderTimer isLoaded

/-- `inOrderTimerFired` up to the call of `execute`: the script, and the runner. `none` is the
    first element of an empty vector. -/
def takeScript (r : ScriptRunner S C) : Option (PendingScript S C × ScriptRunner S C) :=
  match r.scriptsToExecuteInOrder with
  | [] => none
  | first :: rest =>
    some (first, { r with
      inOrderExecuted := r.inOrderExecuted + 1
      scriptsToExecuteInOrder := rest })

end ScriptRunner

end R4
