import R4.Native.HappensBefore
import R4.Native.Register
import R4.Native.ReplayScheduler

/-!
# The register in the program

The register calls the happens-before component around every handler, and the replay
scheduler runs event actions through the register. `X` is the rest of the program, which
the handlers work on and which holds the warning collector.
-/

namespace R4

variable {O X : Type}

/-- The register, the happens-before component and the rest of the program. -/
abbrev Program (O X : Type) := EventActionRegister O × (HBState × X)

/-- The platform of the register. `address` is the address of an object, by which the action
    log knows it. -/
def hbPlatform (address : O → Int)
    (call : O → EventActionDescriptor → Program O X → Option (Bool × Program O X)) :
    Platform O (HBState × X) where
  hbAllocateEventActionId env :=
    (env.1.allocateEventActionId.1, env.1.allocateEventActionId.2, env.2)
  hbEnterEventAction id type env :=
    (env.1.hbEnterEventAction id type).map fun s => (s, env.2)
  hbExitEventAction commit env := (env.1.hbExitEventAction commit).map fun s => (s, env.2)
  actionLogEventTriggered target env := (env.1.actionLogEventTriggered (address target), env.2)
  call := call

/-- What a replay runs in. The providers that a handler reads from are those of the
    scheduler. -/
structure ProgramEnv (O X : Type) where
  address : O → Int
  call : Providers → O → EventActionDescriptor → Program O X → Option (Bool × Program O X)
  warningCollectorSetCurrentEventAction : EventActionId → X → X
  warningCollectorReport : StdString → StdString → StdString → X → X
  score : StdString → StdString → Nat

/-- What the replay scheduler sees of the program. -/
def ProgramEnv.replayEnv (p : ProgramEnv O X) : ReplayEnv (Program O X) where
  runEventAction providers newId originalId d w :=
    EventActionRegister.runEventAction (hbPlatform p.address (p.call providers)) newId originalId
      d w
  getWaitingNames w := w.1.getWaitingNames
  translateOldIdToNew w := w.1.translateOldIdToNew
  debugPrintNames w := w.1.debugPrintNames
  hbAllocateEventActionId w :=
    (w.2.1.allocateEventActionId.1, w.1, w.2.1.allocateEventActionId.2, w.2.2)
  actionLogStrictMode strict w := (w.1, w.2.1.actionLogStrictMode strict, w.2.2)
  warningCollectorSetCurrentEventAction id w :=
    (w.1, w.2.1, p.warningCollectorSetCurrentEventAction id w.2.2)
  warningCollectorReport module description details w :=
    (w.1, w.2.1, p.warningCollectorReport module description details w.2.2)
  score := p.score

end R4
