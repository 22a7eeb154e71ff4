import R4.Native.Register
import R4.Native.ReplayScheduler

/-!
# Time and random logs

`TimeProviderBase` and `RandomProviderBase` (`R4/clients/BaseClient/basedatalog.h`,
`basedatalog.cpp`) log every value that a running event action asked for, under the string
of its descriptor. `TimeProviderReplay` and `RandomProviderReplay`
(`R4/clients/Replay/datalog.h`, `datalog.cpp`) answer with the values of such a log, under
the string that the scheduler gave them.

`D` are the doubles, `Q` is `QString` and `fromStdString` the conversion to it. A
`QDataStream` is the list of the values that were written to it. The mode and the current
descriptor string of a provider are written by the scheduler and handed over as its
`ProviderControl`.
-/

namespace R4

variable {Q D O α : Type} [DecidableEq Q]

/-- The values that an event action can ask for. -/
inductive Read (D : Type) where
  | time (value : D)
  | random (value : D)
  | randomUint32 (value : UInt32)
deriving DecidableEq

/-- The three functions that return them. -/
inductive ReadKind where
  | time
  | random
  | randomUint32
deriving DecidableEq

/-- Which function it was. -/
def Read.kind : Read D → ReadKind
  | time _ => .time
  | random _ => .random
  | randomUint32 _ => .randomUint32

/-! ## Logging -/

/-- `TimeProviderBase`. -/
structure TimeProviderBase (Q D : Type) [DecidableEq Q] where
  log : QueueMap Q D

/-- `RandomProviderBase`. -/
structure RandomProviderBase (Q D : Type) [DecidableEq Q] where
  doubleLog : QueueMap Q D
  unsignedLog : QueueMap Q UInt32

/-- A value is appended to the list of the event action that is being dispatched. -/
def logAccess (fromStdString : StdString → Q) (register : EventActionRegister O)
    (log : QueueMap Q α) (value : α) : QueueMap Q α :=
  let descriptor := register.currentEventActionDispatching
  -- outside an event action there is nothing to log it under
  if descriptor.isNull then log else log.push (fromStdString descriptor.toString) value

/-- `logTimeAccess`. -/
def TimeProviderBase.logTimeAccess (fromStdString : StdString → Q)
    (register : EventActionRegister O) (p : TimeProviderBase Q D) (time : D) :
    TimeProviderBase Q D :=
  { p with log := logAccess fromStdString register p.log time }

namespace RandomProviderBase

/-- `logRandomAccess`. -/
def logRandomAccess (fromStdString : StdString → Q) (register : EventActionRegister O)
    (p : RandomProviderBase Q D) (random : D) : RandomProviderBase Q D :=
  { p with doubleLog := logAccess fromStdString register p.doubleLog random }

/-- `logRandomAccessUint32`. -/
def logRandomAccessUint32 (fromStdString : StdString → Q) (register : EventActionRegister O)
    (p : RandomProviderBase Q D) (random : UInt32) : RandomProviderBase Q D :=
  { p with unsignedLog := logAccess fromStdString register p.unsignedLog random }

end RandomProviderBase

/-! ## Log files -/

/-- A log in a `QDataStream`. -/
inductive LogItem (Q D : Type) [DecidableEq Q] where
  | doubles (log : QueueMap Q D)
  | unsigneds (log : QueueMap Q UInt32)

/-- `TimeProviderBase::writeLogFile`. -/
def TimeProviderBase.writeLogFile (p : TimeProviderBase Q D) : List (LogItem Q D) :=
  [.doubles p.log]

/-- `RandomProviderBase::writeLogFile`. -/
def RandomProviderBase.writeLogFile (p : RandomProviderBase Q D) : List (LogItem Q D) :=
  [.doubles p.doubleLog, .unsigneds p.unsignedLog]

/-- `TimeProviderReplay`. -/
structure TimeProviderReplay (Q D : Type) [DecidableEq Q] extends TimeProviderBase Q D where
  inLog : QueueMap Q D

/-- `RandomProviderReplay`. -/
structure RandomProviderReplay (Q D : Type) [DecidableEq Q] extends RandomProviderBase Q D where
  inDoubleLog : QueueMap Q D
  inUnsignedLog : QueueMap Q UInt32

/-- `TimeProviderReplay(logPath)`; a file that holds something else is not modelled. -/
def TimeProviderReplay.ofFile : List (LogItem Q D) → Option (TimeProviderReplay Q D)
  | .doubles inLog :: _ => some { log := ∅, inLog := inLog }
  | _ => none

/-- `RandomProviderReplay(logPath)`. -/
def RandomProviderReplay.ofFile : List (LogItem Q D) → Option (RandomProviderReplay Q D)
  | .doubles inDoubleLog :: .unsigneds inUnsignedLog :: _ => some {
      doubleLog := ∅
      unsignedLog := ∅
      inDoubleLog := inDoubleLog
      inUnsignedLog := inUnsignedLog }
  | _ => none

/-! ## Replaying -/

/-- The texts of one of the functions below: the module and the text of its warning, and the
    errors that it ends the process with. -/
structure AccessTexts where
  moduleName : String
  newAccess : String
  notSchedulable : String
  logEmpty : String

/-- What an access returns: the value, the log without it and the warning to report. -/
structure Access (Q α : Type) [DecidableEq Q] where
  value : α
  inLog : QueueMap Q α
  warning : Option (String × String)

/-- The value that is returned for one access. `default` is that of the provider that is
    replaced, and an error is the text on `std::cerr` before `std::exit(1)`. -/
def access (texts : AccessTexts) (fromStdString : StdString → Q) (control : ProviderControl)
    (inLog : QueueMap Q α) (default : α) : Except String (Access Q α) :=
  -- after the stop the program runs on with fresh values
  if control.mode = .stop then .ok ⟨default, inLog, none⟩
  else
    match control.currentDescriptorString with
    | none => .error texts.notSchedulable
    | some ident =>
      match inLog.queue (fromStdString ident) with
      | [] =>
        if control.mode = .bestEffort ∨ control.mode = .bestEffortNond then
          .ok ⟨default, inLog, some (texts.moduleName, texts.newAccess)⟩
        else .error texts.logEmpty
      -- values are taken in the order in which they were recorded
      | value :: rest => .ok ⟨value, inLog.insert (fromStdString ident) rest, none⟩

/-- `TimeProviderReplay::currentTime`. -/
def TimeProviderReplay.currentTime (fromStdString : StdString → Q)
    (register : EventActionRegister O) (control : ProviderControl) (p : TimeProviderReplay Q D)
    (default : D) : Except String (D × TimeProviderReplay Q D × Option (String × String)) := do
  let a ← access
    { moduleName := "WEBERA_TIME_DATA"
      newAccess := "New access to the time API in best effort mode."
      notSchedulable := "Error: Time requested by non-schedulable event action."
      logEmpty := "Error: Time requested but time log is empty (exact mode)." }
    fromStdString control p.inLog default
  return (a.value,
    { p.toTimeProviderBase.logTimeAccess fromStdString register a.value with inLog := a.inLog },
    a.warning)

namespace RandomProviderReplay

/-- The texts of both random functions. -/
def texts : AccessTexts where
  moduleName := "WEBERA_RANDOM_DATA"
  newAccess := "New access to the random API in best effort mode."
  notSchedulable := "Error: Random number requested by non-schedulable event action."
  logEmpty := "Error: Random number requested but random log is empty (exact mode)."

/-- `get`. -/
def get (fromStdString : StdString → Q) (register : EventActionRegister O)
    (control : ProviderControl) (p : RandomProviderReplay Q D) (default : D) :
    Except String (D × RandomProviderReplay Q D × Option (String × String)) := do
  let a ← access texts fromStdString control p.inDoubleLog default
  return (a.value,
    { p.toRandomProviderBase.logRandomAccess fromStdString register a.value with
      inDoubleLog := a.inLog
      inUnsignedLog := p.inUnsignedLog }, a.warning)

/-- `getUint32`. -/
def getUint32 (fromStdString : StdString → Q) (register : EventActionRegister O)
    (control : ProviderControl) (p : RandomProviderReplay Q D) (default : UInt32) :
    Except String (UInt32 × RandomProviderReplay Q D × Option (String × String)) := do
  let a ← access texts fromStdString control p.inUnsignedLog default
  return (a.value,
    { p.toRandomProviderBase.logRandomAccessUint32 fromStdString register a.value with
      inDoubleLog := p.inDoubleLog
      inUnsignedLog := a.inLog }, a.warning)

end RandomProviderReplay

/-- In strict mode the next value of the current event action is returned, and the process
    ends if there is none. -/
theorem access_strict {texts : AccessTexts} {fromStdString : StdString → Q} {ident : StdString}
    {inLog : QueueMap Q α} {value : α} {rest : List α}
    (h : inLog.queue (fromStdString ident) = value :: rest) (default : α) :
    access texts fromStdString ⟨.strict, some ident⟩ inLog default =
      .ok ⟨value, inLog.insert (fromStdString ident) rest, none⟩ := by
  unfold access
  rw [if_neg (fun h => nomatch h)]
  dsimp only
  rw [h]

/-- In a strict replay the first recorded time is given and taken. -/
theorem TimeProviderReplay.currentTime_strict {fromStdString : StdString → Q}
    (register : EventActionRegister O) {ident : StdString} {p : TimeProviderReplay Q D}
    {value : D} {rest : List D} (h : p.inLog.queue (fromStdString ident) = value :: rest)
    (default : D) :
    p.currentTime fromStdString register ⟨.strict, some ident⟩ default =
      .ok (value, { p.toTimeProviderBase.logTimeAccess fromStdString register value with
        inLog := p.inLog.insert (fromStdString ident) rest }, none) := by
  rw [currentTime, access_strict h]
  rfl

/-- So is the first recorded random number. -/
theorem RandomProviderReplay.get_strict {fromStdString : StdString → Q}
    (register : EventActionRegister O) {ident : StdString} {p : RandomProviderReplay Q D}
    {value : D} {rest : List D} (h : p.inDoubleLog.queue (fromStdString ident) = value :: rest)
    (default : D) :
    p.get fromStdString register ⟨.strict, some ident⟩ default =
      .ok (value, { p.toRandomProviderBase.logRandomAccess fromStdString register value with
        inDoubleLog := p.inDoubleLog.insert (fromStdString ident) rest
        inUnsignedLog := p.inUnsignedLog }, none) := by
  rw [get, access_strict h]
  rfl

/-- So is the first recorded unsigned one. -/
theorem RandomProviderReplay.getUint32_strict {fromStdString : StdString → Q}
    (register : EventActionRegister O) {ident : StdString} {p : RandomProviderReplay Q D}
    {value : UInt32} {rest : List UInt32}
    (h : p.inUnsignedLog.queue (fromStdString ident) = value :: rest) (default : UInt32) :
    p.getUint32 fromStdString register ⟨.strict, some ident⟩ default =
      .ok (value, { p.toRandomProviderBase.logRandomAccessUint32 fromStdString register value with
        inDoubleLog := p.inDoubleLog
        inUnsignedLog := p.inUnsignedLog.insert (fromStdString ident) rest }, none) := by
  rw [getUint32, access_strict h]
  rfl

end R4
