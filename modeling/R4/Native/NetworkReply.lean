import R4.Native.NetworkSnapshot

/-!
# Controllable network replies

`WebCore::QNetworkReplyControllable` (`QNetworkReplyHandler.h`, `QNetworkReplyHandler.cpp`)
and its two subclasses: a queue of snapshot entries, of which one at a time is processed by
an event action. A live reply fills the queue as Qt's reply emits signals, a replayed one
when it is constructed (`R4/clients/Replay/network.cpp`).

`m_nextSnapshotUpdateTimer.startOneShot(0)` is returned as the descriptor that the timer was
given. The happens-before relations and the cookie jar are left out. `QString::toStdString` is a
parameter: it is a part of Qt, and what it makes of a character outside of the 8-bit encoding
(a question mark, as a rule) is the same for all of them.
-/

namespace R4

open StdString

/-- What Qt 4 converts a text to while no codec is set for C strings: Latin-1, with a question mark
    for every other character. -/
def toLatin1 (s : QString) : StdString := s.map fun c => if c.toNat ≤ 0xff then c else '?'

variable {V : Type} (toStdString : QString → StdString)

/-- `QNetworkReplyControllable`: `url` is that of `m_reply`. The initial snapshot is an
    object of its own, and the sequence number is an `unsigned long` that counts entries of
    a `QList`, which holds fewer than 2 ^ 31. -/
structure QNetworkReplyControllable (V : Type) where
  url : QUrl
  sequenceNumber : Nat
  nextSnapshotUpdateTimerRunning : Bool
  currentSnapshot : QNetworkReplySnapshot V
  snapshotQueue : List (QNetworkReplySnapshotEntry V)

/-- `Network(url, url-sequence-number, sequence-number)`: the URL is converted before its commas
    are escaped. -/
def networkDescriptor (url : QUrl) (sameUrlSequenceNumber : UInt32) (sequenceNumber : Nat) :
    EventActionDescriptor :=
  .make .network "Network".toList
    (EventActionDescriptor.escapeParam (toStdString url.string) ++
      ',' :: (decimal sameUrlSequenceNumber.toNat ++ ',' :: decimal sequenceNumber))

namespace QNetworkReplyControllable

/-- The constructor; `first()` of an empty list is undefined. -/
def ofSnapshot (url : QUrl) (initialSnapshot : QNetworkReplyInitialSnapshot V) :
    Option (QNetworkReplyControllable V) :=
  initialSnapshot.snapshots.head?.map fun entry => ⟨url, 0, false, entry.2, []⟩

/-- `scheduleNextSnapshotUpdate`, for a snapshot with the given url sequence number. -/
def scheduleNextSnapshotUpdate (c : QNetworkReplyControllable V) (number : UInt32) :
    QNetworkReplyControllable V × Option EventActionDescriptor :=
  if c.nextSnapshotUpdateTimerRunning then (c, none)
  else
    match c.snapshotQueue with
    | [] => (c, none)
    | (signal, _) :: _ =>
      -- ULONG_MAX stands for the last network event of the sequence
      if signal = .finished then
        ({ c with nextSnapshotUpdateTimerRunning := true },
          some (networkDescriptor toStdString c.url number ulongMax))
      else
        ({ c with
            nextSnapshotUpdateTimerRunning := true
            sequenceNumber := c.sequenceNumber + 1 },
          some (networkDescriptor toStdString c.url number c.sequenceNumber))

/-- `enqueueSnapshot`. -/
def enqueueSnapshot (c : QNetworkReplyControllable V) (number : UInt32)
    (entry : QNetworkReplySnapshotEntry V) :
    QNetworkReplyControllable V × Option EventActionDescriptor :=
  { c with
    snapshotQueue := c.snapshotQueue ++ [entry] }.scheduleNextSnapshotUpdate toStdString number

/-- `updateSnapshot`, with the signal that is emitted at its end. An entry with the signal
    `INITIAL` in the queue is a `CRASH()`. -/
def updateSnapshot (c : QNetworkReplyControllable V) (number : UInt32) :
    Option (QNetworkReplyControllable V × Option EventActionDescriptor × NetworkSignal) :=
  match c.snapshotQueue with
  | [] => none
  | (signal, snapshot) :: rest =>
    -- the timer is started for the next entry before this one is delivered
    let (c, started) := { c with
      snapshotQueue := rest
      currentSnapshot := snapshot
      nextSnapshotUpdateTimerRunning := false }.scheduleNextSnapshotUpdate toStdString number
    match signal with
    | .initial => none
    | signal => some (c, started, signal)

/-- The loop of `QNetworkReplyControllableReplay`: every entry is queued. -/
def enqueueAll (number : UInt32) : List (QNetworkReplySnapshotEntry V) →
    QNetworkReplyControllable V → QNetworkReplyControllable V × Option EventActionDescriptor
  | [], c => (c, none)
  | entry :: entries, c =>
    let (c, started) := c.enqueueSnapshot toStdString number entry
    let (c, startedLater) := enqueueAll number entries c
    (c, started.or startedLater)

/-- `QNetworkReplyControllableReplay`: the current entry is dropped, the others are queued. -/
def replay (url : QUrl) (initialSnapshot : QNetworkReplyInitialSnapshot V) :
    Option (QNetworkReplyControllable V × Option EventActionDescriptor) :=
  (ofSnapshot url initialSnapshot).map fun c =>
    enqueueAll toStdString initialSnapshot.sameUrlSequenceNumber
      (initialSnapshot.snapshots.drop 1) c

/-- `slFinished` and `slReadyRead`: Qt's reply emitted a signal. -/
def receive (c : QNetworkReplyControllable V) (initialSnapshot : QNetworkReplyInitialSnapshot V)
    (signal : NetworkSignal) (reply : QNetworkReply V) :
    QNetworkReplyControllable V × QNetworkReplyInitialSnapshot V × Option EventActionDescriptor :=
  let initialSnapshot := initialSnapshot.takeSnapshot signal reply
  match initialSnapshot.snapshots.getLast? with
  | none => (c, initialSnapshot, none)
  | some entry =>
    let (c, started) := c.enqueueSnapshot toStdString initialSnapshot.sameUrlSequenceNumber entry
    (c, initialSnapshot, started)

end QNetworkReplyControllable

end R4
