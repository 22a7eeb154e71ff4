import R4.ForStd.QueueMap
import R4.Native.NetworkReply
import R4.Native.ReplayScheduler

/-!
# Factories of network replies

`WebCore::QNetworkReplyControllableFactory` (`QNetworkReplyHandler.h`,
`QNetworkReplyHandler.cpp`) with its live subclass, and
`QNetworkReplyControllableFactoryReplay` (`R4/clients/Replay/network.h`, `network.cpp`): a
request is served with a recorded snapshot for its URL, with the best fuzzy match, or with a
live connection.

Snapshots are objects that the factory, its history and the replies point to. `objects` is
where they live, and an address is a position in it. `FuzzyUrlMatcher::score` and the order
in which the hash of snapshots is iterated are parameters.
-/

namespace R4

open StdString

variable {V : Type}

/-- Which subclass the factory is. A replay factory has its snapshots by URL; the lists of a
    URL become empty but stay in the hash. -/
inductive FactoryKind where
  | live
  | replay (snapshots : QueueMap QString Nat) (mode : ReplayMode)

/-- The factory, with the snapshot objects and the static `m_nextSameUrlSequenceNumber`. -/
structure QNetworkReplyControllableFactory (V : Type) where
  objects : List (QNetworkReplyInitialSnapshot V)
  nextSameUrlSequenceNumber : AList fun _ : QString => UInt32
  networkHistory : List Nat
  kind : FactoryKind

/-- How a request was served. -/
inductive Source where
  | exact
  | fuzzy
  | live
deriving DecidableEq, Repr

namespace QNetworkReplyControllableFactory

/-- `controllableConstructed`. -/
def controllableConstructed (f : QNetworkReplyControllableFactory V) (address : Nat) :
    QNetworkReplyControllableFactory V :=
  { f with networkHistory := f.networkHistory ++ [address] }

/-- `getNextSameUrlSequenceNumber`: the number, and the table after the call. -/
def getNextSameUrlSequenceNumber (table : AList fun _ : QString => UInt32) (url : QUrl) :
    UInt32 × AList fun _ : QString => UInt32 :=
  -- requests for one URL are numbered from 0
  let id := (table.lookup url.string).getD 0
  (id, table.insert url.string (id + 1))

/-- `new QNetworkReplyControllableLive(this, reply, parent)`. -/
def constructLive (f : QNetworkReplyControllableFactory V) (reply : QNetworkReply V) :
    QNetworkReplyControllableFactory V × Nat :=
  let (number, table) := getNextSameUrlSequenceNumber f.nextSameUrlSequenceNumber reply.url
  let address := f.objects.length
  ({ f with
      objects := f.objects ++ [QNetworkReplyInitialSnapshot.ofReply number reply]
      nextSameUrlSequenceNumber := table }.controllableConstructed address, address)

/-- One round of the fuzzy matching loop: `best` is the best score and the list it is from. -/
def fuzzyRound (score : Nat → Nat) (snapshots : QueueMap QString Nat)
    (best : Nat × Option QString) (key : QString) : Nat × Option QString :=
  -- the lists of a URL may have been used up
  match snapshots.queue key with
  | [] => best
  | snapshot :: _ => if score snapshot > best.1 then (score snapshot, some key) else best

/-- The list that the fuzzy matching loop ends up with. -/
def fuzzyMatch (score : Nat → Nat) (snapshots : QueueMap QString Nat) (order : List QString) :
    Option QString :=
  (order.foldl (fuzzyRound score snapshots) (0, none)).2

/-- `takeFirst()` and `pop_front()` on the list of a URL. -/
def takeFirst (snapshots : QueueMap QString Nat) (key : QString) : QueueMap QString Nat :=
  snapshots.insert key (snapshots.queue key).tail

/-- The score of a recorded snapshot for a request. -/
def scoreOf (score : QUrl → QUrl → Nat) (f : QNetworkReplyControllableFactory V) (url : QUrl)
    (address : Nat) : Nat :=
  match f.objects[address]? with
  | some snapshot => score url snapshot.url
  | none => 0

/-- The fuzzy part of `construct`, in the modes that have it. -/
def constructFuzzy (score : QUrl → QUrl → Nat) (order : List QString)
    (snapshots : QueueMap QString Nat) (mode : ReplayMode)
    (f : QNetworkReplyControllableFactory V) (reply : QNetworkReply V) :
    QNetworkReplyControllableFactory V × Nat × Source :=
  match fuzzyMatch (f.scoreOf score reply.url) snapshots order with
  | none =>
    let (f, address) := f.constructLive reply
    (f, address, .live)
  | some key =>
    match snapshots.queue key with
    | [] =>
      let (f, address) := f.constructLive reply
      (f, address, .live)
    | snapshot :: _ =>
      ({ f with kind := .replay (takeFirst snapshots key) mode }.controllableConstructed snapshot,
        snapshot, .fuzzy)

/-- `construct`: the factory, the snapshot that the request is served with and how it was
    found. `none` is `std::exit(1)` for an unknown request in strict mode. -/
def construct (score : QUrl → QUrl → Nat) (order : List QString)
    (f : QNetworkReplyControllableFactory V) (reply : QNetworkReply V) :
    Option (QNetworkReplyControllableFactory V × Nat × Source) :=
  match f.kind with
  | .live =>
    let (f, address) := f.constructLive reply
    some (f, address, .live)
  | .replay snapshots mode =>
    if mode = .stop then
      let (f, address) := f.constructLive reply
      some (f, address, .live)
    else
      match snapshots.queue reply.url.string with
      | snapshot :: _ =>
        some ({ f with
            kind := .replay (takeFirst snapshots reply.url.string) mode }.controllableConstructed
              snapshot, snapshot, .exact)
      | [] =>
        -- an unknown request ends a strict replay
        if mode = .bestEffort ∨ mode = .bestEffortNond then
          some (constructFuzzy score order snapshots mode f reply)
        else none

/-- `setMode`. -/
def setMode (f : QNetworkReplyControllableFactory V) (mode : ReplayMode) :
    QNetworkReplyControllableFactory V :=
  match f.kind with
  | .live => f
  | .replay snapshots _ => { f with kind := .replay snapshots mode }

/-! ## The network file -/

/-- `writeNetworkFile`. -/
def writeNetworkFile (f : QNetworkReplyControllableFactory V) : List (QDataItem V) :=
  (f.networkHistory.filterMap fun address => f.objects[address]?).flatMap fun s => s.serialize

/-- The snapshots that the loop over the file reads; `fuel` bounds their number. -/
def readNetworkFile : Nat → List (QDataItem V) → Option (List (QNetworkReplyInitialSnapshot V))
  | _, [] => some []
  | 0, _ :: _ => none
  | fuel + 1, file => do
    let (snapshot, rest) ← QNetworkReplyInitialSnapshot.deserialize file
    let snapshots ← readNetworkFile fuel rest
    return snapshot :: snapshots

/-- The snapshots by URL, in the order of the file. -/
def snapshotMap (snapshots : List (QNetworkReplyInitialSnapshot V)) : QueueMap QString Nat :=
  snapshots.zipIdx.foldl (fun m p => m.push p.1.url.string p.2) ∅

/-- The factory of a replay, from the snapshots of its network file. -/
def ofSnapshots (snapshots : List (QNetworkReplyInitialSnapshot V)) :
    QNetworkReplyControllableFactory V where
  objects := snapshots
  nextSameUrlSequenceNumber := ∅
  networkHistory := []
  kind := .replay (snapshotMap snapshots) .strict

/-- `QNetworkReplyControllableFactoryReplay(logNetworkPath)`. -/
def ofNetworkFile (file : List (QDataItem V)) : Option (QNetworkReplyControllableFactory V) :=
  (readNetworkFile file.length file).map ofSnapshots

/-- `QNetworkReplyControllableFactoryLive`. -/
def ofLive : QNetworkReplyControllableFactory V where
  objects := []
  nextSameUrlSequenceNumber := ∅
  networkHistory := []
  kind := .live

end QNetworkReplyControllableFactory

end R4
