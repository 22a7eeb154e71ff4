import R4.ForStd.List
import R4.ForStd.Lts
import R4.Native.NetworkFactory

/-!
# Runs of the network layer

Requests are made, the mode of the factory changes, Qt's replies emit signals, snapshot
updates run and the current snapshots are read, in any order. Every request becomes a
`Connection`, which keeps what the factory decided and every descriptor that its reply
scheduled.

## Key results

- `exec_cases`: what a step can do to the requests and to the factory
-/

namespace R4

variable {V : Type}

/-- A request and how it was served. `mode` is that of a replay factory when it was made. -/
structure Request where
  url : QUrl
  mode : Option ReplayMode
  address : Nat
  source : Source
deriving DecidableEq

/-- A request with its reply object, and the descriptors that were scheduled for it. -/
structure Connection (V : Type) where
  request : Request
  controllable : QNetworkReplyControllable V
  scheduled : List EventActionDescriptor

/-- A state of the network layer. -/
structure NetworkRun (V : Type) where
  factory : QNetworkReplyControllableFactory V
  connections : List (Connection V)

namespace NetworkRun

open QNetworkReplyControllableFactory

/-- The requests, in the order they were made. -/
def requests (r : NetworkRun V) : List Request := r.connections.map (·.request)

/-- The mode of a replay factory. -/
def mode (r : NetworkRun V) : Option ReplayMode :=
  match r.factory.kind with
  | .live => none
  | .replay _ mode => some mode

/-- The labels of a run. -/
inductive Label (V : Type) where
  | construct (order : List QString) (reply : QNetworkReply V)
  | setMode (mode : ReplayMode)
  | signal (connection : Nat) (signal : NetworkSignal) (reply : QNetworkReply V)
  | update (connection : Nat)
  | read (connection : Nat) (maxlen : Int)

variable (toStdString : QString → StdString)

/-- The reply object of a request, and the descriptor it schedules at once. -/
def reply (url : QUrl) (source : Source) (snapshot : QNetworkReplyInitialSnapshot V) :
    Option (QNetworkReplyControllable V × Option EventActionDescriptor) :=
  if source = .live then (QNetworkReplyControllable.ofSnapshot url snapshot).map fun c => (c, none)
  else QNetworkReplyControllable.replay toStdString url snapshot

/-- A connection with a new state of its reply. -/
def Connection.advance (c : Connection V) (controllable : QNetworkReplyControllable V)
    (started : Option EventActionDescriptor) : Connection V :=
  { c with controllable := controllable, scheduled := c.scheduled ++ started.toList }

/-- One step. -/
def exec (score : QUrl → QUrl → Nat) (r : NetworkRun V) : Label V → Option (NetworkRun V)
  | .construct order qreply => do
    let (factory, address, source) ← r.factory.construct score order qreply
    let snapshot ← factory.objects[address]?
    let (controllable, started) ← reply toStdString qreply.url source snapshot
    return ⟨factory, r.connections ++
      [⟨⟨qreply.url, r.mode, address, source⟩, controllable, started.toList⟩]⟩
  | .setMode mode => some { r with factory := r.factory.setMode mode }
  | .signal i signal qreply => do
    let c ← r.connections[i]?
    let snapshot ← r.factory.objects[c.request.address]?
    if c.request.source = .live ∧ signal ≠ .initial then
      let (controllable, snapshot, started) :=
        c.controllable.receive toStdString snapshot signal qreply
      return ⟨{ r.factory with objects := r.factory.objects.set c.request.address snapshot },
        r.connections.set i (Connection.advance c controllable started)⟩
    else none
  | .update i => do
    let c ← r.connections[i]?
    let snapshot ← r.factory.objects[c.request.address]?
    let (controllable, started, _) ←
      c.controllable.updateSnapshot toStdString snapshot.sameUrlSequenceNumber
    return { r with connections := r.connections.set i (Connection.advance c controllable started) }
  | .read i maxlen => do
    let c ← r.connections[i]?
    let snapshot ← r.factory.objects[c.request.address]?
    let (_, snapshot) := c.controllable.currentSnapshot.read snapshot maxlen
    return { r with
      factory := { r.factory with objects := r.factory.objects.set c.request.address snapshot } }

/-- The runs of a replay over the given recorded snapshots. -/
def replays (score : QUrl → QUrl → Nat) (recorded : List (QNetworkReplyInitialSnapshot V)) :
    Lts (NetworkRun V) (Label V) where
  init r := r = ⟨ofSnapshots recorded, []⟩
  step r l r' := r.exec toStdString score l = some r'

/-- The runs of a recording, and those of the replays of any recorded snapshots. -/
def runs (score : QUrl → QUrl → Nat) : Lts (NetworkRun V) (Label V) where
  init r := r = ⟨ofLive, []⟩ ∨ ∃ recorded, r = ⟨ofSnapshots recorded, []⟩
  step r l r' := r.exec toStdString score l = some r'

/-! ## What a step can do -/

variable {toStdString}

/-- What identifies a snapshot object through a run. -/
def identity (s : QNetworkReplyInitialSnapshot V) : QUrl × UInt32 :=
  (s.url, s.sameUrlSequenceNumber)

/-- The step makes no request: the factory keeps its tables and every object its identity. -/
structure Quiet (r r' : NetworkRun V) : Prop where
  requests : r'.requests = r.requests
  kind : r'.factory.kind = r.factory.kind
  history : r'.factory.networkHistory = r.factory.networkHistory
  table : r'.factory.nextSameUrlSequenceNumber = r.factory.nextSameUrlSequenceNumber
  objects : r'.factory.objects.map identity = r.factory.objects.map identity

/-- A signal does not change the identity of a snapshot. -/
theorem receive_identity (c : QNetworkReplyControllable V) (s : QNetworkReplyInitialSnapshot V)
    (signal : NetworkSignal) (qreply : QNetworkReply V) :
    identity (c.receive toStdString s signal qreply).2.1 = identity s := by
  unfold QNetworkReplyControllable.receive
  dsimp only
  split <;> rfl

/-- A step makes a request, changes the mode or is quiet. -/
theorem exec_cases {score : QUrl → QUrl → Nat} {r r' : NetworkRun V} {l : Label V}
    (h : r.exec toStdString score l = some r') :
    (∃ order qreply factory address source,
        l = .construct order qreply ∧
        r.factory.construct score order qreply = some (factory, address, source) ∧
        r'.factory = factory ∧
        r'.requests = r.requests ++ [⟨qreply.url, r.mode, address, source⟩]) ∨
      (∃ mode, l = .setMode mode ∧ r' = { r with factory := r.factory.setMode mode }) ∨
      ((∀ order qreply, l ≠ .construct order qreply) ∧ Quiet r r') := by
  cases l with
  | construct order qreply =>
    -- a request is appended to those before
    simp only [exec, Option.bind_eq_bind, Option.bind_eq_some_iff] at h
    obtain ⟨⟨factory, address, source⟩, hc, snapshot, hs, ⟨controllable, started⟩, hr, h⟩ := h
    simp only [Option.pure_def, Option.some.injEq] at h
    subst h
    refine .inl ⟨order, qreply, factory, address, source, rfl, hc, rfl, ?_⟩
    simp only [requests, List.map_append, List.map_cons, List.map_nil]
  | setMode mode =>
    obtain rfl := Option.some.inj h
    exact .inr (.inl ⟨mode, rfl, rfl⟩)
  | signal i signal qreply =>
    simp only [exec, Option.bind_eq_bind, Option.bind_eq_some_iff] at h
    obtain ⟨c, hc, snapshot, hs, h⟩ := h
    -- the signal changes one reply and one snapshot, and no identity
    split at h
    · simp only [Option.pure_def, Option.some.injEq] at h
      subst h
      refine .inr (.inr ⟨by simp, ?_⟩)
      exact ⟨List.map_set_of_eq hc rfl, rfl, rfl, rfl,
        List.map_set_of_eq hs (receive_identity _ _ _ _)⟩
    · exact nomatch h
  | update i =>
    -- an update changes the reply only
    simp only [exec, Option.bind_eq_bind, Option.bind_eq_some_iff] at h
    obtain ⟨c, hc, snapshot, hs, ⟨controllable, started, signal⟩, hu, h⟩ := h
    simp only [Option.pure_def, Option.some.injEq] at h
    subst h
    exact .inr (.inr ⟨by simp, List.map_set_of_eq hc rfl, rfl, rfl, rfl, rfl⟩)
  | read i maxlen =>
    -- reading changes the position of one snapshot
    simp only [exec, Option.bind_eq_bind, Option.bind_eq_some_iff] at h
    obtain ⟨c, hc, snapshot, hs, h⟩ := h
    simp only [Option.pure_def, Option.some.injEq] at h
    subst h
    exact .inr (.inr ⟨by simp, rfl, rfl, rfl, rfl, List.map_set_of_eq hs rfl⟩)

/-- A reply for a URL that delivers nothing. -/
def plainReply (url : String) : QNetworkReply Unit := ⟨⟨url.toList⟩, [], none, [], 0, [], []⟩

/-- The snapshot of such a reply. -/
def plainSnapshot (url : String) (number : UInt32) : QNetworkReplyInitialSnapshot Unit :=
  .ofReply number (plainReply url)

end NetworkRun

end R4
