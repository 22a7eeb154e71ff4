import Mathlib.Data.List.Induction
import R4.Native.NetworkReply
import R4.Spec.SnapshotTimer

/-!
# Runs of one network reply

A reply together with its initial snapshot and its timer. Qt's reply emits its signals, the
timer expires and is dispatched, and the current snapshot is read and peeked, in any order.
A replayed reply is the same machine with everything queued at the start.

What the network code sees of a run is the list of its updates and reads. `Reader` is what
it should see: a position in the list of recorded entries, and one in the recorded stream.

## Key results

- `recorded_after`: what a recorded snapshot looks like
- `Reader.run_updates`, `Reader.run_reads`: what the reader sees
-/

namespace R4

variable {V T : Type} [LinearOrder T] [AddZeroClass T]

/-- A signal of Qt's reply, with what the reply says at that moment. -/
structure Arrival (V : Type) where
  signal : NetworkSignal
  reply : QNetworkReply V
  notInitial : signal ≠ .initial

/-- What Qt's reply does: how it starts, and the signals it emits. -/
structure Script (V : Type) where
  reply : QNetworkReply V
  arrivals : List (Arrival V)

/-- What the network code sees: the descriptor under which a snapshot was updated and the
    signal that it got, and the bytes that it read or peeked. -/
inductive Observation where
  | updated (descriptor : StdString) (signal : NetworkSignal)
  | read (maxlen : Int) (bytes : Bytes)
  | peeked (maxlen : Int) (bytes : Bytes)
deriving DecidableEq

/-- What the network code does. -/
inductive Action where
  | update
  | read (maxlen : Int)
  | peek (maxlen : Int)
deriving DecidableEq

namespace Observation

/-- What was done. -/
def action : Observation → Action
  | updated _ _ => .update
  | read maxlen _ => .read maxlen
  | peeked maxlen _ => .peek maxlen

/-- The descriptor of an update. -/
def descriptor? : Observation → Option StdString
  | updated descriptor _ => some descriptor
  | _ => none

/-- The bytes of a read. -/
def bytesRead : Observation → Bytes
  | read _ bytes => bytes
  | _ => []

end Observation

/-- A state of a reply. `arrived` counts the signals that Qt's reply has emitted. -/
structure ReplyRun (V T : Type) where
  timers : TimerRun Unit T
  initialSnapshot : QNetworkReplyInitialSnapshot V
  controllable : QNetworkReplyControllable V
  arrived : Nat
  observed : List Observation

namespace ReplyRun

open StdString

/-- The labels of a run. -/
inductive Label (T : Type) where
  | arrive (now : T)
  | expire (fireTime now : T)
  | beginUpdate (d : EventActionDescriptor) (id originalId : EventActionId) (now startedAt : T)
  | endUpdate (originalId : EventActionId)
  | read (maxlen : Int)
  | peek (maxlen : Int)

/-- The timer is started if a descriptor was scheduled. -/
def startTimer (timers : TimerRun Unit T) (started : Option EventActionDescriptor) (now : T) :
    Option (TimerRun Unit T) :=
  match started with
  | none => some timers
  | some d => timers.startOneShot d now

variable (toStdString : QString → StdString)

/-- One step. The timer's handler is `updateSnapshot`, and the slots that are connected to
    the signal it emits run before `endUpdate`. -/
def exec (arrivals : List (Arrival V)) (r : ReplyRun V T) : Label T → Option (ReplyRun V T)
  | .arrive now => do
    let arrival ← arrivals[r.arrived]?
    let (controllable, initialSnapshot, started) :=
      r.controllable.receive toStdString r.initialSnapshot arrival.signal arrival.reply
    let timers ← startTimer r.timers started now
    return ⟨timers, initialSnapshot, controllable, r.arrived + 1, r.observed⟩
  | .expire fireTime now => do
    let timers ← r.timers.exec (.expire fireTime now)
    return { r with timers := timers }
  | .beginUpdate d id originalId now startedAt => do
    let timers ← r.timers.exec (.beginDispatch d id originalId now)
    let (controllable, started, signal) ←
      r.controllable.updateSnapshot toStdString r.initialSnapshot.sameUrlSequenceNumber
    let timers ← startTimer timers started startedAt
    return { r with
      timers := timers
      controllable := controllable
      observed := r.observed ++ [.updated d.toString signal] }
  | .endUpdate originalId => do
    let timers ← r.timers.exec (.endDispatch originalId)
    return { r with timers := timers }
  | .read maxlen =>
    let (bytes, initialSnapshot) := r.controllable.currentSnapshot.read r.initialSnapshot maxlen
    some { r with
      initialSnapshot := initialSnapshot
      observed := r.observed ++ [.read maxlen bytes] }
  | .peek maxlen =>
    let bytes := r.controllable.currentSnapshot.peek r.initialSnapshot maxlen
    some { r with observed := r.observed ++ [.peeked maxlen bytes] }

/-- The runs of a live reply. -/
def lives (number : UInt32) (script : Script V) : Lts (ReplyRun V T) (Label T) where
  init r := ∃ c,
    QNetworkReplyControllable.ofSnapshot script.reply.url (.ofReply number script.reply) = some c ∧
      r = ⟨⟨ThreadTimers.init, none⟩, .ofReply number script.reply, c, 0, []⟩
  step r l r' := r.exec toStdString script.arrivals l = some r'

/-- The runs of a replayed reply for a recorded snapshot. -/
def replays (url : QUrl) (snapshot : QNetworkReplyInitialSnapshot V) :
    Lts (ReplyRun V T) (Label T) where
  init r := ∃ c started now timers,
    QNetworkReplyControllable.replay toStdString url snapshot = some (c, started) ∧
      startTimer ⟨ThreadTimers.init, none⟩ started now = some timers ∧
      r = ⟨timers, snapshot, c, 0, []⟩
  step r l r' := r.exec toStdString [] l = some r'

/-! ## Recorded snapshots -/

/-- The snapshot after some signals. -/
def snapshotAfter (number : UInt32) (reply : QNetworkReply V) (arrivals : List (Arrival V)) :
    QNetworkReplyInitialSnapshot V :=
  arrivals.foldl (fun s a => s.takeSnapshot a.signal a.reply) (.ofReply number reply)

/-- The snapshot after all signals. -/
def finalSnapshot (number : UInt32) (script : Script V) : QNetworkReplyInitialSnapshot V :=
  snapshotAfter number script.reply script.arrivals

/-- The sizes of a snapshot's entries grow and lie within its stream, and only the first
    entry is that of `INITIAL`. -/
structure Recorded (s : QNetworkReplyInitialSnapshot V) : Prop where
  sizes : s.snapshots.Pairwise fun a b => a.2.streamSize ≤ b.2.streamSize
  bounded : ∀ e ∈ s.snapshots, 0 ≤ e.2.streamSize ∧ e.2.streamSize ≤ s.stream.length
  signals : ∀ e ∈ s.snapshots.drop 1, e.1 ≠ .initial
  first : ∃ e rest, s.snapshots = (.initial, e) :: rest

/-- The first snapshot of a reply is a record. -/
theorem recorded_ofReply (number : UInt32) (reply : QNetworkReply V) :
    Recorded (.ofReply number reply) where
  sizes := List.pairwise_singleton _ _
  bounded e he := by
    rw [List.mem_singleton.mp he]
    exact ⟨Int.natCast_nonneg _, Int.le_refl _⟩
  signals e he := nomatch he
  first := ⟨_, [], rfl⟩

/-- A record that takes one more signal is a record. -/
theorem Recorded.takeSnapshot {s : QNetworkReplyInitialSnapshot V} (h : Recorded s)
    {signal : NetworkSignal} (hsignal : signal ≠ .initial) (reply : QNetworkReply V) :
    Recorded (s.takeSnapshot signal reply) := by
  obtain ⟨e, rest, hfirst⟩ := h.first
  constructor
  · -- the stream only grows, so the new size is the largest
    refine List.pairwise_append.mpr ⟨h.sizes, List.pairwise_singleton _ _, fun a ha b hb => ?_⟩
    rw [List.mem_singleton.mp hb]
    have := (h.bounded a ha).2
    simp only [List.length_append]
    omega
  · intro a ha
    rcases List.mem_append.mp ha with ha | ha
    · have := h.bounded a ha
      simp only [QNetworkReplyInitialSnapshot.takeSnapshot, List.length_append]
      omega
    · rw [List.mem_singleton.mp ha]
      simp only [QNetworkReplyInitialSnapshot.takeSnapshot]
      omega
  · intro a ha
    simp only [QNetworkReplyInitialSnapshot.takeSnapshot, hfirst, List.cons_append,
      List.drop_one, List.tail_cons] at ha
    rcases List.mem_append.mp ha with ha | ha
    · exact h.signals a (by rw [hfirst]; exact ha)
    · rw [List.mem_singleton.mp ha]
      exact hsignal
  · exact ⟨e, rest ++ _, by rw [QNetworkReplyInitialSnapshot.takeSnapshot, hfirst]; rfl⟩

/-- What has been recorded after any number of signals is a record. -/
theorem recorded_after (number : UInt32) (reply : QNetworkReply V) (arrivals : List (Arrival V)) :
    Recorded (snapshotAfter number reply arrivals) := by
  have general : ∀ (arrivals : List (Arrival V)) (s : QNetworkReplyInitialSnapshot V),
      Recorded s → Recorded (arrivals.foldl (fun s a => s.takeSnapshot a.signal a.reply) s) := by
    intro arrivals
    induction arrivals with
    | nil => exact fun _ h => h
    | cons a as ih => exact fun s h => ih _ (h.takeSnapshot a.notInitial a.reply)
  exact general arrivals _ (recorded_ofReply number reply)

/-- Nothing of it has been read. -/
theorem streamPosition_after (number : UInt32) (reply : QNetworkReply V)
    (arrivals : List (Arrival V)) : (snapshotAfter number reply arrivals).streamPosition = 0 := by
  have general : ∀ (arrivals : List (Arrival V)) (s : QNetworkReplyInitialSnapshot V),
      (arrivals.foldl (fun s a => s.takeSnapshot a.signal a.reply) s).streamPosition =
        s.streamPosition := by
    intro arrivals
    induction arrivals with
    | nil => exact fun _ => rfl
    | cons a as ih => exact fun s => ih (s.takeSnapshot a.signal a.reply)
  exact general arrivals _

/-- A snapshot that shows a beginning of another one. -/
structure Shown (s final : QNetworkReplyInitialSnapshot V) : Prop where
  number : s.sameUrlSequenceNumber = final.sameUrlSequenceNumber
  snapshots : s.snapshots <+: final.snapshots
  stream : s.stream <+: final.stream

theorem Shown.refl (s : QNetworkReplyInitialSnapshot V) : Shown s s :=
  ⟨rfl, List.prefix_refl _, List.prefix_refl _⟩

/-- More signals show more. -/
theorem shown_foldl (arrivals : List (Arrival V)) (s : QNetworkReplyInitialSnapshot V) :
    Shown s (arrivals.foldl (fun s a => s.takeSnapshot a.signal a.reply) s) := by
  induction arrivals generalizing s with
  | nil => exact .refl s
  | cons a as ih =>
    obtain ⟨hnumber, hsnapshots, hstream⟩ := ih (s.takeSnapshot a.signal a.reply)
    exact ⟨hnumber, (List.prefix_append _ _).trans hsnapshots,
      (List.prefix_append _ _).trans hstream⟩

/-! ## What the network code should see -/

/-- How far the network code is: the entry that is shown, and the bytes that were read. -/
structure Reader where
  current : Nat
  position : Nat
deriving DecidableEq

/-- The third parameter of the descriptor of an entry: how many `READY_READ` entries there
    are before it, and `ULONG_MAX` for a `FINISHED` entry. -/
def eventNumber (entries : List (QNetworkReplySnapshotEntry V)) (k : Nat)
    (signal : NetworkSignal) : Nat :=
  if signal = .finished then ulongMax else (entries.take k).countP fun e => e.1 = .readyRead

/-- The descriptor of the entry after `k`. -/
def nextEvent (url : QUrl) (number : UInt32) (entries : List (QNetworkReplySnapshotEntry V))
    (k : Nat) : Option EventActionDescriptor :=
  entries[k + 1]?.map fun e =>
    networkDescriptor toStdString url number (eventNumber entries (k + 1) e.1)

namespace Reader

variable (url : QUrl) (final : QNetworkReplyInitialSnapshot V)

/-- The size of the entry that is shown. -/
def limit (a : Reader) : Nat :=
  match final.snapshots[a.current]? with
  | some e => e.2.streamSize.toNat
  | none => 0

/-- The bytes that a read gets. -/
def chunk (a : Reader) (maxlen : Int) : Bytes :=
  ((final.stream.take (limit final a)).drop a.position).take maxlen.toNat

/-- What was read and what can be read. -/
theorem take_append_chunk {a : Reader} (h : a.position ≤ limit final a) :
    final.stream.take a.position ++ chunk final a (limit final a - a.position : Nat) =
      final.stream.take (limit final a) := by
  have hread : final.stream.take a.position =
      (final.stream.take (limit final a)).take a.position := by
    rw [List.take_take, Nat.min_eq_left h]
  have hrest : chunk final a (limit final a - a.position : Nat) =
      (final.stream.take (limit final a)).drop a.position := by
    refine List.take_of_length_le ?_
    rw [List.length_drop, List.length_take, Int.toNat_natCast]
    omega
  rw [hread, hrest, List.take_append_drop]

/-- An action, and what is seen of it. -/
def act (a : Reader) : Action → Option (Reader × Observation)
  | .update => do
    let e ← final.snapshots[a.current + 1]?
    let d ← nextEvent toStdString url final.sameUrlSequenceNumber final.snapshots a.current
    return ({ a with current := a.current + 1 }, .updated d.toString e.1)
  | .read maxlen =>
    let bytes := chunk final a maxlen
    some ({ a with position := a.position + bytes.length }, .read maxlen bytes)
  | .peek maxlen => some (a, .peeked maxlen (chunk final a maxlen))

/-- What is seen of a list of actions. -/
def run (actions : List Action) : Option (Reader × List Observation) :=
  actions.foldlM (fun p action =>
    (act toStdString url final p.1 action).map fun q => (q.1, p.2 ++ [q.2])) (⟨0, 0⟩, [])

/-- What is observed of one more action. -/
theorem run_append {actions : List Action} {action : Action} {p : Reader × List Observation}
    (h : run toStdString url final actions = some p) :
    run toStdString url final (actions ++ [action]) =
      (act toStdString url final p.1 action).map fun q => (q.1, p.2 ++ [q.2]) := by
  have h : actions.foldlM _ _ = some p := h
  rw [run, List.foldlM_append, h]
  simp only [Option.bind_eq_bind, Option.bind_some, List.foldlM_cons, List.foldlM_nil,
    Option.pure_def, Option.bind_fun_some]

variable {toStdString} {url final}

/-- What is seen of an action is labelled with it. -/
theorem act_action {a a' : Reader} {action : Action} {o : Observation}
    (h : act toStdString url final a action = some (a', o)) : o.action = action := by
  cases action with
  | update =>
    simp only [act, Option.bind_eq_bind, Option.bind_eq_some_iff, Option.pure_def,
      Option.some.injEq, Prod.mk.injEq] at h
    obtain ⟨e, -, d, -, -, rfl⟩ := h
    rfl
  | read maxlen =>
    obtain ⟨-, rfl⟩ := by simpa only [act, Option.some.injEq, Prod.mk.injEq] using h
    rfl
  | peek maxlen =>
    obtain ⟨-, rfl⟩ := by simpa only [act, Option.some.injEq, Prod.mk.injEq] using h
    rfl

/-- One more action in a history that the reader explains. -/
theorem run_step {seen : List Observation} {a a' : Reader} {o : Observation}
    (h : run toStdString url final (seen.map Observation.action) = some (a, seen))
    (hact : act toStdString url final a o.action = some (a', o)) :
    run toStdString url final ((seen ++ [o]).map Observation.action) =
      some (a', seen ++ [o]) := by
  rw [List.map_append, List.map_singleton, run_append toStdString url final h, hact]
  rfl

/-- Induction over the runs of the reader. -/
theorem run_invariant {P : Reader → List Observation → Prop} (hinit : P ⟨0, 0⟩ [])
    (hstep : ∀ a seen action a' o, P a seen → act toStdString url final a action = some (a', o) →
      P a' (seen ++ [o])) {actions : List Action} {a : Reader} {seen : List Observation}
    (h : run toStdString url final actions = some (a, seen)) : P a seen := by
  induction actions using List.reverseRecOn generalizing a seen with
  | nil =>
    obtain ⟨rfl, rfl⟩ := by simpa only [run, List.foldlM_nil, Option.pure_def, Option.some.injEq,
      Prod.mk.injEq] using h
    exact hinit
  | append_singleton actions action ih =>
    cases hrun : run toStdString url final actions with
    | none =>
      have hrun : actions.foldlM _ _ = none := hrun
      rw [run, List.foldlM_append, hrun] at h
      exact nomatch h
    | some p =>
      rw [run_append toStdString url final hrun] at h
      obtain ⟨⟨a', o⟩, hact, heq⟩ := Option.map_eq_some_iff.mp h
      obtain ⟨rfl, rfl⟩ := Prod.mk.inj heq
      exact hstep p.1 p.2 action a' o (ih hrun) hact

/-- The updates run under the descriptors of the entries, one after the other. -/
theorem run_updates {actions : List Action} {a : Reader} {seen : List Observation}
    (h : run toStdString url final actions = some (a, seen)) :
    (seen.filterMap Observation.descriptor?).length = a.current ∧
      ∀ j d, (seen.filterMap Observation.descriptor?)[j]? = some d →
        ∃ e, nextEvent toStdString url final.sameUrlSequenceNumber final.snapshots j = some e ∧
          d = e.toString := by
  refine run_invariant (P := fun a seen =>
    (seen.filterMap Observation.descriptor?).length = a.current ∧
      ∀ j d, (seen.filterMap Observation.descriptor?)[j]? = some d →
        ∃ e, nextEvent toStdString url final.sameUrlSequenceNumber final.snapshots j = some e ∧
          d = e.toString) ⟨rfl, fun _ _ h => nomatch h⟩ ?_ h
  rintro a seen action a' o ⟨hlen, hall⟩ hact
  rw [List.filterMap_append]
  cases action with
  | update =>
    simp only [act, Option.bind_eq_bind, Option.bind_eq_some_iff, Option.pure_def,
      Option.some.injEq, Prod.mk.injEq] at hact
    obtain ⟨e, -, d, hd, rfl, rfl⟩ := hact
    refine ⟨by simp [Observation.descriptor?, hlen], fun j d' hj => ?_⟩
    simp only [List.filterMap_cons, Observation.descriptor?, List.filterMap_nil] at hj
    -- an earlier update, or the one that has just run
    rcases Nat.lt_or_ge j a.current with hlt | hge
    · rw [List.getElem?_append_left (by omega)] at hj
      exact hall j d' hj
    · rw [List.getElem?_append_right (by omega)] at hj
      obtain ⟨hlt, rfl⟩ := List.getElem?_eq_some_iff.mp hj
      have hcurrent : j = a.current := by
        rw [List.length_singleton] at hlt
        omega
      exact ⟨d, hcurrent ▸ hd, List.getElem_singleton hlt⟩
  | read maxlen =>
    obtain ⟨rfl, rfl⟩ := by simpa only [act, Option.some.injEq, Prod.mk.injEq] using hact
    rw [show [_].filterMap Observation.descriptor? = [] from rfl, List.append_nil]
    exact ⟨hlen, hall⟩
  | peek maxlen =>
    obtain ⟨rfl, rfl⟩ := by simpa only [act, Option.some.injEq, Prod.mk.injEq] using hact
    rw [show [_].filterMap Observation.descriptor? = [] from rfl, List.append_nil]
    exact ⟨hlen, hall⟩

/-- The bytes that were read are the first ones of the stream, and within the entry that is
    shown. -/
theorem run_reads {actions : List Action} {a : Reader} {seen : List Observation}
    (hfinal : Recorded final) (h : run toStdString url final actions = some (a, seen)) :
    a.current < final.snapshots.length ∧ a.position ≤ limit final a ∧
      seen.flatMap Observation.bytesRead = final.stream.take a.position := by
  refine run_invariant (P := fun a seen => a.current < final.snapshots.length ∧
    a.position ≤ limit final a ∧
      seen.flatMap Observation.bytesRead = final.stream.take a.position) ?_ ?_ h
  · obtain ⟨e, rest, hfirst⟩ := hfinal.first
    exact ⟨by rw [hfirst]; exact Nat.zero_lt_succ _, Nat.zero_le _, rfl⟩
  · rintro a seen action a' o ⟨hlt, hle, hread⟩ hact
    rw [List.flatMap_append]
    cases action with
    | update =>
      simp only [act, Option.bind_eq_bind, Option.bind_eq_some_iff, Option.pure_def,
        Option.some.injEq, Prod.mk.injEq] at hact
      obtain ⟨e, he, d, -, rfl, rfl⟩ := hact
      obtain ⟨hlt', rfl⟩ := List.getElem?_eq_some_iff.mp he
      refine ⟨hlt', Nat.le_trans hle ?_, by simpa [Observation.bytesRead] using hread⟩
      -- the next entry shows at least as much
      have hsize := List.pairwise_iff_getElem.mp hfinal.sizes a.current (a.current + 1) hlt hlt'
        (Nat.lt_succ_self _)
      simp only [limit, List.getElem?_eq_getElem hlt, List.getElem?_eq_getElem hlt']
      omega
    | read maxlen =>
      obtain ⟨rfl, rfl⟩ := by simpa only [act, Option.some.injEq, Prod.mk.injEq] using hact
      -- the bytes that are read follow those that have been read
      have hchunk : final.stream.take a.position ++ chunk final a maxlen =
          final.stream.take (a.position + (chunk final a maxlen).length) := by
        rw [List.take_add]
        congr 1
        refine List.prefix_iff_eq_take.mp ?_
        rw [chunk, List.drop_take]
        exact (List.take_prefix _ _).trans (List.take_prefix _ _)
      have hlen : (chunk final a maxlen).length ≤ limit final a - a.position := by
        simp only [chunk, List.length_take, List.length_drop]
        omega
      refine ⟨hlt, ?_, ?_⟩
      · change a.position + _ ≤ limit final a
        omega
      · rw [hread, ← hchunk]
        simp [Observation.bytesRead]
    | peek maxlen =>
      obtain ⟨rfl, rfl⟩ := by simpa only [act, Option.some.injEq, Prod.mk.injEq] using hact
      exact ⟨hlt, hle, by simpa [Observation.bytesRead] using hread⟩

end Reader

end ReplyRun

end R4
