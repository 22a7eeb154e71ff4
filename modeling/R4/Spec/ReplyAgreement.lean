import Mathlib.Algebra.Group.Int.Defs
import Mathlib.Data.Int.Basic
import R4.ForStd.List
import R4.Spec.ReplyRun

/-!
# Live and replayed replies agree

A live reply shows a beginning of the snapshot that is recorded in the end, and a replayed
one shows all of it from the start. In both the queue is what follows the entry that is
shown, the counter has passed the entry that is scheduled, and a read is cut off at the size
of the entry that is shown. So the network code cannot tell them apart.

## Key results

- `enqueueSnapshot_inv`, `updateSnapshot_inv`: the queue after each step
- `replyInv_step`: the invariant of both machines
- `replay_run`: whatever the reader does can be done with a replayed reply
- `live_and_replayed_replies_agree`: what holds of all runs
-/

namespace R4.ReplyRun

open TimerRun

variable {V T : Type} [LinearOrder T] [AddZeroClass T] {toStdString : QString → StdString}

/-! ## The queue -/

/-- The reply shows the entry `k`, and the entries after it are queued. -/
structure QueueInv (url : QUrl) (entries : List (QNetworkReplySnapshotEntry V)) (k : Nat)
    (c : QNetworkReplyControllable V) : Prop where
  url : c.url = url
  current : entries[k]?.map Prod.snd = some c.currentSnapshot
  queue : c.snapshotQueue = entries.drop (k + 1)
  flag : c.nextSnapshotUpdateTimerRunning = true ↔ c.snapshotQueue ≠ []
  sequence : c.sequenceNumber = (entries.take (k + 2)).countP fun e => e.1 = .readyRead

/-- An idle reply schedules the next entry, if there is one. -/
theorem schedule_inv {url : QUrl} {entries : List (QNetworkReplySnapshotEntry V)} {k : Nat}
    {c : QNetworkReplyControllable V} (number : UInt32)
    (hsignals : ∀ e ∈ entries.drop 1, e.1 ≠ .initial) (hurl : c.url = url)
    (hcurrent : entries[k]?.map Prod.snd = some c.currentSnapshot)
    (hqueue : c.snapshotQueue = entries.drop (k + 1))
    (hidle : c.nextSnapshotUpdateTimerRunning = false)
    (hsequence : c.sequenceNumber = (entries.take (k + 1)).countP fun e => e.1 = .readyRead) :
    QueueInv url entries k (c.scheduleNextSnapshotUpdate toStdString number).1 ∧
      (c.scheduleNextSnapshotUpdate toStdString number).2 =
        nextEvent toStdString url number entries k := by
  unfold QNetworkReplyControllable.scheduleNextSnapshotUpdate
  rw [if_neg (by rw [hidle]; decide)]
  split
  · rename_i hnil
    -- nothing is queued, so nothing is scheduled
    have hlen : entries.length ≤ k + 1 := List.drop_eq_nil_iff.mp (hqueue.symm.trans hnil)
    refine ⟨⟨hurl, hcurrent, hqueue, ?_, ?_⟩, ?_⟩
    · simp [hidle, hnil]
    · rw [hsequence, List.take_of_length_le hlen, List.take_of_length_le (Nat.le_succ_of_le hlen)]
    · rw [nextEvent, List.getElem?_eq_none hlen, Option.map_none]
  · rename_i signal snapshot rest hcons
    have hdrop : entries.drop (k + 1) = (signal, snapshot) :: rest := hqueue.symm.trans hcons
    have hentry : entries[k + 1]? = some (signal, snapshot) := by
      rw [← List.head?_drop, hdrop, List.head?_cons]
    have hsignal : signal ≠ .initial := by
      refine hsignals (signal, snapshot) ?_
      refine List.mem_of_getElem? (i := k) ?_
      rw [List.getElem?_drop, Nat.add_comm, hentry]
    -- the sequence number counts the `READY_READ` entries up to the one that is scheduled
    have htake : (entries.take (k + 2)).countP (fun e => e.1 = .readyRead) =
        (entries.take (k + 1)).countP (fun e => e.1 = .readyRead) +
          if signal = .readyRead then 1 else 0 := by
      rw [List.take_add_one, hentry, List.countP_append, Option.toList_some,
        List.countP_singleton]
      simp only [decide_eq_true_eq]
    split
    · -- the last entry has a number of its own, and the counter stays
      rename_i hfinished
      refine ⟨⟨hurl, hcurrent, hqueue, ?_, ?_⟩, ?_⟩
      · simp [hcons]
      · rw [htake, hfinished, hsequence]
        rfl
      · rw [nextEvent, hentry, Option.map_some, eventNumber, if_pos hfinished, hurl]
    · rename_i hfinished
      have hready : signal = .readyRead := by
        cases signal with
        | initial => exact absurd rfl hsignal
        | finished => exact absurd rfl hfinished
        | readyRead => rfl
      refine ⟨⟨hurl, hcurrent, hqueue, ?_, ?_⟩, ?_⟩
      · simp [hcons]
      · rw [htake, if_pos hready, hsequence]
      · rw [nextEvent, hentry, Option.map_some, eventNumber, if_neg hfinished, hurl, hsequence]

/-- How a step changes what is scheduled next: it starts the timer only if nothing was. -/
def Starts (before after started : Option EventActionDescriptor) : Prop :=
  (started = none ∧ after = before) ∨ (before = none ∧ started = after)

/-- One more entry. -/
theorem enqueueSnapshot_inv {url : QUrl} (number : UInt32)
    {entries : List (QNetworkReplySnapshotEntry V)} {k : Nat} {c : QNetworkReplyControllable V}
    {entry : QNetworkReplySnapshotEntry V} (inv : QueueInv url entries k c)
    (hsignals : ∀ e ∈ (entries ++ [entry]).drop 1, e.1 ≠ .initial) :
    QueueInv url (entries ++ [entry]) k (c.enqueueSnapshot toStdString number entry).1 ∧
      Starts (nextEvent toStdString url number entries k)
        (nextEvent toStdString url number (entries ++ [entry]) k)
        (c.enqueueSnapshot toStdString number entry).2 := by
  have hlt : k < entries.length := by
    have h := inv.current
    rw [Option.map_eq_some_iff] at h
    obtain ⟨e, he, -⟩ := h
    exact (List.getElem?_eq_some_iff.mp he).1
  have hcurrent : (entries ++ [entry])[k]?.map Prod.snd = some c.currentSnapshot := by
    rw [List.getElem?_append_left hlt, inv.current]
  have hqueue : c.snapshotQueue ++ [entry] = (entries ++ [entry]).drop (k + 1) := by
    rw [inv.queue, List.drop_append_of_le_length hlt]
  unfold QNetworkReplyControllable.enqueueSnapshot
  by_cases hflag : c.nextSnapshotUpdateTimerRunning = true
  · -- an entry is scheduled already
    have hne := inv.flag.mp hflag
    have hlt' : k + 1 < entries.length := by
      rw [inv.queue] at hne
      exact Nat.lt_of_not_le fun hle => hne (List.drop_eq_nil_of_le hle)
    rw [QNetworkReplyControllable.scheduleNextSnapshotUpdate, if_pos hflag]
    refine ⟨⟨inv.url, hcurrent, hqueue, by simp [hflag], ?_⟩, .inl ⟨rfl, ?_⟩⟩
    · rw [List.take_append_of_le_length hlt']
      exact inv.sequence
    · simp only [nextEvent, eventNumber]
      rw [List.getElem?_append_left hlt', List.take_append_of_le_length (Nat.le_of_lt hlt')]
  · -- the new entry is the only one in the queue, and is scheduled
    have hnil : c.snapshotQueue = [] := by
      by_contra hne
      exact hflag (inv.flag.mpr hne)
    have hlen : entries.length = k + 1 :=
      Nat.le_antisymm (List.drop_eq_nil_iff.mp (inv.queue.symm.trans hnil)) hlt
    obtain ⟨hinv, hstarted⟩ := schedule_inv (c := { c with
      snapshotQueue := c.snapshotQueue ++ [entry] }) number hsignals inv.url hcurrent hqueue
      (by simpa using hflag)
      (by rw [List.take_append_of_le_length (by omega), List.take_of_length_le (by omega)]
          have h := inv.sequence
          rwa [List.take_of_length_le (by omega)] at h)
    refine ⟨hinv, .inr ⟨?_, hstarted⟩⟩
    rw [nextEvent, List.getElem?_eq_none (by omega), Option.map_none]

/-- A signal of Qt's reply adds an entry to the snapshot and to the queue. -/
theorem receive_eq (c : QNetworkReplyControllable V) (s : QNetworkReplyInitialSnapshot V)
    (signal : NetworkSignal) (reply : QNetworkReply V) :
    ∃ entry, (s.takeSnapshot signal reply).snapshots = s.snapshots ++ [entry] ∧
      c.receive toStdString s signal reply =
        ((c.enqueueSnapshot toStdString s.sameUrlSequenceNumber entry).1,
          s.takeSnapshot signal reply,
          (c.enqueueSnapshot toStdString s.sameUrlSequenceNumber entry).2) := by
  refine ⟨_, rfl, ?_⟩
  simp only [QNetworkReplyControllable.receive, QNetworkReplyInitialSnapshot.takeSnapshot,
    List.getLast?_append, List.getLast?_singleton, Option.some_or]

/-- All entries that are left. -/
theorem enqueueAll_inv {url : QUrl} (number : UInt32) {k : Nat}
    (more : List (QNetworkReplySnapshotEntry V)) {entries : List (QNetworkReplySnapshotEntry V)}
    {c : QNetworkReplyControllable V} (inv : QueueInv url entries k c)
    (hsignals : ∀ e ∈ (entries ++ more).drop 1, e.1 ≠ .initial) :
    QueueInv url (entries ++ more) k
        (QNetworkReplyControllable.enqueueAll toStdString number more c).1 ∧
      Starts (nextEvent toStdString url number entries k)
        (nextEvent toStdString url number (entries ++ more) k)
        (QNetworkReplyControllable.enqueueAll toStdString number more c).2 := by
  induction more generalizing entries c with
  | nil =>
    rw [List.append_nil]
    exact ⟨inv, .inl ⟨rfl, rfl⟩⟩
  | cons entry more ih =>
    have happend : entries ++ entry :: more = entries ++ [entry] ++ more := by
      rw [List.append_assoc, List.singleton_append]
    rw [happend] at hsignals ⊢
    have hfirst : ∀ e ∈ (entries ++ [entry]).drop 1, e.1 ≠ .initial := by
      intro e he
      refine hsignals e ?_
      rw [List.drop_append_of_le_length (by simp)]
      exact List.mem_append_left _ he
    obtain ⟨hinv, hstarts⟩ := enqueueSnapshot_inv number inv hfirst
    obtain ⟨hinv', hstarts'⟩ := ih hinv hsignals
    refine ⟨hinv', ?_⟩
    simp only [QNetworkReplyControllable.enqueueAll]
    -- the timer is started by the first entry that finds it idle
    rcases hstarts with ⟨hnone, hsame⟩ | ⟨hnone, hsome⟩
    · rw [hnone, Option.none_or, ← hsame]
      exact hstarts'
    · refine .inr ⟨hnone, ?_⟩
      rcases hstarts' with ⟨hnone', hsame'⟩ | ⟨hnone', hsome'⟩
      · rw [hsome, hnone', Option.or_none, hsame']
      · rw [hsome, hnone', Option.none_or, hsome']

variable (toStdString) in
/-- The next entry is shown, and the one after it is scheduled. -/
theorem updateSnapshot_inv {url : QUrl} (number : UInt32)
    {entries : List (QNetworkReplySnapshotEntry V)} {k : Nat} {c : QNetworkReplyControllable V}
    (inv : QueueInv url entries k c) (hsignals : ∀ e ∈ entries.drop 1, e.1 ≠ .initial)
    {entry : QNetworkReplySnapshotEntry V} (hentry : entries[k + 1]? = some entry) :
    ∃ c', c.updateSnapshot toStdString number =
        some (c', nextEvent toStdString url number entries (k + 1), entry.1) ∧
      QueueInv url entries (k + 1) c' := by
  obtain ⟨hlt, rfl⟩ := List.getElem?_eq_some_iff.mp hentry
  -- the queue holds what comes behind the current entry
  have hqueue : c.snapshotQueue = entries[k + 1] :: entries.drop (k + 2) := by
    rw [inv.queue, List.drop_eq_getElem_cons hlt]
  -- only the first entry is the initial one, which has been taken at the start
  have hsignal : entries[k + 1].1 ≠ .initial := by
    refine hsignals _ (List.mem_of_getElem? (i := k) ?_)
    rw [List.getElem?_drop, Nat.add_comm, hentry]
  -- the timer is started again for the entry behind this one
  obtain ⟨hinv, hstarted⟩ := schedule_inv (k := k + 1) (c := { c with
      snapshotQueue := entries.drop (k + 2)
      currentSnapshot := entries[k + 1].2
      nextSnapshotUpdateTimerRunning := false }) number hsignals inv.url
    (by rw [hentry]; rfl) rfl rfl inv.sequence
  refine ⟨_, ?_, hinv⟩
  unfold QNetworkReplyControllable.updateSnapshot
  rw [hqueue, ← hstarted]
  dsimp only
  -- the initial signal is none of those that are given
  split
  · rename_i heq
    exact absurd heq hsignal
  · rfl

/-! ## The timer -/

/-- The next event is one. -/
theorem nextEvent_notNull {url : QUrl} {number : UInt32}
    {entries : List (QNetworkReplySnapshotEntry V)} {k : Nat} {d : EventActionDescriptor}
    (h : nextEvent toStdString url number entries k = some d) : d.isNull = false := by
  obtain ⟨e, -, rfl⟩ := Option.map_eq_some_iff.mp h
  rfl

/-- The timer after a step that may start it. -/
theorem armed_startTimer {r r' : TimerRun Unit T} {before started : Option EventActionDescriptor}
    {url : QUrl} {number : UInt32} {entries : List (QNetworkReplySnapshotEntry V)} {k : Nat}
    (h : Armed r before)
    (hstarts : Starts before (nextEvent toStdString url number entries k) started)
    {now : T} (hstart : startTimer r started now = some r') :
    Armed r' (nextEvent toStdString url number entries k) := by
  rcases hstarts with ⟨rfl, hsame⟩ | ⟨rfl, rfl⟩
  · obtain rfl := Option.some.inj hstart
    exact hsame ▸ h
  · cases hnext : nextEvent toStdString url number entries k with
    | none =>
      rw [hnext] at hstart
      obtain rfl := Option.some.inj hstart
      exact h
    | some d =>
      rw [hnext] at hstart
      exact (h.start (nextEvent_notNull hnext) hstart).1

/-! ## The invariant -/

variable (toStdString) in
/-- What holds of a live and of a replayed reply, for what the reader has seen of it. -/
structure ReplyInv (url : QUrl) (final : QNetworkReplyInitialSnapshot V) (r : ReplyRun V T)
    (a : Reader) : Prop where
  saw : Reader.run toStdString url final (r.observed.map Observation.action) = some (a, r.observed)
  position : r.initialSnapshot.streamPosition = a.position
  shown : Shown r.initialSnapshot final
  recorded : Recorded r.initialSnapshot
  queue : QueueInv url r.initialSnapshot.snapshots a.current r.controllable
  armed : Armed r.timers
    (nextEvent toStdString url final.sameUrlSequenceNumber r.initialSnapshot.snapshots a.current)

/-- The size of the snapshot that is shown. -/
theorem ReplyInv.limit_eq {url : QUrl} {final : QNetworkReplyInitialSnapshot V}
    {r : ReplyRun V T} {a : Reader} (inv : ReplyInv toStdString url final r a) :
    (Reader.limit final a : Int) = r.controllable.currentSnapshot.streamSize ∧
      Reader.limit final a ≤ r.initialSnapshot.stream.length := by
  obtain ⟨e, he, hcurrent⟩ := Option.map_eq_some_iff.mp inv.queue.current
  have hbounded := inv.recorded.bounded e (List.mem_of_getElem? he)
  simp only [Reader.limit, List.getElem?_of_prefix inv.shown.snapshots he, ← hcurrent]
  omega

/-- A read gets what the reader expects. -/
theorem ReplyInv.peek_eq {url : QUrl} {final : QNetworkReplyInitialSnapshot V}
    {r : ReplyRun V T} {a : Reader} (inv : ReplyInv toStdString url final r a)
    (hfinal : Recorded final)
    (maxlen : Int) :
    r.controllable.currentSnapshot.peek r.initialSnapshot maxlen =
      Reader.chunk final a maxlen := by
  obtain ⟨hsize, hlimit⟩ := inv.limit_eq
  have hposition := (Reader.run_reads hfinal inv.saw).2.1
  rw [Reader.chunk, List.take_drop_take_of_prefix inv.shown.stream hlimit]
  simp only [QNetworkReplySnapshot.peek, QNetworkReplyInitialSnapshot.peek,
    QNetworkReplySnapshot.bytesAvailable, inv.position, ← hsize]
  congr 1
  omega

/-- A step keeps the invariant, if a signal that arrives belongs to the final snapshot. -/
theorem replyInv_step {url : QUrl} {final : QNetworkReplyInitialSnapshot V}
    {arrivals : List (Arrival V)} {r r' : ReplyRun V T} {a : Reader} {l : Label T}
    (hfinal : Recorded final) (inv : ReplyInv toStdString url final r a)
    (hshown : ∀ arrival, arrivals[r.arrived]? = some arrival →
      Shown (r.initialSnapshot.takeSnapshot arrival.signal arrival.reply) final)
    (h : r.exec toStdString arrivals l = some r') : ∃ a', ReplyInv toStdString url final r' a' := by
  cases l with
  | arrive now =>
    simp only [exec, Option.bind_eq_bind, Option.bind_eq_some_iff, Option.pure_def,
      Option.some.injEq] at h
    obtain ⟨arrival, harrival, timers, htimers, rfl⟩ := h
    have hrecorded := inv.recorded.takeSnapshot arrival.notInitial arrival.reply
    obtain ⟨entry, hentry, hreceive⟩ := receive_eq r.controllable r.initialSnapshot
      arrival.signal arrival.reply
    have hsignals := hrecorded.signals
    rw [hentry] at hsignals
    obtain ⟨hqueue, hstarts⟩ := enqueueSnapshot_inv final.sameUrlSequenceNumber inv.queue hsignals
    rw [hreceive, inv.shown.number] at htimers ⊢
    rw [← hentry] at hqueue hstarts
    exact ⟨a, inv.saw, inv.position, hshown arrival harrival, hrecorded, hqueue,
      armed_startTimer inv.armed hstarts htimers⟩
  | expire fireTime now =>
    simp only [exec, Option.bind_eq_bind, Option.bind_eq_some_iff, Option.pure_def,
      Option.some.injEq] at h
    obtain ⟨timers, htimers, rfl⟩ := h
    exact ⟨a, inv.saw, inv.position, inv.shown, inv.recorded, inv.queue,
      (inv.armed.expire htimers).1⟩
  | beginUpdate d id originalId now startedAt =>
    simp only [exec, Option.bind_eq_bind, Option.bind_eq_some_iff, Option.pure_def,
      Option.some.injEq] at h
    obtain ⟨timers, hbegin, ⟨c, started, signal⟩, hupdate, timers', hstart, rfl⟩ := h
    obtain ⟨hidle, e, hnext, hstring⟩ := inv.armed.beginDispatch hbegin
    obtain ⟨entry, hentry, hname⟩ := Option.map_eq_some_iff.mp hnext
    obtain ⟨c', hupdate', hqueue⟩ :=
      updateSnapshot_inv toStdString final.sameUrlSequenceNumber inv.queue
      inv.recorded.signals hentry
    rw [inv.shown.number, hupdate'] at hupdate
    obtain ⟨rfl, rfl, rfl⟩ := by
      simpa only [Option.some.injEq, Prod.mk.injEq] using hupdate
    refine ⟨{ a with current := a.current + 1 }, ?_, inv.position, inv.shown, inv.recorded,
      hqueue, armed_startTimer hidle (.inr ⟨rfl, rfl⟩) hstart⟩
    -- what is shown of the snapshot is a beginning of the final one, so the entry is the same
    have hentry' := List.getElem?_of_prefix inv.shown.snapshots hentry
    have hnext' : nextEvent toStdString url final.sameUrlSequenceNumber final.snapshots a.current =
        some e := by
      rw [nextEvent, hentry', Option.map_some, ← hname]
      obtain ⟨t, ht⟩ := inv.shown.snapshots
      rw [← ht, eventNumber, eventNumber, List.take_append_of_le_length
        (Nat.le_of_lt (List.getElem?_eq_some_iff.mp hentry).1)]
    refine Reader.run_step inv.saw ?_
    simp only [Observation.action, Reader.act, hentry', hnext', Option.bind_eq_bind,
      Option.bind_some, Option.pure_def, hstring]
  | endUpdate originalId =>
    simp only [exec, Option.bind_eq_bind, Option.bind_eq_some_iff, Option.pure_def,
      Option.some.injEq] at h
    obtain ⟨timers, htimers, rfl⟩ := h
    exact ⟨a, inv.saw, inv.position, inv.shown, inv.recorded, inv.queue,
      (inv.armed.endDispatch htimers).1⟩
  | read maxlen =>
    obtain rfl := Option.some.inj h
    -- the position moves by what the reader expects to be read
    have hchunk := inv.peek_eq hfinal maxlen
    refine ⟨{ a with position := a.position + (Reader.chunk final a maxlen).length }, ?_, ?_,
      ⟨inv.shown.number, inv.shown.snapshots, inv.shown.stream⟩,
      ⟨inv.recorded.sizes, inv.recorded.bounded, inv.recorded.signals, inv.recorded.first⟩,
      inv.queue, inv.armed⟩
    · refine Reader.run_step inv.saw ?_
      rw [← hchunk]
      simp only [Observation.action, Reader.act, ← hchunk]
      rfl
    · rw [← hchunk, ← inv.position]
      rfl
  | peek maxlen =>
    obtain rfl := Option.some.inj h
    refine ⟨a, Reader.run_step inv.saw ?_, inv.position, inv.shown, inv.recorded, inv.queue,
      inv.armed⟩
    simp only [Observation.action, Reader.act, inv.peek_eq hfinal maxlen]

/-! ## Live and replayed runs -/

/-- A step takes a snapshot for the next signal, or changes at most the position in the
    stream. -/
theorem exec_snapshot {arrivals : List (Arrival V)} {r r' : ReplyRun V T} {l : Label T}
    (h : r.exec toStdString arrivals l = some r') :
    (∃ arrival, arrivals[r.arrived]? = some arrival ∧ r'.arrived = r.arrived + 1 ∧
        r'.initialSnapshot = r.initialSnapshot.takeSnapshot arrival.signal arrival.reply) ∨
      (r'.arrived = r.arrived ∧ r'.initialSnapshot.rewound = r.initialSnapshot.rewound) := by
  cases l with
  | arrive now =>
    -- the reply has changed
    simp only [exec, Option.bind_eq_bind, Option.bind_eq_some_iff, Option.pure_def,
      Option.some.injEq] at h
    obtain ⟨arrival, harrival, timers, -, rfl⟩ := h
    obtain ⟨entry, -, hreceive⟩ := receive_eq r.controllable r.initialSnapshot
      arrival.signal arrival.reply
    exact .inl ⟨arrival, harrival, rfl, by rw [hreceive]⟩
  | expire fireTime now =>
    -- everything else leaves the snapshot alone
    simp only [exec, Option.bind_eq_bind, Option.bind_eq_some_iff, Option.pure_def,
      Option.some.injEq] at h
    obtain ⟨timers, -, rfl⟩ := h
    exact .inr ⟨rfl, rfl⟩
  | beginUpdate d id originalId now startedAt =>
    simp only [exec, Option.bind_eq_bind, Option.bind_eq_some_iff, Option.pure_def,
      Option.some.injEq] at h
    obtain ⟨timers, -, p, -, timers', -, rfl⟩ := h
    exact .inr ⟨rfl, rfl⟩
  | endUpdate originalId =>
    simp only [exec, Option.bind_eq_bind, Option.bind_eq_some_iff, Option.pure_def,
      Option.some.injEq] at h
    obtain ⟨timers, -, rfl⟩ := h
    exact .inr ⟨rfl, rfl⟩
  | read maxlen =>
    obtain rfl := Option.some.inj h
    exact .inr ⟨rfl, rfl⟩
  | peek maxlen =>
    obtain rfl := Option.some.inj h
    exact .inr ⟨rfl, rfl⟩

/-- The reply of a fresh initial snapshot, before anything is queued. -/
theorem queueInv_init (url : QUrl) (e : QNetworkReplySnapshot V) :
    QueueInv url [(.initial, e)] 0 ⟨url, 0, false, e, []⟩ where
  url := rfl
  current := rfl
  queue := rfl
  flag := by simp
  sequence := rfl

/-- What has arrived of a live reply belongs to its final snapshot. -/
theorem shown_of_arrived {number : UInt32} {script : Script V}
    {s : QNetworkReplyInitialSnapshot V} {n : Nat}
    (h : s.rewound = snapshotAfter number script.reply (script.arrivals.take n)) :
    Shown s (finalSnapshot number script) := by
  have hshown := shown_foldl (script.arrivals.drop n) s.rewound
  rw [h, snapshotAfter, ← List.foldl_append, List.take_append_drop, ← snapshotAfter, ← h]
    at hshown
  exact ⟨hshown.number, hshown.snapshots, hshown.stream⟩

/-- In every live run the reply shows what the reader sees of the record so far. -/
theorem replyInv_live {number : UInt32} {script : Script V} {r : ReplyRun V T}
    (h : (lives toStdString number script).Reachable r) :
    r.initialSnapshot.rewound =
        snapshotAfter number script.reply (script.arrivals.take r.arrived) ∧
      ∃ a, ReplyInv toStdString script.reply.url (finalSnapshot number script) r a := by
  refine Lts.Reachable.invariant (P := fun r => r.initialSnapshot.rewound =
      snapshotAfter number script.reply (script.arrivals.take r.arrived) ∧
    ∃ a, ReplyInv toStdString script.reply.url (finalSnapshot number script) r a) ?_ ?_ h
  · -- at the start nothing has arrived
    rintro _ ⟨c, hc, rfl⟩
    obtain rfl := Option.some.inj hc
    refine ⟨rfl, ⟨0, 0⟩, rfl, rfl, shown_of_arrived (n := 0) rfl, recorded_ofReply _ _,
      queueInv_init _ _, Armed.init⟩
  · rintro r l r' - ⟨hsnapshot, a, inv⟩ hexec
    -- what arrives is appended to the snapshot
    have htake : ∀ arrival, script.arrivals[r.arrived]? = some arrival →
        (r.initialSnapshot.takeSnapshot arrival.signal arrival.reply).rewound =
          snapshotAfter number script.reply (script.arrivals.take (r.arrived + 1)) := by
      intro arrival harrival
      rw [List.take_add_one, harrival, snapshotAfter, List.foldl_append, ← snapshotAfter,
        ← hsnapshot]
      rfl
    refine ⟨?_, replyInv_step (recorded_after _ _ _) inv
      (fun arrival harrival => shown_of_arrived (htake arrival harrival)) hexec⟩
    -- a signal has arrived, or the snapshot is the one before
    obtain ⟨arrival, harrival, harrived, hsnapshot'⟩ | ⟨harrived, hsnapshot'⟩ :=
      exec_snapshot hexec
    · rw [harrived, hsnapshot', htake arrival harrival]
    · rw [harrived, hsnapshot', hsnapshot]

/-- A replayed reply, right after it was constructed. -/
theorem replay_init (url : QUrl) {final : QNetworkReplyInitialSnapshot V}
    (hfinal : Recorded final) :
    ∃ c, QNetworkReplyControllable.replay toStdString url final =
        some (c, nextEvent toStdString url final.sameUrlSequenceNumber final.snapshots 0) ∧
      QueueInv url final.snapshots 0 c := by
  obtain ⟨e, rest, hfirst⟩ := hfinal.first
  have hsignals := hfinal.signals
  rw [hfirst, ← List.singleton_append] at hsignals
  -- the entries behind the first one are enqueued
  obtain ⟨hqueue, hstarts⟩ := enqueueAll_inv final.sameUrlSequenceNumber rest (queueInv_init url e)
    hsignals
  rw [List.singleton_append, ← hfirst] at hqueue hstarts
  -- only the last of them is behind the current entry, and its descriptor is the next event
  have hstarted : (QNetworkReplyControllable.enqueueAll toStdString final.sameUrlSequenceNumber rest
      ⟨url, 0, false, e, []⟩).2 =
        nextEvent toStdString url final.sameUrlSequenceNumber final.snapshots 0 := by
    rcases hstarts with ⟨hnone, hsame⟩ | ⟨-, hsome⟩
    · rw [hnone, hsame]
      rfl
    · exact hsome
  refine ⟨_, ?_, hqueue⟩
  rw [QNetworkReplyControllable.replay, QNetworkReplyControllable.ofSnapshot, hfirst, ← hfirst,
    ← hstarted]
  simp only [hfirst, List.head?_cons, Option.map_some, List.drop_one, List.tail_cons]

/-- In every replay the reply shows what the reader sees of the record. -/
theorem replyInv_replay {url : QUrl} {final : QNetworkReplyInitialSnapshot V} {r : ReplyRun V T}
    (hfinal : Recorded final) (hposition : final.streamPosition = 0)
    (h : (replays toStdString url final).Reachable r) :
    r.initialSnapshot.rewound = final.rewound ∧ ∃ a, ReplyInv toStdString url final r a := by
  refine Lts.Reachable.invariant (P := fun r => r.initialSnapshot.rewound = final.rewound ∧
    ∃ a, ReplyInv toStdString url final r a) ?_ ?_ h
  · rintro _ ⟨c, started, now, timers, hc, htimers, rfl⟩
    obtain ⟨c', hc', hqueue⟩ := replay_init url hfinal
    obtain ⟨rfl, rfl⟩ := Prod.mk.inj (Option.some.inj (hc'.symm.trans hc))
    exact ⟨rfl, ⟨0, 0⟩, rfl, hposition, .refl final, hfinal, hqueue,
      armed_startTimer Armed.init (.inr ⟨rfl, rfl⟩) htimers⟩
  · rintro r l r' - ⟨hsnapshot, a, inv⟩ hexec
    refine ⟨?_, replyInv_step hfinal inv (fun _ harrival => absurd harrival (by simp)) hexec⟩
    obtain ⟨arrival, harrival, -⟩ | ⟨-, hsnapshot'⟩ := exec_snapshot hexec
    · exact absurd harrival (by simp)
    · rw [hsnapshot', hsnapshot]

/-! ## What a replayed reply can do -/

variable (toStdString) in
/-- A replayed reply between two updates, whose timer is in the heap if there is an entry
    left. -/
structure Waits (url : QUrl) (final : QNetworkReplyInitialSnapshot V) (r : ReplyRun V T) :
    Prop where
  reach : (replays toStdString url final).Reachable r
  idle : r.timers.running = none
  heap : r.controllable.nextSnapshotUpdateTimerRunning = true →
    (r.timers.timers.timers ()).nextFireTime ≠ 0

variable (toStdString) in
/-- An idle timer can be started for the next entry. -/
theorem exists_startTimer {timers : TimerRun Unit T} (h : Armed timers none) (url : QUrl)
    (number : UInt32) {entries : List (QNetworkReplySnapshotEntry V)} {k : Nat}
    {c : QNetworkReplyControllable V} (hqueue : QueueInv url entries k c) (now : T) :
    ∃ timers', startTimer timers (nextEvent toStdString url number entries k) now = some timers' ∧
      timers'.running = timers.running ∧
      (c.nextSnapshotUpdateTimerRunning = true →
        (timers'.timers.timers ()).nextFireTime = now) := by
  cases hnext : nextEvent toStdString url number entries k with
  | none =>
    refine ⟨timers, rfl, rfl, fun hflag => absurd ?_ (hqueue.flag.mp hflag)⟩
    rw [hqueue.queue]
    exact List.drop_eq_nil_of_le (List.getElem?_eq_none_iff.mp (Option.map_eq_none_iff.mp hnext))
  | some d =>
    obtain ⟨timers', htimers⟩ := h.startOneShot_isSome d now
    obtain ⟨-, hrunning, htime⟩ := h.start (nextEvent_notNull hnext) htimers
    exact ⟨timers', htimers, hrunning, fun _ => htime⟩

/-- There is a replay at its start. -/
theorem exists_waits [Nontrivial T] (url : QUrl) {final : QNetworkReplyInitialSnapshot V}
    (hfinal : Recorded final) :
    ∃ r : ReplyRun V T, Waits toStdString url final r ∧ r.observed = [] := by
  obtain ⟨now, hnow⟩ := exists_ne (0 : T)
  obtain ⟨c, hc, hqueue⟩ := replay_init url hfinal
  obtain ⟨timers, htimers, hrunning, htime⟩ := exists_startTimer toStdString (T := T) Armed.init url
    final.sameUrlSequenceNumber hqueue now
  refine ⟨⟨timers, final, c, 0, []⟩,
    ⟨.init ⟨c, _, now, timers, hc, htimers, rfl⟩, hrunning, ?_⟩, rfl⟩
  intro hflag
  rw [htime hflag]
  exact hnow

/-- The next update can be made, if there is an entry left. -/
theorem Waits.update [Nontrivial T] {url : QUrl} {final : QNetworkReplyInitialSnapshot V}
    {r : ReplyRun V T} {a : Reader} (h : Waits toStdString url final r)
    (inv : ReplyInv toStdString url final r a)
    {entry : QNetworkReplySnapshotEntry V}
    (hentry : r.initialSnapshot.snapshots[a.current + 1]? = some entry) :
    ∃ r' : ReplyRun V T, Waits toStdString url final r' ∧
      r'.observed.map Observation.action = r.observed.map Observation.action ++ [.update] := by
  obtain ⟨now, hnow⟩ := exists_ne (0 : T)
  -- the timer is in the heap, and its descriptor is that of the entry
  have hflag : r.controllable.nextSnapshotUpdateTimerRunning = true := by
    refine inv.queue.flag.mpr fun hnil => ?_
    rw [inv.queue.queue, List.drop_eq_nil_iff] at hnil
    exact absurd (List.getElem?_eq_some_iff.mp hentry).1 (Nat.not_lt.mpr hnil)
  have harmed := inv.armed
  obtain ⟨d, hd⟩ : ∃ d, nextEvent toStdString url final.sameUrlSequenceNumber
      r.initialSnapshot.snapshots a.current = some d :=
    ⟨_, by rw [nextEvent, hentry, Option.map_some]⟩
  rw [hd] at harmed
  obtain ⟨fireTime, time, t₁, t₂, hexpire, hbegin, hrunning⟩ := harmed.fire h.idle (h.heap hflag)
  obtain ⟨hidle, -⟩ := (harmed.expire hexpire).1.beginDispatch hbegin
  obtain ⟨c, hupdate, hqueue⟩ :=
    updateSnapshot_inv toStdString final.sameUrlSequenceNumber inv.queue
    inv.recorded.signals hentry
  obtain ⟨t₃, hstart, hrunning', htime⟩ := exists_startTimer toStdString hidle url
    final.sameUrlSequenceNumber hqueue now
  have harmed' := armed_startTimer hidle (.inr ⟨rfl, rfl⟩) hstart
  obtain ⟨t₄, hend⟩ := harmed'.endDispatch_isSome (hrunning'.trans hrunning)
  obtain ⟨-, hnone, hsame⟩ := harmed'.endDispatch hend
  have hreach₁ : (replays toStdString url final).Reachable { r with timers := t₁ } :=
    h.reach.step (l := .expire fireTime time) (by simp [replays, exec, hexpire])
  have hreach₂ : (replays toStdString url final).Reachable { r with
      timers := t₃
      controllable := c
      observed := r.observed ++ [.updated d.toString entry.1] } :=
    hreach₁.step (l := .beginUpdate d 0 0 time now) (by
      simp only [replays, exec, hbegin, inv.shown.number, hupdate, hstart, Option.bind_eq_bind,
        Option.bind_some, Option.pure_def])
  have hreach₃ : (replays toStdString url final).Reachable { r with
      timers := t₄
      controllable := c
      observed := r.observed ++ [.updated d.toString entry.1] } :=
    hreach₂.step (l := .endUpdate 0) (by simp [replays, exec, hend])
  refine ⟨_, ⟨hreach₃, hnone, fun hflag => ?_⟩, ?_⟩
  · rw [hsame, htime hflag]
    exact hnow
  · simp only [List.map_append, List.map_cons, Observation.action, List.map_nil]

/-- Whatever the reader does can be done with a replayed reply. -/
theorem replay_run [Nontrivial T] {url : QUrl} {final : QNetworkReplyInitialSnapshot V}
    (hfinal : Recorded final) (hposition : final.streamPosition = 0) {actions : List Action}
    {a : Reader} {seen : List Observation}
    (h : Reader.run toStdString url final actions = some (a, seen)) :
    ∃ r : ReplyRun V T, (replays toStdString url final).Reachable r ∧ r.observed = seen := by
  have hall : Reader.run toStdString url final (seen.map Observation.action) = some (a, seen) ∧
      ∃ r : ReplyRun V T, Waits toStdString url final r ∧
        r.observed.map Observation.action = seen.map Observation.action := by
    refine Reader.run_invariant (P := fun a seen =>
      Reader.run toStdString url final (seen.map Observation.action) = some (a, seen) ∧
      ∃ r : ReplyRun V T, Waits toStdString url final r ∧
        r.observed.map Observation.action = seen.map Observation.action) ⟨rfl, ?_⟩ ?_ h
    · -- at the start nothing has been read
      obtain ⟨r, hr, hobserved⟩ := exists_waits (T := T) url hfinal
      exact ⟨r, hr, by rw [hobserved]⟩
    · -- the reader and the reply have seen the same so far
      rintro a seen action a' o ⟨hrun, r, hr, hactions⟩ hact
      obtain rfl := Reader.act_action hact
      refine ⟨Reader.run_step hrun hact, ?_⟩
      obtain ⟨hsnapshot, b, inv⟩ := replyInv_replay hfinal hposition hr.reach
      have hsaw := inv.saw
      rw [hactions, hrun] at hsaw
      obtain ⟨rfl, -⟩ := Prod.mk.inj (Option.some.inj hsaw)
      rw [List.map_append, List.map_singleton, ← hactions]
      -- the reply follows the next action of the reader
      cases o with
      | updated d signal =>
        -- the timer fires for the next entry
        simp only [Observation.action, Reader.act, Option.bind_eq_bind,
          Option.bind_eq_some_iff] at hact
        obtain ⟨entry, hentry, -⟩ := hact
        have hsame := congrArg QNetworkReplyInitialSnapshot.snapshots hsnapshot
        simp only [QNetworkReplyInitialSnapshot.rewound] at hsame
        rw [← hsame] at hentry
        exact hr.update inv hentry
      | read maxlen bytes =>
        -- the rest of the actions are calls
        refine ⟨_, ⟨hr.reach.step (l := .read maxlen) rfl, hr.idle, hr.heap⟩, ?_⟩
        simp only [List.map_append, List.map_cons, Observation.action, List.map_nil]
      | peeked maxlen bytes =>
        refine ⟨_, ⟨hr.reach.step (l := .peek maxlen) rfl, hr.idle, hr.heap⟩, ?_⟩
        simp only [List.map_append, List.map_cons, Observation.action, List.map_nil]
  -- both have seen the same at the end
  obtain ⟨hrun, r, hr, hactions⟩ := hall
  obtain ⟨-, b, inv⟩ := replyInv_replay hfinal hposition hr.reach
  have hsaw := inv.saw
  rw [hactions, hrun] at hsaw
  exact ⟨r, hr.reach, (Prod.mk.inj (Option.some.inj hsaw)).2.symm⟩

/-! ## What holds of all runs -/

variable (toStdString) in
/-- What the network code sees of a reply with the given final snapshot. The updates so far
    are `descriptors`; the number of `READY_READ` signals before an entry is counted in the
    entries before it, of which the first is that of `INITIAL`. -/
structure Shows (url : QUrl) (final : QNetworkReplyInitialSnapshot V) (r : ReplyRun V T) :
    Prop where
  onePending : r.timers.pendingFirings () ≤ 1
  defined : ∀ d id originalId now timers,
    r.timers.exec (.beginDispatch d id originalId now) = some timers →
      (r.controllable.updateSnapshot toStdString r.initialSnapshot.sameUrlSequenceNumber).isSome
  descriptors : ∀ k d, (r.observed.filterMap Observation.descriptor?)[k]? = some d →
    ∃ e, final.snapshots[k + 1]? = some e ∧
      d = (networkDescriptor toStdString url final.sameUrlSequenceNumber
        (if e.1 = .finished then StdString.ulongMax
          else (final.snapshots.take (k + 1)).countP fun e => e.1 = .readyRead)).toString
  available : 0 ≤ r.controllable.currentSnapshot.bytesAvailable r.initialSnapshot
  bytes : ∃ e, final.snapshots[(r.observed.filterMap Observation.descriptor?).length]? = some e ∧
    r.observed.flatMap Observation.bytesRead ++
        r.controllable.currentSnapshot.peek r.initialSnapshot
          (r.controllable.currentSnapshot.bytesAvailable r.initialSnapshot) =
      final.stream.take e.2.streamSize.toNat
  peek : ∀ arrivals maxlen r', r.exec toStdString arrivals (.peek maxlen) = some r' →
    r' = { r with observed := r'.observed }

/-- What holds of a run gives what it shows. -/
theorem ReplyInv.shows {url : QUrl} {final : QNetworkReplyInitialSnapshot V} {r : ReplyRun V T}
    {a : Reader} (inv : ReplyInv toStdString url final r a) (hfinal : Recorded final) :
    Shows toStdString url final r := by
  obtain ⟨hupdates, hdescriptors⟩ := Reader.run_updates inv.saw
  obtain ⟨hlt, hposition, hread⟩ := Reader.run_reads hfinal inv.saw
  obtain ⟨hsize, hlimit⟩ := inv.limit_eq
  -- what is available is what lies between the position of the reader and its limit
  have havailable : r.controllable.currentSnapshot.bytesAvailable r.initialSnapshot =
      (Reader.limit final a - a.position : Nat) := by
    rw [QNetworkReplySnapshot.bytesAvailable, inv.position, ← hsize]
    omega
  refine ⟨inv.armed.pendingFirings_le, ?_, ?_, ?_, ?_, ?_⟩
  · -- a dispatch is one of the next entry
    intro d id originalId now timers hbegin
    obtain ⟨-, e, hnext, -⟩ := inv.armed.beginDispatch hbegin
    obtain ⟨entry, hentry, -⟩ := Option.map_eq_some_iff.mp hnext
    obtain ⟨c, hupdate, -⟩ :=
      updateSnapshot_inv toStdString r.initialSnapshot.sameUrlSequenceNumber inv.queue
      inv.recorded.signals hentry
    rw [hupdate]
    rfl
  · -- the descriptors are those of the updates
    intro k d hk
    obtain ⟨e, hnext, rfl⟩ := hdescriptors k d hk
    obtain ⟨entry, hentry, rfl⟩ := Option.map_eq_some_iff.mp hnext
    exact ⟨entry, hentry, rfl⟩
  · rw [havailable]
    exact Int.natCast_nonneg _
  · -- what is read is a piece of the bytes that have arrived
    refine ⟨final.snapshots[a.current], by rw [hupdates, List.getElem?_eq_getElem hlt], ?_⟩
    have hlimit' : Reader.limit final a = final.snapshots[a.current].2.streamSize.toNat := by
      rw [Reader.limit, List.getElem?_eq_getElem hlt]
    rw [inv.peek_eq hfinal, havailable, hread, ← hlimit', Reader.take_append_chunk final hposition]
  · intro arrivals maxlen r' h
    obtain rfl := Option.some.inj h
    rfl

/-- A live reply and a reply replayed from what it recorded show the network code the same:
    at most one update is pending, the `k`-th one runs under the descriptor of the `k`-th
    signal, and what was read and what is available make up the stream up to the size of the
    entry that is shown. Whatever is done with the live reply can be done with the replayed
    one, and the same updates and reads give the same descriptors, signals and bytes. -/
theorem live_and_replayed_replies_agree [Nontrivial T] (number : UInt32) (script : Script V) :
    (∀ live : ReplyRun V T, (lives toStdString number script).Reachable live →
      Shows toStdString script.reply.url (finalSnapshot number script) live ∧
      (script.arrivals.length ≤ live.arrived →
        QNetworkReplyInitialSnapshot.deserialize live.initialSnapshot.serialize =
          some (finalSnapshot number script, [])) ∧
      ∃ replayed : ReplyRun V T,
        (replays toStdString script.reply.url (finalSnapshot number script)).Reachable replayed ∧
          replayed.observed = live.observed) ∧
    ∀ replayed : ReplyRun V T,
      (replays toStdString script.reply.url (finalSnapshot number script)).Reachable replayed →
      Shows toStdString script.reply.url (finalSnapshot number script) replayed ∧
      ∀ live : ReplyRun V T, (lives toStdString number script).Reachable live →
        live.observed.map Observation.action = replayed.observed.map Observation.action →
          live.observed = replayed.observed := by
  -- the final snapshot is a record, and starts at its beginning
  have hfinal : Recorded (finalSnapshot number script) := recorded_after _ _ _
  have hposition := streamPosition_after number script.reply script.arrivals
  refine ⟨fun live hlive => ?_, fun replayed hreplayed => ?_⟩
  · -- a live run; what it writes is read back, and a replay can follow it
    obtain ⟨hsnapshot, a, inv⟩ := replyInv_live hlive
    refine ⟨inv.shows hfinal, fun hall => ?_, replay_run hfinal hposition inv.saw⟩
    have hread := QNetworkReplyInitialSnapshot.deserialize_serialize live.initialSnapshot []
    rw [List.append_nil, hsnapshot, List.take_of_length_le hall] at hread
    exact hread
  · -- a replay; a live run with the same actions shows the same
    obtain ⟨-, b, inv'⟩ := replyInv_replay hfinal hposition hreplayed
    refine ⟨inv'.shows hfinal, fun live hlive hactions => ?_⟩
    obtain ⟨-, a, inv⟩ := replyInv_live hlive
    have hsaw := inv.saw
    rw [hactions, inv'.saw] at hsaw
    exact (Prod.mk.inj (Option.some.inj hsaw)).2.symm

/-- A reply that delivers three bytes and then one more. -/
def twoChunks : Script Unit where
  reply := ⟨⟨"u".toList⟩, [], none, [], 0, [], []⟩
  arrivals := [⟨.readyRead, ⟨⟨"u".toList⟩, [], none, [1, 2, 3], 0, [], []⟩, by decide⟩,
    ⟨.finished, ⟨⟨"u".toList⟩, [], none, [4], 0, [], []⟩, by decide⟩]

/-- The second chunk arrives before the first one is shown, and a read stops before it. -/
theorem live_and_replayed_replies_agree_of_two :
    ∃ live replayed : ReplyRun Unit Int, (lives toLatin1 0 twoChunks).Reachable live ∧
      live.observed.map Observation.bytesRead = [[], [1, 2], [3]] ∧
      (replays toLatin1 twoChunks.reply.url (finalSnapshot 0 twoChunks)).Reachable replayed ∧
      replayed.observed = live.observed := by
  -- two chunks arrive, and each is read behind its signal
  let d := networkDescriptor toLatin1 ⟨"u".toList⟩ 0 0
  let snapshot : QNetworkReplyInitialSnapshot Unit := .ofReply 0 twoChunks.reply
  let r₀ : ReplyRun Unit Int := ⟨⟨ThreadTimers.init, none⟩, snapshot,
    ⟨⟨"u".toList⟩, 0, false, ⟨0, [], [], 0⟩, []⟩, 0, []⟩
  let run : List (Label Int) := [.arrive 1, .expire 1 1, .arrive 1, .beginUpdate d 1 1 1 2,
    .read 2, .endUpdate 1, .read 10]
  have hrun : (run.foldlM (exec toLatin1 twoChunks.arrivals) r₀).map (fun r =>
      r.observed.map Observation.bytesRead) = some [[], [1, 2], [3]] := by decide +kernel
  obtain ⟨live, hlive, hobserved⟩ := Option.map_eq_some_iff.mp hrun
  have hreach : (lives toLatin1 0 twoChunks).Reachable live :=
    Lts.Reachable.foldlM (fun _ _ _ h => h) (.init ⟨_, rfl, rfl⟩) hlive
  -- a replay of the same actions
  obtain ⟨replayed, hreplayed, hsame⟩ :=
    ((live_and_replayed_replies_agree 0 twoChunks).1 live hreach).2.2
  exact ⟨live, replayed, hreach, hobserved, hreplayed, hsame⟩

end R4.ReplyRun
