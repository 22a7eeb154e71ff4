import R4.ForStd.Numbering
import R4.Spec.NetworkRun

/-!
# The descriptors of different requests

A network event is named by the converted and escaped URL of its request, the number of the
snapshot that serves it and the number of the event. Live snapshots are numbered by a counter for
each URL; replayed ones carry the number from their log, and the counter does not know of them.
URLs that differ in a comma, or in a character that has no place in the 8-bit encoding, are counted
apart but named alike. `FreshRequest` is the condition on a request under which no other request has
its name.

## Key results

- `networkDescriptor_inj`: what equal descriptors have in common
- `named_step`, `numberInv_step`: the invariants are kept by every step
- `descriptors_identify_requests`: what holds of every run whose requests are all fresh
- `different_requests_share_descriptor`: two runs in which requests share a descriptor
-/

namespace R4.NetworkRun

open StdString QNetworkReplyControllableFactory

variable {V : Type} (toStdString : QString → StdString)

/-! ## Descriptors -/

/-- The first parameter of the descriptors of a URL. -/
def urlParam (url : QUrl) : StdString := EventActionDescriptor.escapeParam (toStdString url.string)

/-- The descriptor is one of the request. -/
def NamedBy (url : QUrl) (number : UInt32) (d : EventActionDescriptor) : Prop :=
  ∃ n, d = networkDescriptor toStdString url number n

variable {toStdString}

/-- The converted and escaped URL and the url sequence number can be read off a descriptor. -/
theorem networkDescriptor_inj {url url' : QUrl} {number number' : UInt32} {n n' : Nat}
    (h : (networkDescriptor toStdString url number n).equals
      (networkDescriptor toStdString url' number' n') = true) :
    urlParam toStdString url = urlParam toStdString url' ∧ number = number' := by
  simp only [EventActionDescriptor.equals, networkDescriptor, EventActionDescriptor.make,
    Bool.and_eq_true, beq_iff_eq] at h
  -- neither the escaped URL nor a number has a comma, so the first two parameters can be told apart
  obtain ⟨hurl, h⟩ := append_cons_inj (EventActionDescriptor.comma_not_mem_escapeParam _)
    (EventActionDescriptor.comma_not_mem_escapeParam _) h.2
  obtain ⟨hnumber, -⟩ := append_cons_inj (not_mem_decimal (by decide) _)
    (not_mem_decimal (by decide) _) h
  exact ⟨hurl, UInt32.toNat_inj.mp (decimal_injective hnumber)⟩

variable (toStdString) in
/-- A reply schedules nothing but descriptors of its own URL and number, and keeps its URL. -/
theorem scheduleNextSnapshotUpdate_named (c : QNetworkReplyControllable V) (number : UInt32) :
    (c.scheduleNextSnapshotUpdate toStdString number).1.url = c.url ∧
      ∀ d, (c.scheduleNextSnapshotUpdate toStdString number).2 = some d →
        NamedBy toStdString c.url number d := by
  unfold QNetworkReplyControllable.scheduleNextSnapshotUpdate
  split
  · exact ⟨rfl, fun _ h => nomatch h⟩
  · split
    · exact ⟨rfl, fun _ h => nomatch h⟩
    · split
      · exact ⟨rfl, fun _ h => ⟨_, (Option.some.inj h).symm⟩⟩
      · exact ⟨rfl, fun _ h => ⟨_, (Option.some.inj h).symm⟩⟩

variable (toStdString) in
/-- An entry that is enqueued has a descriptor with the URL and the number of its reply. -/
theorem enqueueSnapshot_named (c : QNetworkReplyControllable V) (number : UInt32)
    (entry : QNetworkReplySnapshotEntry V) :
    (c.enqueueSnapshot toStdString number entry).1.url = c.url ∧
      ∀ d, (c.enqueueSnapshot toStdString number entry).2 = some d →
        NamedBy toStdString c.url number d :=
  scheduleNextSnapshotUpdate_named toStdString { c with
    snapshotQueue := c.snapshotQueue ++ [entry] } number

/-- So has one that is taken up again. -/
theorem updateSnapshot_named {c c' : QNetworkReplyControllable V} {number : UInt32}
    {started : Option EventActionDescriptor} {signal : NetworkSignal}
    (h : c.updateSnapshot toStdString number = some (c', started, signal)) :
    c'.url = c.url ∧ ∀ d, started = some d → NamedBy toStdString c.url number d := by
  unfold QNetworkReplyControllable.updateSnapshot at h
  split at h
  · exact nomatch h
  · rename_i _ snapshot rest hqueue
    have hnamed := scheduleNextSnapshotUpdate_named toStdString { c with
      snapshotQueue := rest
      currentSnapshot := snapshot
      nextSnapshotUpdateTimerRunning := false } number
    dsimp only at h
    split at h
    · exact nomatch h
    · obtain ⟨rfl, rfl, -⟩ := by simpa only [Option.some.injEq, Prod.mk.injEq] using h
      exact hnamed

variable (toStdString) in
/-- So have several of them. -/
theorem enqueueAll_named (number : UInt32) (entries : List (QNetworkReplySnapshotEntry V))
    (c : QNetworkReplyControllable V) :
    (QNetworkReplyControllable.enqueueAll toStdString number entries c).1.url = c.url ∧
      ∀ d, (QNetworkReplyControllable.enqueueAll toStdString number entries c).2 = some d →
        NamedBy toStdString c.url number d := by
  induction entries generalizing c with
  | nil => exact ⟨rfl, fun _ h => nomatch h⟩
  | cons entry entries ih =>
    obtain ⟨hurl, hd⟩ := enqueueSnapshot_named toStdString c number entry
    obtain ⟨hurl', hd'⟩ := ih (c.enqueueSnapshot toStdString number entry).1
    rw [hurl] at hurl' hd'
    refine ⟨hurl', fun d h => ?_⟩
    simp only [QNetworkReplyControllable.enqueueAll, Option.or_eq_some_iff] at h
    rcases h with h | h
    · exact hd d h
    · exact hd' d h.2

/-- A reply that is made has the URL of its request and the number of its snapshot. -/
theorem reply_named {url : QUrl} {source : Source} {snapshot : QNetworkReplyInitialSnapshot V}
    {c : QNetworkReplyControllable V} {started : Option EventActionDescriptor}
    (h : reply toStdString url source snapshot = some (c, started)) :
    c.url = url ∧
      ∀ d, started = some d → NamedBy toStdString url snapshot.sameUrlSequenceNumber d := by
  -- the reply has the URL of its request
  have hof : ∀ c, QNetworkReplyControllable.ofSnapshot url snapshot = some c → c.url = url := by
    intro c hc
    obtain ⟨entry, -, rfl⟩ := Option.map_eq_some_iff.mp hc
    rfl
  unfold reply at h
  split at h
  · -- a live reply has no descriptor yet
    obtain ⟨c', hc, heq⟩ := Option.map_eq_some_iff.mp h
    obtain ⟨rfl, rfl⟩ := Prod.mk.inj heq
    exact ⟨hof c' hc, fun _ h => nomatch h⟩
  · -- a recorded one is enqueued behind its initial snapshot
    obtain ⟨c', hc, heq⟩ := Option.map_eq_some_iff.mp h
    have hnamed := enqueueAll_named toStdString snapshot.sameUrlSequenceNumber
      (snapshot.snapshots.drop 1) c'
    rw [heq, hof c' hc] at hnamed
    exact hnamed

variable (toStdString) in
/-- A live signal is recorded under the URL and the number of its reply. -/
theorem receive_named (c : QNetworkReplyControllable V) (s : QNetworkReplyInitialSnapshot V)
    (signal : NetworkSignal) (qreply : QNetworkReply V) :
    (c.receive toStdString s signal qreply).1.url = c.url ∧
      ∀ d, (c.receive toStdString s signal qreply).2.2 = some d →
        NamedBy toStdString c.url s.sameUrlSequenceNumber d := by
  unfold QNetworkReplyControllable.receive
  dsimp only
  split
  · exact ⟨rfl, fun _ h => nomatch h⟩
  · exact enqueueSnapshot_named toStdString c s.sameUrlSequenceNumber _

/-! ## Numbers -/

/-- The url sequence number of the snapshot at an address. -/
def numberAt (f : QNetworkReplyControllableFactory V) (address : Nat) : Option UInt32 :=
  (f.objects.map identity)[address]?.map Prod.snd

/-- The number of a snapshot is that of the object at its address. -/
theorem numberAt_eq (f : QNetworkReplyControllableFactory V) (address : Nat) :
    numberAt f address =
      f.objects[address]?.map QNetworkReplyInitialSnapshot.sameUrlSequenceNumber := by
  rw [numberAt, List.getElem?_map, Option.map_map]
  rfl

/-- How many live requests were made for a URL. -/
def liveCount (requests : List Request) (url : QString) : Nat :=
  requests.countP fun q => q.source = .live ∧ q.url.string = url

/-- The recorded snapshot that a request for a URL is about to be served with: the oldest
    that is left for the URL, and in a relaxed mode the best fuzzy match. -/
def candidate (score : QUrl → QUrl → Nat) (order : List QString)
    (f : QNetworkReplyControllableFactory V) (url : QUrl) : Option Nat :=
  match f.kind with
  | .live => none
  | .replay snapshots mode =>
    if mode = .stop then none
    else
      match snapshots.queue url.string with
      | snapshot :: _ => some snapshot
      | [] =>
        if mode = .bestEffort ∨ mode = .bestEffortNond then
          (fuzzyMatch (f.scoreOf score url) snapshots order).bind fun key =>
            (snapshots.queue key).head?
        else none

/-- The number that a live request for a URL is about to get. -/
def counter (f : QNetworkReplyControllableFactory V) (url : QUrl) : UInt32 :=
  (f.nextSameUrlSequenceNumber.lookup url.string).getD 0

/-- A live request counts for its own URL. -/
theorem counter_constructLive (f : QNetworkReplyControllableFactory V) (qreply : QNetworkReply V)
    (url : QUrl) : counter (f.constructLive qreply).1 url =
      if qreply.url.string = url.string then counter f url + 1 else counter f url :=
  KeyNumbering.counter_next _ _ _

/-- `construct` uses the candidate if there is one, and the counter if not. -/
theorem construct_candidate {score : QUrl → QUrl → Nat} {order : List QString}
    {f f' : QNetworkReplyControllableFactory V} {qreply : QNetworkReply V} {address : Nat}
    {source : Source} (h : f.construct score order qreply = some (f', address, source)) :
    (source = .live ∧ candidate score order f qreply.url = none ∧
        f' = (f.constructLive qreply).1 ∧ address = f.objects.length) ∨
      (source ≠ .live ∧ candidate score order f qreply.url = some address ∧
        f'.objects = f.objects ∧
        f'.nextSameUrlSequenceNumber = f.nextSameUrlSequenceNumber) := by
  unfold construct at h
  unfold candidate
  cases hkind : f.kind with
  | live =>
    -- a live factory makes a new snapshot
    rw [hkind] at h
    obtain ⟨rfl, rfl, rfl⟩ := by simpa only [Option.some.injEq, Prod.mk.injEq] using h
    exact .inl ⟨rfl, rfl, rfl, rfl⟩
  | replay m mode =>
    rw [hkind] at h
    dsimp only at h ⊢
    split at h
    · -- the mode is `STOP`: the request is live
      rename_i hstop
      obtain ⟨rfl, rfl, rfl⟩ := by simpa only [Option.some.injEq, Prod.mk.injEq] using h
      exact .inl ⟨rfl, by rw [if_pos hstop], rfl, rfl⟩
    · rename_i hstop
      rw [if_neg hstop]
      cases hqueue : m.queue qreply.url.string with
      | cons a rest =>
        -- a reply for the same URL is taken
        rw [hqueue] at h
        obtain ⟨rfl, rfl, rfl⟩ := by simpa only [Option.some.injEq, Prod.mk.injEq] using h
        exact .inr ⟨by decide, rfl, rfl, rfl⟩
      | nil =>
        rw [hqueue] at h
        dsimp only at h ⊢
        split at h
        · -- the mode allows a similar URL
          rename_i hmode
          rw [if_pos hmode]
          have h := Option.some.inj h
          unfold constructFuzzy at h
          split at h
          · -- there is none: the request is live
            rename_i hmatch
            obtain ⟨rfl, rfl, rfl⟩ := by simpa only [Prod.mk.injEq] using h
            exact .inl ⟨rfl, by rw [hmatch]; rfl, rfl, rfl⟩
          · rename_i key hmatch
            rw [hmatch, Option.bind_some]
            split at h
            · -- its queue is empty: the request is live
              rename_i hkey
              obtain ⟨rfl, rfl, rfl⟩ := by simpa only [Prod.mk.injEq] using h
              exact .inl ⟨rfl, by rw [hkey]; rfl, rfl, rfl⟩
            · -- the first reply of that URL is taken
              rename_i a rest hkey
              obtain ⟨rfl, rfl, rfl⟩ := by simpa only [Prod.mk.injEq] using h
              exact .inr ⟨by decide, by rw [hkey]; rfl, rfl, rfl⟩
        · -- in a strict replay the call does not return
          simp at h

/-- No snapshot object changes its number. -/
theorem numberAt_of_exec {score : QUrl → QUrl → Nat} {r r' : NetworkRun V} {l : Label V}
    (h : r.exec toStdString score l = some r') {address : Nat} {number : UInt32}
    (hnumber : numberAt r.factory address = some number) :
    numberAt r'.factory address = some number := by
  obtain ⟨i, hi, rfl⟩ := Option.map_eq_some_iff.mp hnumber
  have hprefix : r.factory.objects.map identity <+: r'.factory.objects.map identity := by
    obtain ⟨order, qreply, f, address, source, rfl, hc, rfl, -⟩ | ⟨mode, rfl, rfl⟩ | ⟨-, hquiet⟩ :=
      exec_cases h
    · -- a live request adds an object behind the others
      obtain ⟨-, -, hf, -⟩ | ⟨-, -, hobjects, -⟩ := construct_candidate hc
      · rw [hf]
        simp only [constructLive, controllableConstructed, List.map_append]
        exact List.prefix_append _ _
      · exact hobjects ▸ List.prefix_refl _
    · unfold setMode
      dsimp only
      split <;> exact List.prefix_refl _
    · exact hquiet.objects ▸ List.prefix_refl _
  rw [numberAt, List.getElem?_of_prefix hprefix hi, Option.map_some]

/-! ## Scheduled descriptors -/

variable (toStdString) in
/-- Every descriptor of the connection names its request. -/
def Named (f : QNetworkReplyControllableFactory V) (c : Connection V) : Prop :=
  c.controllable.url = c.request.url ∧
    ∃ number, numberAt f c.request.address = some number ∧
      ∀ d ∈ c.scheduled, NamedBy toStdString c.request.url number d

/-- A connection whose reply took a step. -/
theorem Named.advance {f : QNetworkReplyControllableFactory V} {c : Connection V}
    (hc : Named toStdString f c) {number : UInt32}
    (hnumber : numberAt f c.request.address = some number)
    {controllable : QNetworkReplyControllable V} {started : Option EventActionDescriptor}
    (h : controllable.url = c.controllable.url ∧
      ∀ d, started = some d → NamedBy toStdString c.controllable.url number d) :
    Named toStdString f (Connection.advance c controllable started) := by
  obtain ⟨hurl, number', hnumber', hscheduled⟩ := hc
  obtain rfl : number = number' := by rw [hnumber] at hnumber'; exact Option.some.inj hnumber'
  refine ⟨h.1.trans hurl, number, hnumber, fun d hd => ?_⟩
  rcases List.mem_append.mp hd with hd | hd
  · exact hscheduled d hd
  · have hd := h.2 d (Option.mem_toList.mp hd)
    rw [hurl] at hd
    exact hd

/-- A step keeps the names of what was scheduled. -/
theorem named_step {score : QUrl → QUrl → Nat} {r r' : NetworkRun V} {l : Label V}
    (inv : ∀ c ∈ r.connections, Named toStdString r.factory c)
    (h : r.exec toStdString score l = some r') :
    ∀ c ∈ r'.connections, Named toStdString r'.factory c := by
  have hold : ∀ c ∈ r.connections, Named toStdString r'.factory c := by
    intro c hc
    obtain ⟨hurl, number, hnumber, hscheduled⟩ := inv c hc
    exact ⟨hurl, number, numberAt_of_exec h hnumber, hscheduled⟩
  -- a connection whose reply has taken a step stands where it stood before
  have hset : ∀ {i : Nat} {c : Connection V} {connections : List (Connection V)},
      connections = r.connections.set i c → Named toStdString r'.factory c →
        ∀ c ∈ connections, Named toStdString r'.factory c := by
    rintro i c _ rfl hc c' hc'
    rcases List.mem_or_eq_of_mem_set hc' with hc' | rfl
    · exact hold c' hc'
    · exact hc
  have hnumberOf : ∀ {address : Nat} {s : QNetworkReplyInitialSnapshot V},
      r.factory.objects[address]? = some s →
        numberAt r'.factory address = some s.sameUrlSequenceNumber := by
    intro address s hs
    exact numberAt_of_exec h (by rw [numberAt_eq, hs, Option.map_some])
  cases l with
  | construct order qreply =>
    simp only [exec, Option.bind_eq_bind, Option.bind_eq_some_iff] at h
    obtain ⟨⟨factory, address, source⟩, hc, snapshot, hs, ⟨controllable, started⟩, hr, h⟩ := h
    simp only [Option.pure_def, Option.some.injEq] at h
    subst h
    obtain ⟨hurl, hstarted⟩ := reply_named hr
    intro c hc
    rcases List.mem_append.mp hc with hc | hc
    · exact hold c hc
    · obtain rfl := List.mem_singleton.mp hc
      refine ⟨hurl, _, by rw [numberAt_eq, hs, Option.map_some], fun d hd => ?_⟩
      exact hstarted d (Option.mem_toList.mp hd)
  | setMode mode =>
    obtain rfl := Option.some.inj h
    exact hold
  | signal i signal qreply =>
    simp only [exec, Option.bind_eq_bind, Option.bind_eq_some_iff] at h
    obtain ⟨c, hc, snapshot, hs, h⟩ := h
    split at h
    · simp only [Option.pure_def, Option.some.injEq] at h
      subst h
      exact hset rfl ((hold c (List.mem_of_getElem? hc)).advance (hnumberOf hs)
        (receive_named toStdString c.controllable snapshot signal qreply))
    · simp at h
  | update i =>
    simp only [exec, Option.bind_eq_bind, Option.bind_eq_some_iff] at h
    obtain ⟨c, hc, snapshot, hs, ⟨controllable, started, signal⟩, hu, h⟩ := h
    simp only [Option.pure_def, Option.some.injEq] at h
    subst h
    exact hset rfl ((hold c (List.mem_of_getElem? hc)).advance (hnumberOf hs)
      (updateSnapshot_named hu))
  | read i maxlen =>
    simp only [exec, Option.bind_eq_bind, Option.bind_eq_some_iff] at h
    obtain ⟨c, hc, snapshot, hs, h⟩ := h
    simp only [Option.pure_def, Option.some.injEq] at h
    subst h
    exact hold

/-! ## Fresh requests -/

/-- The number of the snapshot that a request for a URL is about to be served with. -/
def nextNumber (score : QUrl → QUrl → Nat) (order : List QString)
    (f : QNetworkReplyControllableFactory V) (url : QUrl) : Option UInt32 :=
  match candidate score order f url with
  | some address => numberAt f address
  | none => some (counter f url)

variable (toStdString) in
/-- A request is fresh if no earlier one with its converted and escaped URL has the number it is
    about to get, where two live requests for one URL need not be compared: the counter tells
    them apart as long as it does not wrap around. -/
def FreshRequest (score : QUrl → QUrl → Nat) (r : NetworkRun V) : Label V → Prop
  | .construct order qreply =>
    (candidate score order r.factory qreply.url = none →
      liveCount r.requests qreply.url.string < 2 ^ 32) ∧
    ∀ q ∈ r.requests,
      urlParam toStdString q.url = urlParam toStdString qreply.url →
      ¬(q.source = .live ∧ candidate score order r.factory qreply.url = none ∧
        q.url = qreply.url) →
      numberAt r.factory q.address ≠ nextNumber score order r.factory qreply.url
  | _ => True

instance (score : QUrl → QUrl → Nat) (r : NetworkRun V) :
    (l : Label V) → Decidable (FreshRequest toStdString score r l)
  | .construct _ _ => inferInstanceAs (Decidable (_ ∧ _))
  | .setMode _ | .signal _ _ _ | .update _ | .read _ _ => inferInstanceAs (Decidable True)

variable (toStdString) in
/-- What the descriptors of a request start with. -/
def nameOf (f : QNetworkReplyControllableFactory V) (q : Request) : StdString × Option UInt32 :=
  (urlParam toStdString q.url, numberAt f q.address)

variable (toStdString) in
/-- What holds in every state of a run whose requests are all fresh. -/
structure NumberInv (r : NetworkRun V) : Prop where
  valid : ∀ q ∈ r.requests, ∃ number, numberAt r.factory q.address = some number
  distinct : r.requests.Pairwise fun p q =>
    nameOf toStdString r.factory p ≠ nameOf toStdString r.factory q
  live : ∀ q ∈ r.requests, q.source = .live →
    ∃ k < liveCount r.requests q.url.string, numberAt r.factory q.address = some (UInt32.ofNat k)
  counter : ∀ url, counter r.factory url = UInt32.ofNat (liveCount r.requests url.string)

/-- Nothing but requests, numbers and counters matters. -/
theorem NumberInv.congr {r r' : NetworkRun V} (inv : NumberInv toStdString r)
    (hrequests : r'.requests = r.requests)
    (hobjects : r'.factory.objects.map identity = r.factory.objects.map identity)
    (htable : r'.factory.nextSameUrlSequenceNumber = r.factory.nextSameUrlSequenceNumber) :
    NumberInv toStdString r' := by
  have hnumber : ∀ a, numberAt r'.factory a = numberAt r.factory a := by
    intro a
    rw [numberAt, numberAt, hobjects]
  have hcounter : ∀ url, NetworkRun.counter r'.factory url = NetworkRun.counter r.factory url := by
    intro url
    rw [NetworkRun.counter, NetworkRun.counter, htable]
  refine ⟨?_, ?_, ?_, ?_⟩
  · simpa only [hnumber, hrequests] using inv.valid
  · simpa only [nameOf, hnumber, hrequests] using inv.distinct
  · simpa only [hnumber, hrequests] using inv.live
  · simpa only [hcounter, hrequests] using inv.counter

/-- A live request counts for its URL. -/
theorem liveCount_append (requests : List Request) (q : Request) (url : QString) :
    liveCount (requests ++ [q]) url =
      liveCount requests url + if q.source = .live ∧ q.url.string = url then 1 else 0 := by
  rw [liveCount, List.countP_append, List.countP_singleton]
  simp only [decide_eq_true_eq]
  rfl

/-- Different numbers of at most 32 bits stay different. -/
theorem ofNat_ne_of_lt {k n : Nat} (hk : k < n) (hn : n < 2 ^ 32) :
    UInt32.ofNat k ≠ UInt32.ofNat n := by
  intro h
  have h := congrArg UInt32.toNat h
  rw [UInt32.toNat_ofNat_of_lt' (Nat.lt_trans hk hn), UInt32.toNat_ofNat_of_lt' hn] at h
  omega

/-- One more request: its number is the next one, and the counter knows of it if it is live. -/
theorem numberInv_construct {score : QUrl → QUrl → Nat} {order : List QString}
    {r r' : NetworkRun V} {qreply : QNetworkReply V} {address : Nat} {source : Source}
    (inv : NumberInv toStdString r)
    (hfresh : FreshRequest toStdString score r (.construct order qreply))
    (hold : ∀ address number, numberAt r.factory address = some number →
      numberAt r'.factory address = some number)
    (hnumber : ∃ number, numberAt r'.factory address = some number)
    (hc : r.factory.construct score order qreply = some (r'.factory, address, source))
    (hreq : r'.requests = r.requests ++ [⟨qreply.url, r.mode, address, source⟩]) :
    NumberInv toStdString r' := by
  have hsame : ∀ q ∈ r.requests,
      numberAt r'.factory q.address = numberAt r.factory q.address := by
    intro q hq
    obtain ⟨number, hnumber⟩ := inv.valid q hq
    rw [hold _ _ hnumber, hnumber]
  obtain ⟨hwrap, hfresh⟩ := hfresh
  -- the number of the new request, and what the counters are now
  have hnext : numberAt r'.factory address = nextNumber score order r.factory qreply.url ∧
      (source = .live ↔ candidate score order r.factory qreply.url = none) ∧
      ∀ url, counter r'.factory url = if source = .live ∧ qreply.url.string = url.string then
        counter r.factory url + 1 else counter r.factory url := by
    obtain ⟨rfl, hnone, hf, rfl⟩ | ⟨hsource, hsome, hobjects, htable⟩ := construct_candidate hc
    · refine ⟨?_, by simp [hnone], fun url => ?_⟩
      · rw [numberAt_eq, hf, nextNumber, hnone]
        simp only [constructLive, controllableConstructed, List.getElem?_concat_length,
          Option.map_some]
        rfl
      · rw [hf, counter_constructLive]
        simp only [true_and]
    · refine ⟨?_, by simp [hsource, hsome], fun url => ?_⟩
      · rw [nextNumber, hsome]
        dsimp only
        rw [numberAt, numberAt, hobjects]
      · rw [if_neg (fun h => hsource h.1), NetworkRun.counter, NetworkRun.counter, htable]
  obtain ⟨hnext, hlive, hcounter⟩ := hnext
  refine ⟨fun q hq => ?_, ?_, fun q hq hqs => ?_, fun url => ?_⟩
  · rw [hreq] at hq
    rcases List.mem_append.mp hq with hq | hq
    · obtain ⟨number, hnumber⟩ := inv.valid q hq
      exact ⟨number, hold _ _ hnumber⟩
    · rw [List.mem_singleton.mp hq]
      exact hnumber
  · rw [hreq]
    refine List.pairwise_append.mpr ⟨?_, List.pairwise_singleton _ _, fun q hq p hp heq => ?_⟩
    · refine List.Pairwise.imp_of_mem ?_ inv.distinct
      intro p q hp hq hne
      rwa [nameOf, nameOf, hsame p hp, hsame q hq]
    · rw [List.mem_singleton.mp hp] at heq
      obtain ⟨hurl, hnum⟩ := Prod.mk.inj heq
      dsimp only at hurl hnum
      rw [hsame q hq, hnext] at hnum
      refine hfresh q hq hurl (fun ⟨hqlive, hnone, hqurl⟩ => ?_) hnum
      obtain ⟨k, hk, hkn⟩ := inv.live q hq hqlive
      rw [nextNumber, hnone, hkn, inv.counter] at hnum
      rw [hqurl] at hk
      exact ofNat_ne_of_lt hk (hwrap hnone) (Option.some.inj hnum)
  · rw [hreq] at hq ⊢
    rw [liveCount_append]
    rcases List.mem_append.mp hq with hq | hq
    · obtain ⟨k, hk, hkn⟩ := inv.live q hq hqs
      exact ⟨k, Nat.lt_add_right _ hk, by rw [hsame q hq, hkn]⟩
    · rw [List.mem_singleton.mp hq] at hqs ⊢
      dsimp only at hqs ⊢
      refine ⟨liveCount r.requests qreply.url.string, by rw [if_pos ⟨hqs, rfl⟩]; omega, ?_⟩
      rw [hnext, nextNumber, hlive.mp hqs]
      exact congrArg some (inv.counter qreply.url)
  · rw [hreq, liveCount_append, hcounter, inv.counter]
    dsimp only
    split
    · rw [UInt32.ofNat_add]
      rfl
    · rw [Nat.add_zero]

/-- Every step keeps the numbers of the live requests of one URL apart. -/
theorem numberInv_step {score : QUrl → QUrl → Nat} {r r' : NetworkRun V} {l : Label V}
    (inv : NumberInv toStdString r) (hfresh : FreshRequest toStdString score r l)
    (hnamed : ∀ c ∈ r'.connections, Named toStdString r'.factory c)
    (h : r.exec toStdString score l = some r') :
    NumberInv toStdString r' := by
  obtain ⟨order, qreply, f, address, source, rfl, hc, rfl, hreq⟩ | ⟨mode, rfl, rfl⟩ | ⟨-, hquiet⟩ :=
    exec_cases h
  · -- a request has the number of its snapshot
    refine numberInv_construct inv hfresh (fun _ _ => numberAt_of_exec h) ?_ hc hreq
    have hmem : ⟨qreply.url, r.mode, address, source⟩ ∈ r'.requests := by
      rw [hreq]
      exact List.mem_append_right _ List.mem_cons_self
    obtain ⟨c, hc, hrequest⟩ := List.mem_map.mp hmem
    obtain ⟨-, number, hnumber, -⟩ := hnamed c hc
    rw [hrequest] at hnumber
    exact ⟨number, hnumber⟩
  · -- a change of the mode touches neither the requests nor the numbers
    refine inv.congr rfl ?_ ?_
    · unfold setMode
      dsimp only
      split <;> rfl
    · unfold setMode
      dsimp only
      split <;> rfl
  · -- nor does anything else
    exact inv.congr hquiet.requests hquiet.objects hquiet.table

/-! ## What holds of every run -/

/-- In every run whose requests are fresh the numbers are apart. -/
theorem numberInv_of_reachable {score : QUrl → QUrl → Nat} {r : NetworkRun V}
    (h : ((runs toStdString score).restrict (FreshRequest toStdString score)).Reachable r) :
    (∀ c ∈ r.connections, Named toStdString r.factory c) ∧ NumberInv toStdString r := by
  refine Lts.Reachable.invariant
    (P := fun r => (∀ c ∈ r.connections, Named toStdString r.factory c) ∧
      NumberInv toStdString r) ?_ ?_ h
  · rintro r hinit
    -- at the start there are no requests, and nothing has been counted
    have hempty : r.connections = [] ∧ r.factory.nextSameUrlSequenceNumber = ∅ := by
      rcases hinit with rfl | ⟨recorded, rfl⟩ <;> exact ⟨rfl, rfl⟩
    have hrequests : r.requests = [] := by rw [requests, hempty.1, List.map_nil]
    refine ⟨by simp [hempty.1], by simp [hrequests], by simp [hrequests], by simp [hrequests], ?_⟩
    intro url
    rw [counter, hempty.2, hrequests, AList.lookup_empty]
    rfl
  · -- a step names its descriptors after the numbers
    rintro r l r' - ⟨hnamed, inv⟩ ⟨hfresh, h⟩
    have hnamed' := named_step hnamed h
    exact ⟨hnamed', numberInv_step inv hfresh hnamed' h⟩

/-- In a run whose requests are all fresh, two connections never schedule equal descriptors. -/
theorem descriptors_identify_requests {score : QUrl → QUrl → Nat} {r : NetworkRun V}
    (h : ((runs toStdString score).restrict (FreshRequest toStdString score)).Reachable r)
    {i j : Nat} {c c' : Connection V} (hi : r.connections[i]? = some c)
    (hj : r.connections[j]? = some c') (hij : i ≠ j) :
    ∀ d ∈ c.scheduled, ∀ e ∈ c'.scheduled, d.equals e = false := by
  obtain ⟨hnamed, inv⟩ := numberInv_of_reachable h
  intro d hd e he
  -- both descriptors are named by their URLs and numbers
  obtain ⟨-, number, hnumber, hscheduled⟩ := hnamed c (List.mem_of_getElem? hi)
  obtain ⟨-, number', hnumber', hscheduled'⟩ := hnamed c' (List.mem_of_getElem? hj)
  obtain ⟨n, rfl⟩ := hscheduled d hd
  obtain ⟨n', rfl⟩ := hscheduled' e he
  rw [Bool.eq_false_iff]
  intro heq
  -- if they were the same, so would be the names of their requests
  obtain ⟨hurl, rfl⟩ := networkDescriptor_inj heq
  have hname :
      nameOf toStdString r.factory c.request = nameOf toStdString r.factory c'.request := by
    rw [nameOf, nameOf, hurl, hnumber, hnumber']
  have hqi : r.requests[i]? = some c.request := by rw [requests, List.getElem?_map, hi]; rfl
  have hqj : r.requests[j]? = some c'.request := by rw [requests, List.getElem?_map, hj]; rfl
  obtain ⟨hilt, hqi⟩ := List.getElem?_eq_some_iff.mp hqi
  obtain ⟨hjlt, hqj⟩ := List.getElem?_eq_some_iff.mp hqj
  have hdistinct := List.pairwise_iff_getElem.mp inv.distinct
  -- but the names of different requests differ
  rcases Nat.lt_or_gt_of_ne hij with hlt | hlt
  · exact hdistinct i j hilt hjlt hlt (by rw [hqi, hqj, hname])
  · exact hdistinct j i hjlt hilt hlt (by rw [hqi, hqj, hname])

/-- Two live requests for one URL, of which both finish. -/
theorem descriptors_identify_requests_of_two :
    ∃ (r : NetworkRun Unit) (c c' : Connection Unit) (d e : EventActionDescriptor),
      ((runs toLatin1 fun _ _ => 0).restrict (FreshRequest toLatin1 fun _ _ => 0)).Reachable r ∧
      r.connections[0]? = some c ∧ r.connections[1]? = some c' ∧
      c.scheduled = [d] ∧ c'.scheduled = [e] ∧ d.equals e = false := by
  let exec' : NetworkRun Unit → Label Unit → Option (NetworkRun Unit) := fun r l =>
    -- only fresh requests are taken
    if FreshRequest toLatin1 (fun _ _ => 0) r l then r.exec toLatin1 (fun _ _ => 0) l else none
  let run : List (Label Unit) := [.construct [] (plainReply "http://h/a"),
    .construct [] (plainReply "http://h/a"), .signal 0 .finished (plainReply "http://h/a"),
    .signal 1 .finished (plainReply "http://h/a")]
  -- two requests for one URL, both of which schedule a descriptor
  have hrun : ((run.foldlM exec' ⟨ofLive, []⟩).map fun r =>
      (r.connections[0]?.map (·.scheduled.length), r.connections[1]?.map (·.scheduled.length))) =
      some (some 1, some 1) := by decide +kernel
  obtain ⟨r, hr, hobs⟩ := Option.map_eq_some_iff.mp hrun
  simp only [Prod.mk.injEq, Option.map_eq_some_iff, List.length_eq_one_iff] at hobs
  obtain ⟨⟨c, hc, d, hd⟩, ⟨c', hc', e, he⟩⟩ := hobs
  -- each step is one of the restricted runs
  have hexec : ∀ r l r', exec' r l = some r' →
      ((runs toLatin1 fun _ _ => 0).restrict (FreshRequest toLatin1 fun _ _ => 0)).step r l r' := by
    intro r l r' h
    simp only [exec'] at h
    split at h
    · exact ⟨‹_›, h⟩
    · exact nomatch h
  have hreach := Lts.Reachable.foldlM hexec (.init (.inl rfl)) hr
  exact ⟨r, c, c', d, e, hreach, hc, hc', hd, he, descriptors_identify_requests hreach hc hc'
    (by decide) d (by simp [hd]) e (by simp [he])⟩

/-- Two connections scheduled equal descriptors. -/
def Collide (r : NetworkRun V) : Prop :=
  ∃ (i j : Nat) (c c' : Connection V) (d e : EventActionDescriptor), i ≠ j ∧
    r.connections[i]? = some c ∧ r.connections[j]? = some c' ∧
    d ∈ c.scheduled ∧ e ∈ c'.scheduled ∧ d.equals e = true

/-- Two replies that have scheduled the same descriptor collide. -/
theorem collide_of_scheduled {r : NetworkRun V} {d : EventActionDescriptor}
    (h : r.connections.map (·.scheduled) = [[d], [d]]) : Collide r := by
  obtain ⟨c, rest, hcons, hc, hrest⟩ := List.map_eq_cons_iff.mp h
  obtain ⟨c', rest', rfl, hc', -⟩ := List.map_eq_cons_iff.mp hrest
  refine ⟨0, 1, c, c', d, d, by decide, by rw [hcons]; rfl, by rw [hcons]; rfl, by simp [hc],
    by simp [hc'], ?_⟩
  simp [EventActionDescriptor.equals]

/-- Two requests are recorded, one for each URL, and both are answered. -/
def recordBoth (url url' : String) : List (Label Unit) :=
  [.construct [] (plainReply url), .construct [] (plainReply url'),
    .signal 0 .finished (plainReply url), .signal 1 .finished (plainReply url')]

/-- A run with two requests that schedule one descriptor. -/
theorem collide_of_recordBoth {url url' : String} {d : EventActionDescriptor}
    (hrun : (((recordBoth url url').foldlM (exec toLatin1 fun _ _ => 0) ⟨ofLive, []⟩).map fun r =>
      (r.mode, r.requests.map Request.url, r.connections.map (·.scheduled))) =
        some (none, [⟨url.toList⟩, ⟨url'.toList⟩], [[d], [d]])) :
    ∃ r : NetworkRun Unit, (runs toLatin1 fun _ _ => 0).Reachable r ∧ r.mode = none ∧
      r.requests.map Request.url = [⟨url.toList⟩, ⟨url'.toList⟩] ∧ Collide r := by
  obtain ⟨r, hr, hobs⟩ := Option.map_eq_some_iff.mp hrun
  simp only [Prod.mk.injEq] at hobs
  obtain ⟨hmode, hurls, hscheduled⟩ := hobs
  exact ⟨r, Lts.Reachable.foldlM (fun _ _ _ h => h) (.init (.inl rfl)) hr, hmode, hurls,
    collide_of_scheduled hscheduled⟩

/-- In a recording, requests for URLs that are escaped alike share a descriptor, and so do requests
    for URLs that are converted alike. In a replay a live request shares the one of a replayed
    request, since the counter is still at 0. -/
theorem different_requests_share_descriptor :
    (∃ r : NetworkRun Unit, (runs toLatin1 fun _ _ => 0).Reachable r ∧ r.mode = none ∧
        r.requests.map Request.url = [⟨"http://h/a,b".toList⟩, ⟨"http://h/a.b".toList⟩] ∧
        Collide r) ∧
      (∃ r : NetworkRun Unit, (runs toLatin1 fun _ _ => 0).Reachable r ∧ r.mode = none ∧
        r.requests.map Request.url = [⟨"http://h/日".toList⟩, ⟨"http://h/本".toList⟩] ∧
        Collide r) ∧
      ∃ (recorded : List (QNetworkReplyInitialSnapshot Unit)) (r : NetworkRun Unit),
        (replays toLatin1 (fun _ _ => 0) recorded).Reachable r ∧
        r.requests.map Request.source = [.exact, .live] ∧ Collide r := by
  refine ⟨?_, ?_, ?_⟩
  · -- the comma is escaped as a full stop
    exact collide_of_recordBoth
      (d := networkDescriptor toLatin1 ⟨"http://h/a.b".toList⟩ 0 ulongMax) (by decide +kernel)
  · -- neither character is a Latin-1 one
    exact collide_of_recordBoth
      (d := networkDescriptor toLatin1 ⟨"http://h/?".toList⟩ 0 ulongMax) (by decide +kernel)
  · let snapshot := (plainSnapshot "http://h/a" 0).takeSnapshot .finished (plainReply "http://h/a")
    let run : List (Label Unit) := [.construct [] (plainReply "http://h/a"),
      .setMode .bestEffort, .construct [] (plainReply "http://h/a"),
      .signal 1 .finished (plainReply "http://h/a")]
    let d := networkDescriptor toLatin1 ⟨"http://h/a".toList⟩ 0 ulongMax
    have hrun : ((run.foldlM (exec toLatin1 fun _ _ => 0) ⟨ofSnapshots [snapshot], []⟩).map fun r =>
        (r.requests.map Request.source, r.connections.map (·.scheduled))) =
        some ([.exact, .live], [[d], [d]]) := by decide +kernel
    obtain ⟨r, hr, hobs⟩ := Option.map_eq_some_iff.mp hrun
    obtain ⟨hsources, hscheduled⟩ := Prod.mk.inj hobs
    exact ⟨[snapshot], r, Lts.Reachable.foldlM (fun _ _ _ h => h) (.init rfl) hr, hsources,
      collide_of_scheduled hscheduled⟩

end R4.NetworkRun
