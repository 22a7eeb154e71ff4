import R4.Spec.NetworkServing

/-!
# Replaying the log of a replay

The network log of a replay is the input of the next one. Every request puts the snapshot
that it was served with into the log, but under the URL of the snapshot: a strict replay of
the log finds the snapshot of a request that was served exactly or live, and not the one of
a request that was fuzzily matched. `MatchesExactly` is the condition on a request that
rules the latter out.

## Key results

- `ofNetworkFile_writeNetworkFile`: the log is read back
- `serveAll_of_urls`: a strict replay of a log that lists the requests in order
- `network_log_closed`: what holds of every run in which no request is fuzzily matched
- `fuzzy_match_not_replayable`: a run in which one is
-/

namespace R4.NetworkRun

open QNetworkReplyControllableFactory

variable {V : Type} {toStdString : QString → StdString}

/-! ## The log is read back -/

/-- Snapshots are read back, rewound, in their order. -/
theorem readNetworkFile_flatMap (snapshots : List (QNetworkReplyInitialSnapshot V)) {fuel : Nat}
    (h : snapshots.length ≤ fuel) :
    readNetworkFile fuel (snapshots.flatMap fun s => s.serialize) =
      some (snapshots.map fun s => s.rewound) := by
  induction snapshots generalizing fuel with
  | nil => cases fuel <;> rfl
  | cons s ss ih =>
    cases fuel with
    | zero => exact absurd h (by simp)
    | succ fuel =>
      have hlen : ss.length ≤ fuel := by simpa using h
      have hcons : ∃ x xs, (s :: ss).flatMap (fun s => s.serialize) = x :: xs :=
        ⟨_, _, rfl⟩
      obtain ⟨x, xs, hx⟩ := hcons
      -- a snapshot ends with its sentinel, so the next one starts behind it
      have hread := QNetworkReplyInitialSnapshot.deserialize_serialize s
        (ss.flatMap fun s => s.serialize)
      rw [← List.flatMap_cons, hx] at hread
      rw [hx]
      simp only [readNetworkFile, hread, Option.bind_eq_bind, Option.bind_some, ih hlen,
        Option.pure_def, List.map_cons]

/-- The snapshots of the requests, as they are when the log is written. -/
def logged (f : QNetworkReplyControllableFactory V) : List (QNetworkReplyInitialSnapshot V) :=
  f.networkHistory.filterMap fun address => f.objects[address]?

/-- The file of a factory is read back as what it has logged. -/
theorem ofNetworkFile_writeNetworkFile (f : QNetworkReplyControllableFactory V) :
    ofNetworkFile f.writeNetworkFile = some (ofSnapshots ((logged f).map fun s => s.rewound)) := by
  -- a snapshot takes something, so the file is long enough for all of them
  have hlen : (logged f).length ≤ f.writeNetworkFile.length := by
    have : ∀ l : List (QNetworkReplyInitialSnapshot V),
        l.length ≤ (l.flatMap fun s => s.serialize).length := by
      intro l
      induction l with
      | nil => exact Nat.le_refl 0
      | cons s ss ih =>
        rw [List.flatMap_cons, List.length_append, List.length_cons]
        have : 0 < s.serialize.length := by simp [QNetworkReplyInitialSnapshot.serialize]
        omega
    exact this (logged f)
  rw [ofNetworkFile, show f.writeNetworkFile = (logged f).flatMap fun s => s.serialize from rfl]
    at *
  rw [readNetworkFile_flatMap _ hlen]
  rfl

/-! ## A strict replay -/

/-- The snapshots that a series of requests is served with. -/
def serveAll (score : QUrl → QUrl → Nat) : QNetworkReplyControllableFactory V →
    List (List QString × QNetworkReply V) → Option (List (Nat × Source))
  | _, [] => some []
  | f, (order, qreply) :: calls => do
    let (f, address, source) ← f.construct score order qreply
    let served ← serveAll score f calls
    return (address, source) :: served

/-- A strict replay in which the requests come in the order of the log. -/
theorem serveAll_of_urls (score : QUrl → QUrl → Nat)
    {snapshots : List (QNetworkReplyInitialSnapshot V)}
    {calls : List (List QString × QNetworkReply V)} {i : Nat}
    {f : QNetworkReplyControllableFactory V} {m : QueueMap QString Nat}
    (hkind : f.kind = .replay m .strict)
    (hqueue : ∀ url, m.queue url =
      ((snapshots.zipIdx.drop i).filter fun p => p.1.url.string = url).map Prod.snd)
    (hurls : calls.map (fun c => c.2.url.string) <+:
      (snapshots.drop i).map (fun s => s.url.string)) :
    serveAll score f calls = some ((List.range' i calls.length).map fun a => (a, .exact)) := by
  induction calls generalizing i f m with
  | nil => rfl
  | cons call calls ih =>
    obtain ⟨order, qreply⟩ := call
    have hlt : i < snapshots.length := by
      by_contra hge
      rw [List.drop_eq_nil_of_le (by omega)] at hurls
      exact absurd (List.prefix_nil.mp hurls) (List.cons_ne_nil _ _)
    rw [List.drop_eq_getElem_cons hlt, List.map_cons, List.map_cons, List.cons_prefix_cons] at hurls
    obtain ⟨hurl, hurls⟩ := hurls
    dsimp only at hurl
    have hzip : snapshots.zipIdx.drop i = (snapshots[i], i) :: snapshots.zipIdx.drop (i + 1) := by
      rw [List.drop_eq_getElem_cons (by simpa using hlt)]
      simp
    -- the oldest snapshot that is left for the URL is the next one of the log
    have hfront : m.queue qreply.url.string = i ::
        ((snapshots.zipIdx.drop (i + 1)).filter fun p => p.1.url.string = qreply.url.string).map
          Prod.snd := by
      rw [hqueue, hzip, List.filter_cons_of_pos (by simpa using hurl.symm), List.map_cons]
    have hstep : f.construct score order qreply = some
        ({ f with
            kind := .replay (takeFirst m qreply.url.string) .strict }.controllableConstructed i,
          i, .exact) := by
      rw [construct, hkind]
      dsimp only
      rw [if_neg (by decide), hfront]
    simp only [serveAll, hstep, Option.bind_eq_bind, Option.bind_some]
    rw [ih (i := i + 1) (m := takeFirst m qreply.url.string) rfl ?_ hurls]
    · simp only [Option.bind_some, Option.pure_def, List.length_cons, List.range'_succ,
        List.map_cons]
    · intro url
      rw [takeFirst_queue]
      split
      · rename_i h
        rw [h, hfront, List.tail_cons]
      · rename_i h
        rw [hqueue, hzip, List.filter_cons_of_neg]
        simpa [← hurl] using Ne.symm h

/-! ## The invariant -/

/-- The requests that were made before the run stopped. -/
def beforeStop (requests : List Request) : List Request :=
  requests.takeWhile fun q => q.mode ≠ some .stop

/-- What comes before a stop, with one more request. -/
theorem mem_beforeStop_append {requests : List Request} {p q : Request}
    (h : p ∈ beforeStop (requests ++ [q])) :
    p ∈ beforeStop requests ∨ (p = q ∧ ∀ x ∈ requests, x.mode ≠ some .stop) := by
  unfold beforeStop at h ⊢
  rw [List.takeWhile_append] at h
  split at h
  · rename_i hall
    have hself := List.takeWhile_eq_self_iff.mp ((List.takeWhile_prefix _).eq_of_length hall)
    rcases List.mem_append.mp h with h | h
    · left
      rw [List.takeWhile_eq_self_iff.mpr hself]
      exact h
    · right
      refine ⟨List.mem_singleton.mp ((List.takeWhile_sublist _).subset h), fun x hx => ?_⟩
      simpa using hself x hx
  · exact .inl h

/-- A request that would be fuzzily matched is not made before the run stops: in a relaxed
    mode, a snapshot is left for its URL or no snapshot at the front of a list matches. -/
def MatchesExactly (score : QUrl → QUrl → Nat) (r : NetworkRun V) : Label V → Prop
  | .construct order qreply =>
    (∀ q ∈ r.requests, q.mode ≠ some .stop) → ∀ m mode, r.factory.kind = .replay m mode →
      mode = .bestEffort ∨ mode = .bestEffortNond →
        m.queue qreply.url.string ≠ [] ∨
          ∀ key ∈ order, ∀ a rest, m.queue key = a :: rest →
            r.factory.scoreOf score qreply.url a = 0
  | _ => True

/-- The URL of the snapshot at an address. -/
def urlAt (f : QNetworkReplyControllableFactory V) (address : Nat) : Option QString :=
  (f.objects.map identity)[address]?.map fun i => i.1.string

/-- An object keeps its URL. -/
theorem urlAt_of_prefix {f f' : QNetworkReplyControllableFactory V} {address : Nat}
    {url : QString} (h : f.objects.map identity <+: f'.objects.map identity)
    (hurl : urlAt f address = some url) : urlAt f' address = some url := by
  obtain ⟨i, hi, rfl⟩ := Option.map_eq_some_iff.mp hurl
  rw [urlAt, List.getElem?_of_prefix h hi, Option.map_some]

/-- Only objects have a URL. -/
theorem urlAt_lt {f : QNetworkReplyControllableFactory V} {address : Nat} {url : QString}
    (h : urlAt f address = some url) : address < f.objects.length := by
  obtain ⟨i, hi, -⟩ := Option.map_eq_some_iff.mp h
  simpa using (List.getElem?_eq_some_iff.mp hi).1

/-- A recorded address keeps the URL it was recorded for. -/
theorem PoolInv.urlAt {recorded : List (QNetworkReplyInitialSnapshot V)} {r : NetworkRun V}
    (inv : PoolInv recorded r) {address : Nat} {url : QString}
    (h : address ∈ recordedFor recorded url) : urlAt r.factory address = some url := by
  obtain ⟨s, hs, rfl⟩ := mem_recordedFor.mp h
  have hid : (recorded.map identity)[address]? = some (identity s) := by
    rw [List.getElem?_map, hs, Option.map_some]
  rw [NetworkRun.urlAt, List.getElem?_of_prefix inv.objects hid, Option.map_some]
  rfl

/-- What holds in every state of a run in which no request is fuzzily matched. -/
structure ClosureInv (recorded : List (QNetworkReplyInitialSnapshot V)) (r : NetworkRun V) :
    Prop where
  pool : PoolInv recorded r
  history : r.factory.networkHistory = r.requests.map Request.address
  valid : ∀ q ∈ r.requests, q.address < r.factory.objects.length
  urls : ∀ q ∈ beforeStop r.requests, urlAt r.factory q.address = some q.url.string

/-- One more request, served with a snapshot that has its URL unless the run has stopped. -/
theorem closureInv_request {recorded : List (QNetworkReplyInitialSnapshot V)}
    {r r' : NetworkRun V} {q : Request} (inv : ClosureInv recorded r) (hpool : PoolInv recorded r')
    (hobjects : r.factory.objects.map identity <+: r'.factory.objects.map identity)
    (hhistory : r'.factory.networkHistory = r.factory.networkHistory ++ [q.address])
    (hrequests : r'.requests = r.requests ++ [q]) (hvalid : q.address < r'.factory.objects.length)
    (hurl : (∀ x ∈ r.requests, x.mode ≠ some .stop) →
      urlAt r'.factory q.address = some q.url.string) : ClosureInv recorded r' := by
  have hlen : r.factory.objects.length ≤ r'.factory.objects.length := by
    simpa using hobjects.length_le
  refine ⟨hpool, ?_, fun p hp => ?_, fun p hp => ?_⟩
  · rw [hhistory, inv.history, hrequests, List.map_append, List.map_singleton]
  · rw [hrequests] at hp
    rcases List.mem_append.mp hp with hp | hp
    · exact Nat.lt_of_lt_of_le (inv.valid p hp) hlen
    · rw [List.mem_singleton.mp hp]; exact hvalid
  · rw [hrequests] at hp
    rcases mem_beforeStop_append hp with hp | ⟨rfl, hrunning⟩
    · exact urlAt_of_prefix hobjects (inv.urls p hp)
    · exact hurl hrunning

/-- Every step serves what was recorded for the URL. -/
theorem closureInv_step {score : QUrl → QUrl → Nat}
    {recorded : List (QNetworkReplyInitialSnapshot V)} {r r' : NetworkRun V} {l : Label V}
    (inv : ClosureInv recorded r) (hc : MatchesExactly score r l)
    (h : r.exec toStdString score l = some r') : ClosureInv recorded r' := by
  have hpool := poolInv_step inv.pool h
  obtain ⟨order, qreply, f, address, source, rfl, hcon, hf, hreq⟩ | ⟨mode, rfl, rfl⟩ |
    ⟨-, hquiet⟩ := exec_cases h
  · cases construct_cases hcon with
    | @exact m mode' a rest hkind hmode hqueue =>
      have horder := inv.pool.order qreply.url.string
      rw [NetworkRun.pool, hkind, hqueue] at horder
      have hmem : address ∈ recordedFor recorded qreply.url.string := by
        rw [horder]; exact List.mem_append_right _ List.mem_cons_self
      have hurl := inv.pool.urlAt hmem
      refine closureInv_request inv hpool (by rw [hf]; exact List.prefix_refl _) (by rw [hf]; rfl)
        hreq ?_ fun _ => ?_
      · rw [hf]; exact urlAt_lt hurl
      · rw [hf]; exact hurl
    | @fuzzy m mode' key a rest hkind hmode hqueue hmatch hkey =>
      have horder := inv.pool.order key
      rw [NetworkRun.pool, hkind, hkey] at horder
      have hmem : address ∈ recordedFor recorded key := by
        rw [horder]; exact List.mem_append_right _ List.mem_cons_self
      refine closureInv_request inv hpool (by rw [hf]; exact List.prefix_refl _) (by rw [hf]; rfl)
        hreq ?_ fun hrunning => ?_
      · rw [hf]; exact urlAt_lt (inv.pool.urlAt hmem)
      · -- the condition rules a fuzzy match out while the run has not stopped
        obtain ⟨b, rest', hb, hkeymem, hscore⟩ := fuzzyMatch_spec hmatch
        rcases hc hrunning m mode' hkind hmode with hne | hzero
        · exact absurd hqueue hne
        · exact absurd (hzero key hkeymem b rest' hb) (Nat.ne_of_gt hscore)
    | live hnot =>
      -- the new snapshot is that of the request, under its URL
      have hobjects : r'.factory.objects = r.factory.objects ++
          [.ofReply (getNextSameUrlSequenceNumber r.factory.nextSameUrlSequenceNumber
            qreply.url).1 qreply] := by rw [hf]; rfl
      refine closureInv_request inv hpool ?_ (by rw [hf]; rfl) hreq ?_ fun _ => ?_
      · rw [hobjects, List.map_append]; exact List.prefix_append _ _
      · rw [hobjects, List.length_append]
        simp [constructLive]
      · rw [urlAt, hobjects, List.map_append, constructLive]
        simp [identity, QNetworkReplyInitialSnapshot.ofReply,
          QNetworkReplyInitialSnapshot.takeSnapshot]
  · obtain ⟨m, mode', hkind⟩ := inv.pool.replay
    have hset : r.factory.setMode mode = { r.factory with kind := .replay m mode } := by
      rw [setMode, hkind]
    refine ⟨hpool, ?_, ?_, ?_⟩
    · dsimp only; rw [hset]; exact inv.history
    · dsimp only; rw [hset]; exact inv.valid
    · dsimp only; rw [hset]; exact inv.urls
  · have hlen : r'.factory.objects.length = r.factory.objects.length := by
      simpa using congrArg List.length hquiet.objects
    refine ⟨hpool, ?_, ?_, fun q hq => ?_⟩
    · rw [hquiet.history, hquiet.requests]; exact inv.history
    · rw [hquiet.requests, hlen]; exact inv.valid
    · rw [hquiet.requests] at hq
      rw [urlAt, hquiet.objects]
      exact inv.urls q hq

/-- In every run that matches exactly. -/
theorem closureInv_of_reachable {score : QUrl → QUrl → Nat}
    {recorded : List (QNetworkReplyInitialSnapshot V)} {r : NetworkRun V}
    (h : ((replays toStdString score recorded).restrict (MatchesExactly score)).Reachable r) :
    ClosureInv recorded r := by
  refine Lts.Reachable.invariant (P := ClosureInv recorded) ?_ ?_ h
  · intro r hr
    have hpool := poolInv_init toStdString score recorded hr
    obtain rfl := hr
    exact ⟨hpool, rfl, fun _ hq => absurd hq List.not_mem_nil,
      fun _ hq => absurd hq List.not_mem_nil⟩
  · intro _ _ _ _ inv h
    exact closureInv_step inv h.1 h.2

/-! ## What holds of every run -/

/-- A strict replay of the log that makes the same requests serves each of them from the
    log, with the snapshot that it had. -/
def Replayable (score : QUrl → QUrl → Nat) (r : NetworkRun V) : Prop :=
  ∃ f, ofNetworkFile r.factory.writeNetworkFile = some f ∧
    ∀ calls : List (List QString × QNetworkReply V),
      calls.map (fun c => c.2.url) = (beforeStop r.requests).map Request.url →
        ∃ served, serveAll score f calls = some served ∧ (∀ s ∈ served, s.2 = .exact) ∧
          served.map (fun s => f.objects[s.1]?) = (beforeStop r.requests).map fun q =>
            (r.factory.objects[q.address]?).map fun s => s.rewound

/-- The log holds the snapshots of the requests, in their order. -/
theorem ClosureInv.logged_eq {recorded : List (QNetworkReplyInitialSnapshot V)}
    {r : NetworkRun V} (inv : ClosureInv recorded r) :
    (logged r.factory).map some = r.requests.map fun q => r.factory.objects[q.address]? := by
  rw [logged, List.map_some_filterMap, inv.history, List.map_map]
  · rfl
  · intro address ha
    rw [inv.history] at ha
    obtain ⟨q, hq, rfl⟩ := List.mem_map.mp ha
    exact ⟨_, List.getElem?_eq_getElem (inv.valid q hq)⟩

/-- The URLs of the requests before the stop are those of the first snapshots of the log. -/
theorem ClosureInv.urls_prefix {recorded : List (QNetworkReplyInitialSnapshot V)}
    {r : NetworkRun V} (inv : ClosureInv recorded r) :
    (beforeStop r.requests).map (fun q => q.url.string) <+:
      (logged r.factory).map fun s => s.url.string := by
  have hlogged : (logged r.factory).map (fun s => some s.url.string) =
      r.requests.map fun q => urlAt r.factory q.address := by
    have := congrArg (List.map (Option.map fun s => s.url.string)) inv.logged_eq
    rw [List.map_map, List.map_map] at this
    refine Eq.trans this (List.map_congr_left fun q _ => ?_)
    rw [urlAt, List.getElem?_map, Option.map_map]
    rfl
  have hsome : (beforeStop r.requests).map (fun q => some q.url.string) <+:
      (logged r.factory).map fun s => some s.url.string := by
    rw [hlogged, ← List.map_congr_left fun q hq => inv.urls q hq]
    exact (List.takeWhile_prefix _).map _
  have := hsome.filterMap id
  simpa only [List.filterMap_map, Function.comp_def, id_eq, List.filterMap_eq_map'] using this

/-- A replay in which no request is fuzzily matched before it stops writes a log that a
    strict replay of the same requests can follow. -/
theorem network_log_closed {score : QUrl → QUrl → Nat}
    {recorded : List (QNetworkReplyInitialSnapshot V)} {r : NetworkRun V}
    (h : ((replays toStdString score recorded).restrict (MatchesExactly score)).Reachable r) :
    Replayable score r := by
  have inv := closureInv_of_reachable h
  refine ⟨_, ofNetworkFile_writeNetworkFile r.factory, fun calls hcalls => ?_⟩
  -- the requests before the stop come first in the log
  let snapshots := (logged r.factory).map fun s => s.rewound
  have hurls : calls.map (fun c => c.2.url.string) <+: snapshots.map fun s => s.url.string := by
    have hleft : calls.map (fun c => c.2.url.string) =
        (beforeStop r.requests).map fun q => q.url.string := by
      have := congrArg (List.map QUrl.string) hcalls
      rw [List.map_map, List.map_map] at this
      exact this
    have hright : snapshots.map (fun s => s.url.string) =
        (logged r.factory).map fun s => s.url.string := by
      rw [List.map_map]; rfl
    rw [hleft, hright]
    exact inv.urls_prefix
  have hserve := serveAll_of_urls score (i := 0) (f := ofSnapshots snapshots) rfl
    (fun url => by rw [snapshotMap_queue]; rfl) hurls
  refine ⟨_, hserve, ?_, ?_⟩
  · intro s hs
    obtain ⟨a, -, rfl⟩ := List.mem_map.mp hs
    rfl
  · have hlen : calls.length = (beforeStop r.requests).length := by
      simpa using congrArg List.length hcalls
    have htake : r.requests.take (beforeStop r.requests).length = beforeStop r.requests :=
      (List.prefix_iff_eq_take.mp (List.takeWhile_prefix _)).symm
    have hle : calls.length ≤ snapshots.length := by
      simpa using hurls.length_le
    rw [List.map_map]
    calc (List.range' 0 calls.length).map (fun a => snapshots[a]?)
        = (snapshots.take calls.length).map some := List.map_getElem?_range' hle
      _ = (snapshots.map some).take calls.length := List.map_take
      _ = (r.requests.map fun q => (r.factory.objects[q.address]?).map fun s => s.rewound).take
            calls.length := by
          have := congrArg (List.map (Option.map fun s => s.rewound)) inv.logged_eq
          rw [List.map_map, List.map_map] at this
          rw [List.map_map]
          exact congrArg (List.take calls.length) this
      _ = _ := by rw [← List.map_take, hlen, htake]

/-- One request is served exactly, and one of another host live. -/
theorem network_log_closed_of_mixed :
    ∃ r, ((replays toLatin1 (fun _ _ => 0) [plainSnapshot "http://h/a" 0]).restrict
        (MatchesExactly fun _ _ => 0)).Reachable r ∧
      (beforeStop r.requests).map Request.source = [.exact, .live] ∧
      Replayable (fun _ _ => 0) r := by
  -- one recorded reply, which is taken by the first request
  let r₀ : NetworkRun Unit := ⟨ofSnapshots [plainSnapshot "http://h/a" 0], []⟩
  let exec₀ := exec (V := Unit) toLatin1 fun _ _ => 0
  have hrun : ((exec₀ r₀ (.construct [] (plainReply "http://h/a"))).bind fun r₁ =>
      (exec₀ r₁ (.setMode .bestEffort)).bind fun r₂ =>
        (exec₀ r₂ (.construct ["http://h/a".toList] (plainReply "http://k/b"))).map
          fun r₃ => (beforeStop r₃.requests).map Request.source) = some [.exact, .live] := by
    decide +kernel
  obtain ⟨r₁, h₁, hrun⟩ := Option.bind_eq_some_iff.mp hrun
  obtain ⟨r₂, h₂, hrun⟩ := Option.bind_eq_some_iff.mp hrun
  obtain ⟨r₃, h₃, hsources⟩ := Option.map_eq_some_iff.mp hrun
  -- every step is one that the condition allows
  have hinit : ((replays toLatin1 (fun _ _ => 0) [plainSnapshot "http://h/a" 0]).restrict
      (MatchesExactly fun _ _ => 0)).Reachable r₀ := .init rfl
  have hreach₁ := hinit.restrict_step h₁ fun _ m mode hkind hmode => by
    rw [← (FactoryKind.replay.inj hkind).2] at hmode
    exact absurd hmode (by decide)
  have hreach₂ := hreach₁.restrict_step h₂ trivial
  -- without a score no URL is similar
  have hreach₃ := hreach₂.restrict_step h₃ fun _ m mode _ _ => .inr fun _ _ a _ _ => by
    unfold scoreOf
    split <;> rfl
  exact ⟨r₃, hreach₃, hsources, network_log_closed hreach₃⟩

/-- The score of URLs that differ in the last of two path fragments. -/
def siblingScore (url other : QUrl) : Nat := if url = other then 2 ^ 32 - 1 else 2

/-- A request is fuzzily matched with the snapshot of another URL. The log has that snapshot
    under its own URL, and a strict replay of the log exits at the request. -/
theorem fuzzy_match_not_replayable :
    ∃ r, (replays toLatin1 siblingScore [plainSnapshot "http://h/a" 0]).Reachable r ∧
      (beforeStop r.requests).map Request.url = [⟨"http://h/b".toList⟩] ∧
      ¬ Replayable siblingScore r := by
  -- the reply was recorded for another URL, to which it is similar
  let r₀ : NetworkRun Unit := ⟨ofSnapshots [plainSnapshot "http://h/a" 0], []⟩
  let run : List (Label Unit) := [.setMode .bestEffort,
    .construct ["http://h/a".toList] (plainReply "http://h/b")]
  let calls : List (List QString × QNetworkReply Unit) := [([], plainReply "http://h/b")]
  have hrun : ((run.foldlM (exec toLatin1 siblingScore) r₀).map fun r =>
      ((beforeStop r.requests).map Request.url,
        (ofNetworkFile r.factory.writeNetworkFile).bind fun f => serveAll siblingScore f calls)) =
      some ([⟨"http://h/b".toList⟩], none) := by decide +kernel
  obtain ⟨r, hr, hobs⟩ := Option.map_eq_some_iff.mp hrun
  simp only [Prod.mk.injEq] at hobs
  obtain ⟨hurls, hexit⟩ := hobs
  refine ⟨r, Lts.Reachable.foldlM (fun _ _ _ h => h) (.init rfl) hr, hurls, ?_⟩
  rintro ⟨f, hf, hserve⟩
  -- in the second replay the request finds nothing
  obtain ⟨served, hserved, -⟩ := hserve calls (by rw [hurls]; rfl)
  rw [hf, Option.bind_some, hserved] at hexit
  exact nomatch hexit

end R4.NetworkRun
