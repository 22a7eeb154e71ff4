import Mathlib.Data.List.Nodup
import R4.Spec.NetworkRun

/-!
# Recorded snapshots are served once and in order

`construct` takes snapshots from the lists of the pool on two ways, by the URL of the
request and by the best fuzzy match, and always from the front of a list. So what has been
served and what is left of a URL is, together and in this order, what was recorded for it.

## Key results

- `poolInv_step`: that is kept by every step
- `snapshots_served_once_in_order`: what holds of every run
-/

namespace R4.NetworkRun

open QNetworkReplyControllableFactory

variable {V : Type} {toStdString : QString → StdString}

/-! ## The pool -/

/-- The addresses of the snapshots that were recorded for a URL, in the order of the file. -/
def recordedFor (recorded : List (QNetworkReplyInitialSnapshot V)) (url : QString) : List Nat :=
  (recorded.zipIdx.filter fun p => p.1.url.string = url).map Prod.snd

/-- The recorded replies for a URL. -/
theorem mem_recordedFor {recorded : List (QNetworkReplyInitialSnapshot V)} {url : QString}
    {a : Nat} :
    a ∈ recordedFor recorded url ↔ ∃ s, recorded[a]? = some s ∧ s.url.string = url := by
  simp only [recordedFor, List.mem_map, List.mem_filter, List.mem_zipIdx_iff_getElem?,
    decide_eq_true_eq, Prod.exists, exists_eq_right]

/-- No reply is recorded twice. -/
theorem recordedFor_nodup (recorded : List (QNetworkReplyInitialSnapshot V)) (url : QString) :
    (recordedFor recorded url).Nodup := by
  refine List.Nodup.sublist (List.filter_sublist.map Prod.snd) ?_
  rw [List.zipIdx_map_snd]
  exact List.nodup_range'

/-- An address was recorded for one URL only. -/
theorem recordedFor_unique {recorded : List (QNetworkReplyInitialSnapshot V)}
    {url url' : QString} {a : Nat} (h : a ∈ recordedFor recorded url)
    (h' : a ∈ recordedFor recorded url') : url = url' := by
  obtain ⟨s, hs, rfl⟩ := mem_recordedFor.mp h
  obtain ⟨s', hs', rfl⟩ := mem_recordedFor.mp h'
  rw [hs] at hs'
  rw [Option.some.inj hs']

/-- The queue of a URL has its replies in the order of the records. -/
theorem foldl_push_queue (entries : List (QNetworkReplyInitialSnapshot V × Nat))
    (m : QueueMap QString Nat) (url : QString) :
    (entries.foldl (fun m p => m.push p.1.url.string p.2) m).queue url =
      m.queue url ++ (entries.filter fun p => p.1.url.string = url).map Prod.snd := by
  induction entries generalizing m with
  | nil => simp
  | cons p ps ih =>
    rw [List.foldl_cons, ih, QueueMap.queue_push]
    by_cases hp : p.1.url.string = url
    · rw [if_pos hp.symm, List.filter_cons_of_pos (by simpa using hp), List.map_cons,
        List.append_assoc, List.singleton_append]
    · rw [if_neg (Ne.symm hp), List.filter_cons_of_neg (by simpa using hp)]

/-- The queues of the map are the recorded replies. -/
theorem snapshotMap_queue (recorded : List (QNetworkReplyInitialSnapshot V)) (url : QString) :
    (snapshotMap recorded).queue url = recordedFor recorded url := by
  rw [snapshotMap, foldl_push_queue, QueueMap.queue_empty, List.nil_append, recordedFor]

/-- Taking a reply takes the first one of its URL. -/
theorem takeFirst_queue (m : QueueMap QString Nat) (key url : QString) :
    (takeFirst m key).queue url = if url = key then (m.queue url).tail else m.queue url := by
  rw [takeFirst, QueueMap.queue_insert]
  split
  · rename_i h; rw [h]
  · rfl

/-! ## The fuzzy match -/

/-- The best match so far is the front of a list and scores better than 0. -/
theorem fuzzyMatch_spec {score : Nat → Nat} {m : QueueMap QString Nat} {order : List QString}
    {key : QString} (h : fuzzyMatch score m order = some key) :
    ∃ a rest, m.queue key = a :: rest ∧ key ∈ order ∧ 0 < score a := by
  -- what is best after any number of rounds is the front of its queue and scores
  have general : ∀ (order : List QString) (best : Nat × Option QString),
      (∀ k, best.2 = some k → ∃ a rest, m.queue k = a :: rest ∧ 0 < score a) →
      ∀ k, (order.foldl (fuzzyRound score m) best).2 = some k →
        (∃ a rest, m.queue k = a :: rest ∧ 0 < score a) ∧ (best.2 = some k ∨ k ∈ order) := by
    intro order
    induction order with
    | nil => intro best hbest k hk; exact ⟨hbest k hk, .inl hk⟩
    | cons x xs ih =>
      intro best hbest k hk
      rw [List.foldl_cons] at hk
      -- one round keeps the best key, or takes this one
      have hround : ∀ j, (fuzzyRound score m best x).2 = some j →
          (∃ a rest, m.queue j = a :: rest ∧ 0 < score a) ∧ (best.2 = some j ∨ j = x) := by
        intro j hj
        unfold fuzzyRound at hj
        split at hj
        · -- the queue of the key is empty
          exact ⟨hbest j hj, .inl hj⟩
        · rename_i a rest hq
          -- it scores more than the best one so far
          split at hj
          · rename_i hscore
            obtain rfl := Option.some.inj hj
            exact ⟨⟨a, rest, hq, by omega⟩, .inr rfl⟩
          · exact ⟨hbest j hj, .inl hj⟩
      obtain ⟨hfront, hmem⟩ := ih _ (fun j hj => (hround j hj).1) k hk
      refine ⟨hfront, ?_⟩
      -- the best key was best before, or is one of the keys
      rcases hmem with hmem | hmem
      · rcases (hround k hmem).2 with h | rfl
        · exact .inl h
        · exact .inr List.mem_cons_self
      · exact .inr (List.mem_cons_of_mem _ hmem)
  obtain ⟨⟨a, rest, hq, hscore⟩, hmem⟩ := general order (0, none) (by simp) key h
  exact ⟨a, rest, hq, hmem.resolve_left (by simp), hscore⟩

/-! ## What `construct` does -/

/-- The three ways of `construct`. -/
inductive Constructed (score : QUrl → QUrl → Nat) (order : List QString)
    (f : QNetworkReplyControllableFactory V) (qreply : QNetworkReply V) :
    QNetworkReplyControllableFactory V × Nat × Source → Prop where
  | live (h : ∀ m, f.kind ≠ .replay m .strict) :
      Constructed score order f qreply
        ((f.constructLive qreply).1, (f.constructLive qreply).2, .live)
  | exact {m : QueueMap QString Nat} {mode : ReplayMode} {a : Nat} {rest : List Nat}
      (hkind : f.kind = .replay m mode) (hmode : mode ≠ .stop)
      (hqueue : m.queue qreply.url.string = a :: rest) :
      Constructed score order f qreply
        ({ f with
            kind := .replay (takeFirst m qreply.url.string) mode }.controllableConstructed a,
          a, .exact)
  | fuzzy {m : QueueMap QString Nat} {mode : ReplayMode} {key : QString} {a : Nat}
      {rest : List Nat} (hkind : f.kind = .replay m mode)
      (hmode : mode = .bestEffort ∨ mode = .bestEffortNond)
      (hqueue : m.queue qreply.url.string = [])
      (hmatch : fuzzyMatch (f.scoreOf score qreply.url) m order = some key)
      (hkey : m.queue key = a :: rest) :
      Constructed score order f qreply
        ({ f with kind := .replay (takeFirst m key) mode }.controllableConstructed a, a, .fuzzy)

/-- The cases of `construct`: a live reply, one for the same URL, or one for another URL. -/
theorem construct_cases {score : QUrl → QUrl → Nat} {order : List QString}
    {f : QNetworkReplyControllableFactory V} {qreply : QNetworkReply V}
    {result : QNetworkReplyControllableFactory V × Nat × Source}
    (h : f.construct score order qreply = some result) :
    Constructed score order f qreply result := by
  unfold construct at h
  split at h
  · -- a live factory
    rename_i hkind
    obtain rfl := Option.some.inj h
    exact .live fun m hm => by simp [hkind] at hm
  · rename_i m mode hkind
    -- in a replay that is not strict the reply may be live
    have hlive : mode ≠ .strict → ∀ m', f.kind ≠ .replay m' .strict := by
      intro hne m' hm'
      rw [hkind] at hm'
      exact hne (FactoryKind.replay.inj hm').2
    -- the mode is `STOP`, in which everything is live
    split at h
    · rename_i hstop
      obtain rfl := Option.some.inj h
      exact .live (hlive (by rw [hstop]; decide))
    · rename_i hstop
      -- a reply was recorded for the URL
      split at h
      · rename_i a rest hqueue
        obtain rfl := Option.some.inj h
        exact .exact hkind hstop hqueue
      · rename_i hqueue
        -- in the other modes the most similar URL is looked for
        split at h
        · rename_i hmode
          have hstrict : mode ≠ .strict := by rcases hmode with rfl | rfl <;> decide
          obtain rfl := Option.some.inj h
          unfold constructFuzzy
          split
          · -- no URL is similar
            exact .live (hlive hstrict)
          · rename_i key hmatch
            -- there is one, with a reply in its queue
            split
            · exact .live (hlive hstrict)
            · rename_i a rest hkey
              exact .fuzzy hkind hmode hqueue hmatch hkey
        · -- a strict replay does not go on without a reply
          simp at h

/-! ## The invariant -/

/-- The pool of a replay factory. -/
def pool (f : QNetworkReplyControllableFactory V) : QueueMap QString Nat :=
  match f.kind with
  | .live => ∅
  | .replay m _ => m

/-- The recorded snapshots that have been served, in the order they were. -/
def servedRecorded (requests : List Request) : List Nat :=
  requests.filterMap fun q => if q.source = .live then none else some q.address

/-- What holds in every state of a replay. -/
structure PoolInv (recorded : List (QNetworkReplyInitialSnapshot V)) (r : NetworkRun V) : Prop where
  replay : ∃ m mode, r.factory.kind = .replay m mode
  objects : recorded.map identity <+: r.factory.objects.map identity
  order : ∀ url, recordedFor recorded url =
    (servedRecorded r.requests).filter (fun a => a ∈ recordedFor recorded url) ++
      (pool r.factory).queue url
  known : ∀ a ∈ servedRecorded r.requests, ∃ url, a ∈ recordedFor recorded url
  exactUrl : ∀ q ∈ r.requests, q.source = .exact → q.address ∈ recordedFor recorded q.url.string
  strict : ∀ q ∈ r.requests, q.mode = some .strict → q.source = .exact

variable (toStdString) in
/-- At the start of a replay everything is in the pool. -/
theorem poolInv_init (score : QUrl → QUrl → Nat)
    (recorded : List (QNetworkReplyInitialSnapshot V)) {r : NetworkRun V}
    (h : (replays toStdString score recorded).init r) : PoolInv recorded r := by
  obtain rfl := h
  refine ⟨⟨_, _, rfl⟩, List.prefix_refl _, fun url => ?_, fun a ha => ?_, fun q hq => ?_,
    fun q hq => ?_⟩
  · exact (snapshotMap_queue recorded url).symm
  · exact absurd ha List.not_mem_nil
  · exact absurd hq List.not_mem_nil
  · exact absurd hq List.not_mem_nil

/-- The front of a list is served. -/
theorem order_takeFirst {recorded : List (QNetworkReplyInitialSnapshot V)}
    {served : List Nat} {m : QueueMap QString Nat} {key : QString} {a : Nat} {rest : List Nat}
    (h : ∀ url, recordedFor recorded url =
      served.filter (fun a => a ∈ recordedFor recorded url) ++ m.queue url)
    (hkey : m.queue key = a :: rest) :
    a ∈ recordedFor recorded key ∧ ∀ url, recordedFor recorded url =
      (served ++ [a]).filter (fun a => a ∈ recordedFor recorded url) ++
        (takeFirst m key).queue url := by
  have hmem : a ∈ recordedFor recorded key := by
    rw [h key, hkey]
    exact List.mem_append_right _ List.mem_cons_self
  refine ⟨hmem, fun url => ?_⟩
  rw [List.filter_append, takeFirst_queue]
  by_cases hurl : url = key
  · -- the front of the list moves from what is left to what has been served
    subst hurl
    rw [if_pos rfl, hkey, List.filter_cons_of_pos (by simpa using hmem), List.filter_nil,
      List.append_assoc, List.tail_cons, List.singleton_append, ← hkey, ← h url]
  · -- a snapshot of another URL does not count here
    have hnot : a ∉ recordedFor recorded url := fun h' => hurl (recordedFor_unique h' hmem)
    rw [if_neg hurl, List.filter_cons_of_neg (by simpa using hnot), List.filter_nil,
      List.append_nil, ← h url]

/-- A request that is not live has been served another reply. -/
theorem servedRecorded_append (requests : List Request) (q : Request) :
    servedRecorded (requests ++ [q]) =
      servedRecorded requests ++ if q.source = .live then [] else [q.address] := by
  rw [servedRecorded, List.filterMap_append, servedRecorded]
  split
  · rename_i h; simp [h]
  · rename_i h; simp [h]

/-- A request that is not served live, and the list it was served from. -/
theorem poolInv_recorded {recorded : List (QNetworkReplyInitialSnapshot V)} {r r' : NetworkRun V}
    {m : QueueMap QString Nat} {mode : ReplayMode} {key : QString} {q : Request}
    {rest : List Nat} (inv : PoolInv recorded r) (hkind : r.factory.kind = .replay m mode)
    (hkey : m.queue key = q.address :: rest) (hlive : q.source ≠ .live)
    (hurl : q.source = .exact → key = q.url.string)
    (hstrict : q.mode = some .strict → q.source = .exact)
    (hfactory : r'.factory =
      { r.factory with kind := .replay (takeFirst m key) mode }.controllableConstructed q.address)
    (hrequests : r'.requests = r.requests ++ [q]) : PoolInv recorded r' := by
  -- the pool loses the front of the queue of the key
  have hpool : pool r.factory = m := by rw [pool, hkind]
  obtain ⟨hmem, horder⟩ := order_takeFirst (hpool ▸ inv.order) hkey
  refine ⟨⟨_, _, by rw [hfactory]; rfl⟩, ?_, fun url => ?_, fun a ha => ?_, fun p hp hps => ?_,
    fun p hp hps => ?_⟩
  · rw [hfactory]; exact inv.objects
  · -- what is served and what is left are still in the order of the records
    rw [hrequests, servedRecorded_append, if_neg hlive, hfactory]
    exact horder url
  · rw [hrequests, servedRecorded_append, if_neg hlive] at ha
    -- the reply is one of the records
    rcases List.mem_append.mp ha with ha | ha
    · exact inv.known a ha
    · rw [List.mem_singleton.mp ha]; exact ⟨key, hmem⟩
  · rw [hrequests] at hp
    -- a reply that is served exactly has the URL of its request
    rcases List.mem_append.mp hp with hp | hp
    · exact inv.exactUrl p hp hps
    · obtain rfl := List.mem_singleton.mp hp
      rw [← hurl hps]; exact hmem
  · rw [hrequests] at hp
    -- a strict replay serves nothing else
    rcases List.mem_append.mp hp with hp | hp
    · exact inv.strict p hp hps
    · obtain rfl := List.mem_singleton.mp hp
      exact hstrict hps

/-- A request takes its reply from the pool, or takes none. -/
theorem poolInv_construct {score : QUrl → QUrl → Nat} {order : List QString}
    {recorded : List (QNetworkReplyInitialSnapshot V)} {r r' : NetworkRun V}
    {qreply : QNetworkReply V} {f : QNetworkReplyControllableFactory V} {address : Nat}
    {source : Source} (inv : PoolInv recorded r)
    (h : r.factory.construct score order qreply = some (f, address, source))
    (hfactory : r'.factory = f)
    (hrequests : r'.requests = r.requests ++ [⟨qreply.url, r.mode, address, source⟩]) :
    PoolInv recorded r' := by
  cases construct_cases h with
  | exact hkind hmode hqueue =>
    exact poolInv_recorded (q := ⟨qreply.url, r.mode, address, .exact⟩) inv hkind hqueue (by simp)
      (fun _ => rfl) (fun _ => rfl) hfactory hrequests
  | @fuzzy m mode' key a rest hkind hmode hqueue hmatch hkey =>
    refine poolInv_recorded (q := ⟨qreply.url, r.mode, address, .fuzzy⟩) inv hkind hkey (by simp)
      (by simp) (fun hs => ?_) hfactory hrequests
    -- there is no fuzzy matching in strict mode
    have hr : r.mode = some mode' := by rw [mode, hkind]
    dsimp only at hs
    rw [hr] at hs
    rw [Option.some.inj hs] at hmode
    exact absurd hmode (by decide)
  | live hnot =>
    obtain ⟨m, mode, hkind⟩ := inv.replay
    -- a live request takes nothing from the pool
    have hserved : servedRecorded r'.requests = servedRecorded r.requests := by
      rw [hrequests, servedRecorded_append, if_pos rfl, List.append_nil]
    refine ⟨⟨m, mode, by rw [hfactory]; exact hkind⟩, ?_, fun url => ?_, ?_, fun p hp hps => ?_,
      fun p hp hps => ?_⟩
    · rw [hfactory]
      refine inv.objects.trans ?_
      simp only [constructLive, controllableConstructed, List.map_append]
      exact List.prefix_append _ _
    · rw [hserved, hfactory]
      exact inv.order url
    · rw [hserved]; exact inv.known
    · rw [hrequests] at hp
      rcases List.mem_append.mp hp with hp | hp
      · exact inv.exactUrl p hp hps
      · rw [List.mem_singleton.mp hp] at hps; exact nomatch hps
    · rw [hrequests] at hp
      rcases List.mem_append.mp hp with hp | hp
      · exact inv.strict p hp hps
      · rw [List.mem_singleton.mp hp, NetworkRun.mode, hkind] at hps
        exact absurd (hkind.trans (by rw [Option.some.inj hps])) (hnot m)

/-- A step keeps the order of every URL. -/
theorem poolInv_step {score : QUrl → QUrl → Nat} {recorded : List (QNetworkReplyInitialSnapshot V)}
    {r r' : NetworkRun V} {l : Label V} (inv : PoolInv recorded r)
    (h : r.exec toStdString score l = some r') : PoolInv recorded r' := by
  obtain ⟨order, qreply, f, address, source, rfl, hc, hf, hreq⟩ | ⟨mode, rfl, rfl⟩ | ⟨-, hquiet⟩ :=
    exec_cases h
  · -- a request
    exact poolInv_construct inv hc hf hreq
  · -- a change of the mode, which keeps the pool
    obtain ⟨m, mode', hkind⟩ := inv.replay
    have hset : r.factory.setMode mode = { r.factory with kind := .replay m mode } := by
      rw [setMode, hkind]
    have hpool : pool (r.factory.setMode mode) = pool r.factory := by
      rw [hset, pool, pool, hkind]
    refine ⟨⟨m, mode, by rw [hset]⟩, ?_, fun url => ?_, inv.known, inv.exactUrl, inv.strict⟩
    · dsimp only; rw [hset]; exact inv.objects
    · dsimp only; rw [hpool]; exact inv.order url
  · -- anything else changes neither the pool nor the requests
    refine ⟨by rw [hquiet.kind]; exact inv.replay, ?_, fun url => ?_, ?_, ?_, ?_⟩
    · rw [hquiet.objects]; exact inv.objects
    · rw [hquiet.requests, pool, hquiet.kind]; exact inv.order url
    · rw [hquiet.requests]; exact inv.known
    · rw [hquiet.requests]; exact inv.exactUrl
    · rw [hquiet.requests]; exact inv.strict

/-- In every run what is served and what is in the pool are the records. -/
theorem poolInv_of_reachable {score : QUrl → QUrl → Nat}
    {recorded : List (QNetworkReplyInitialSnapshot V)} {r : NetworkRun V}
    (h : (replays toStdString score recorded).Reachable r) : PoolInv recorded r := by
  refine Lts.Reachable.invariant (P := PoolInv recorded) ?_ ?_ h
  · intro _ h
    exact poolInv_init toStdString score recorded h
  · intro _ _ _ _ inv h
    exact poolInv_step inv h

/-! ## What holds of every run -/

/-- No snapshot is served twice. -/
theorem PoolInv.nodup {recorded : List (QNetworkReplyInitialSnapshot V)} {r : NetworkRun V}
    (inv : PoolInv recorded r) : (servedRecorded r.requests).Nodup := by
  rw [List.nodup_iff_count_le_one]
  intro a
  by_cases ha : a ∈ servedRecorded r.requests
  · obtain ⟨url, hurl⟩ := inv.known a ha
    -- what was served for its URL is part of what was recorded for it, where it stands once
    have hcount : (servedRecorded r.requests).count a ≤ (recordedFor recorded url).count a := by
      rw [inv.order url, List.count_append, List.count_filter (by simpa using hurl)]
      exact Nat.le_add_right _ _
    exact Nat.le_trans hcount (List.nodup_iff_count_le_one.mp (recordedFor_nodup recorded url) a)
  · rw [List.count_eq_zero.mpr ha]
    exact Nat.zero_le 1

/-- While every request is served exactly, a request is for a URL just if its snapshot was
    recorded for it. -/
theorem served_of_exact {recorded : List (QNetworkReplyInitialSnapshot V)}
    {requests : List Request}
    (h : ∀ q ∈ requests, q.source = .exact ∧ q.address ∈ recordedFor recorded q.url.string)
    (url : QString) :
    (requests.filter fun q => q.url.string = url).map Request.address =
      (servedRecorded requests).filter fun a => a ∈ recordedFor recorded url := by
  -- the induction is on the requests, each of which is served exactly
  induction requests with
  | nil => rfl
  | cons q qs ih =>
    obtain ⟨hsource, hmem⟩ := h q List.mem_cons_self
    have hcons : servedRecorded (q :: qs) = q.address :: servedRecorded qs := by
      simp [servedRecorded, hsource]
    rw [hcons]
    have ih := ih fun p hp => h p (List.mem_cons_of_mem _ hp)
    -- a request for the URL takes one of its records
    by_cases hurl : q.url.string = url
    · rw [List.filter_cons_of_pos (by simpa using hurl), List.map_cons, ih,
        List.filter_cons_of_pos (by simpa using hurl ▸ hmem)]
    · -- a request for another URL takes none of them
      have hnot : q.address ∉ recordedFor recorded url :=
        fun h' => hurl (recordedFor_unique hmem h')
      rw [List.filter_cons_of_neg (by simpa using hurl), ih,
        List.filter_cons_of_neg (by simpa using hnot)]

/-- A recorded snapshot is served at most once; those of a URL leave the pool in the order
    they were recorded; a request for a URL with unserved snapshots gets the oldest of them
    exactly, unless the mode is `STOP`; and while the mode is `STRICT` the requests for a URL
    get the snapshots recorded for it one after the other. -/
theorem snapshots_served_once_in_order {score : QUrl → QUrl → Nat}
    {recorded : List (QNetworkReplyInitialSnapshot V)} {r : NetworkRun V}
    (h : (replays toStdString score recorded).Reachable r) :
    (servedRecorded r.requests).Nodup ∧
      (∀ url, (servedRecorded r.requests).filter (fun a => a ∈ recordedFor recorded url) <+:
        recordedFor recorded url) ∧
      (∀ order qreply a rest, r.mode ≠ some .stop →
        recordedFor recorded qreply.url.string =
          (servedRecorded r.requests).filter
            (fun a => a ∈ recordedFor recorded qreply.url.string) ++ a :: rest →
        ∃ f, r.factory.construct score order qreply = some (f, a, .exact)) ∧
      ((∀ q ∈ r.requests, q.mode = some .strict) → ∀ url,
        (r.requests.filter fun q => q.url.string = url).map Request.address <+:
          recordedFor recorded url) := by
  have inv := poolInv_of_reachable h
  -- what has been served for a URL is a prefix of its records
  have hprefix : ∀ url, (servedRecorded r.requests).filter
      (fun a => a ∈ recordedFor recorded url) <+: recordedFor recorded url := by
    intro url
    exact ⟨_, (inv.order url).symm⟩
  refine ⟨inv.nodup, hprefix, ?_, fun hstrict url => ?_⟩
  · -- a request finds the first reply that has not been served
    intro order qreply a rest hmode hunserved
    obtain ⟨m, mode', hkind⟩ := inv.replay
    -- the mode is not `STOP`
    have hne : mode' ≠ .stop := by
      rintro rfl
      rw [mode, hkind] at hmode
      exact hmode rfl
    -- its queue has what has not been served
    have hqueue : m.queue qreply.url.string = a :: rest := by
      have := (inv.order qreply.url.string).symm.trans hunserved
      rw [pool, hkind] at this
      exact List.append_cancel_left this
    rw [construct, hkind]
    dsimp only
    rw [if_neg hne, hqueue]
    exact ⟨_, rfl⟩
  · -- in a strict replay everything is served exactly
    have hexact : ∀ q ∈ r.requests,
        q.source = .exact ∧ q.address ∈ recordedFor recorded q.url.string := by
      intro q hq
      have hsource := inv.strict q hq (hstrict q hq)
      exact ⟨hsource, inv.exactUrl q hq hsource⟩
    rw [served_of_exact hexact url]
    exact hprefix url

/-- Two requests for `a` with one for `b` between them. -/
theorem snapshots_served_once_in_order_of_three :
    ∃ r, (replays toLatin1 (fun _ _ => 0)
        [plainSnapshot "a" 0, plainSnapshot "a" 1, plainSnapshot "b" 0]).Reachable r ∧
      r.requests.map Request.address = [0, 2, 1] ∧ (servedRecorded r.requests).Nodup := by
  let recorded := [plainSnapshot "a" 0, plainSnapshot "a" 1, plainSnapshot "b" 0]
  let run : List (Label Unit) := [.construct [] (plainReply "a"), .construct [] (plainReply "b"),
    .construct [] (plainReply "a")]
  have hrun : ((run.foldlM (exec toLatin1 fun _ _ => 0) ⟨ofSnapshots recorded, []⟩).map fun r =>
      r.requests.map Request.address) = some [0, 2, 1] := by decide +kernel
  obtain ⟨r, hr, haddresses⟩ := Option.map_eq_some_iff.mp hrun
  have hreach : (replays toLatin1 (fun _ _ => 0) recorded).Reachable r :=
    Lts.Reachable.foldlM (fun _ _ _ h => h) (.init rfl) hr
  exact ⟨r, hreach, haddresses, (snapshots_served_once_in_order hreach).1⟩

end R4.NetworkRun
