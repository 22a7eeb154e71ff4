import R4.ForStd.Admission
import R4.Native.ResourceLoadScheduler

/-!
# Serving resource loads

What the scheduler of resource loads is for: loads wait at the host of their URL, and whenever the
scheduler serves, loads begin, by priority and then by arrival, until every load that still waits
has to. `Loads` says this without queues, without a map of hosts and without an order of serving
them; the scheduler follows it step by step.

## Key results

- `scheduler_admits_loads`: every run of the scheduler is a run of `Loads`
- `serveHost_spec`, `servePendingRequests_spec`: what serving one host, and all of them, does
-/

namespace R4.LoadScheduling

open ResourceLoadScheduler

variable {L : Type}

/-! ## The hosts of the scheduler -/

/-- The hosts are found under their own names. -/
theorem hostNamed_name {s : ResourceLoadScheduler L} {name : HostName} {host : HostInformation L}
    (h : s.hostNamed name = some host) : host.name = name := by
  cases name with
  | none =>
    rw [hostNamed, Option.some.injEq] at h
    exact h ▸ s.nonHTTPProtocolNamed
  | some name => exact s.named name host h

/-- A host that is stored is found, and the others stay. -/
theorem hostNamed_setHost (s : ResourceLoadScheduler L) (host : HostInformation L)
    (name : HostName) :
    (s.setHost host).hostNamed name = if name = host.name then some host else s.hostNamed name := by
  unfold setHost
  split
  -- the host for all other protocols
  · next hname =>
    cases name with
    | none => exact (if_pos hname.symm).symm
    | some name => exact (if_neg (hname ▸ Option.some_ne_none _)).symm
  -- a host with a name of its own
  · next n hname =>
    cases name with
    | none => exact (if_neg (hname ▸ (Option.some_ne_none _).symm)).symm
    | some name =>
      by_cases h : name = n
      · subst h
        exact (AList.lookup_insert _).trans (if_pos hname.symm).symm
      · have hne : some name ≠ host.name := fun heq => h (Option.some.inj (heq.trans hname))
        exact (AList.lookup_insert_ne h).trans (if_neg hne).symm

/-- A host that is deleted is not found, and the others stay. -/
theorem hostNamed_deleteHost (s : ResourceLoadScheduler L) (n : StdString) (name : HostName) :
    (s.deleteHost n).hostNamed name = if name = some n then none else s.hostNamed name := by
  cases name with
  | none => rfl
  | some name =>
    by_cases h : name = n
    · subst h
      rw [if_pos rfl]
      exact AList.lookup_erase _ _
    · rw [if_neg (mt Option.some.inj h)]
      exact AList.lookup_erase_ne h

/-- What no change of the hosts touches. -/
structure Frame (s s' : ResourceLoadScheduler L) : Prop where
  count : s'.suspendPendingRequestsCount = s.suspendPendingRequestsCount
  serial : s'.isSerialLoadingEnabled = s.isSerialLoadingEnabled
  depth : s'.attachDepth = s.attachDepth
  url : s'.url = s.url
  documentHolds : s'.documentHolds = s.documentHolds

theorem Frame.refl (s : ResourceLoadScheduler L) : Frame s s := ⟨rfl, rfl, rfl, rfl, rfl⟩

theorem Frame.trans {s t u : ResourceLoadScheduler L} (h : Frame s t) (h' : Frame t u) :
    Frame s u :=
  ⟨h'.count.trans h.count, h'.serial.trans h.serial, h'.depth.trans h.depth,
    h'.url.trans h.url, h'.documentHolds.trans h.documentHolds⟩

/-- Storing a host touches nothing but the hosts. -/
theorem frame_setHost (s : ResourceLoadScheduler L) (host : HostInformation L) :
    Frame s (s.setHost host) := by
  unfold setHost
  split <;> exact ⟨rfl, rfl, rfl, rfl, rfl⟩

/-- Storing a host starts no load. -/
theorem started_setHost (s : ResourceLoadScheduler L) (host : HostInformation L) :
    (s.setHost host).started = s.started := by
  unfold setHost
  split <;> rfl

variable [DecidableEq L]

/-! ## What the scheduler is for -/

/-- The host of a URL. -/
def hostName (url : KURL) : HostName :=
  if url.protocolIsInHTTPFamily then some url.host else none

/-- How many requests of a host are in flight at a time. -/
def capacity (name : HostName) : Nat :=
  if name.isSome then maxRequestsInFlightPerHost else maxRequestsInFlightForNonHTTPProtocols

/-- Requests for loads, and the loads in progress, at each host. -/
abbrev LoadAdmission (L : Type) := Admission HostName ResourceLoadPriority L

/-- A load has to wait while so many loads are in progress at its host; one of the lowest
    priority waits for all of them. -/
def Waits (isSerialLoadingEnabled : Bool) (documentHolds : L → Bool)
    (r : Admission.Request HostName ResourceLoadPriority L) (active : Finset L) : Prop :=
  (r.key.isSome = true ∨ documentHolds r.client = true) ∧
    (r.priority = .veryLow ∧ active.card ≠ 0 ∨
      (if isSerialLoadingEnabled then 1 else capacity r.key) ≤ active.card)

/-- The loads of a page. -/
structure Loads (L : Type) where
  admission : LoadAdmission L
  isSerialLoadingEnabled : Bool
  documentHolds : L → Bool
  attachDepth : Nat

namespace Loads

def waits (a : Loads L) (r : Admission.Request HostName ResourceLoadPriority L)
    (active : Finset L) : Prop :=
  Waits a.isSerialLoadingEnabled a.documentHolds r active

/-- Loads begin until no more can, unless nodes are being attached. -/
def Serves (a a' : Loads L) : Prop :=
  if a.attachDepth = 0 then
    ∃ admission, Admission.Serves a.waits a.admission admission ∧
      a' = { a with admission := admission }
  else a' = a

/-- What a step means. A load that arrives is new, and one that moves is in progress. -/
def Step (a : Loads L) (label : Label L) (a' : Loads L) : Prop :=
  match label with
  | .scheduleLoad l url priority archived _ =>
    a.admission.Idle l ∧
      if archived then a' = a
      else Serves { a with admission := a.admission.arrive ⟨hostName url, priority, l⟩ } a'
  | .addMainResourceLoad l url =>
    a.admission.Idle l ∧ a' = { a with admission := a.admission.occupy (hostName url) l }
  | .remove l _ => Serves { a with admission := a.admission.leave l } a'
  | .redirect l url =>
    (∃ name, l ∈ a.admission.activeAt name) ∧
      a' = { a with admission := a.admission.move l (hostName url) }
  | .suspendPostAttachCallbacks => a' = { a with attachDepth := a.attachDepth + 1 }
  | .resumePostAttachCallbacks _ =>
    a.attachDepth ≠ 0 ∧ Serves { a with attachDepth := a.attachDepth - 1 } a'
  | .servePendingRequests _ => Serves a a'
  | .setSerialLoadingEnabled b => a' = { a with isSerialLoadingEnabled := b }
  | .documents documentHolds => a' = { a with documentHolds := documentHolds }

/-- The runs of `Loads`. -/
def system (documentHolds : L → Bool) : Lts (Loads L) (Label L) where
  init a := a = ⟨⟨[], ∅, []⟩, false, documentHolds, 0⟩
  step := Step

end Loads

/-! ## What the hosts show -/

/-- The request behind a load that has started. -/
def toRequest (l : StartedLoad L) : Admission.Request HostName ResourceLoadPriority L :=
  ⟨l.host, l.priority, l.resourceLoader⟩

/-- The host has the requests and the loads that `a` has there. -/
structure View (a : LoadAdmission L) (host : HostInformation L) : Prop where
  pending : ∀ p, a.queue host.name p = host.requestsPending p
  loading : a.activeAt host.name = host.requestsLoading
  capacity : host.maxRequestsInFlight = capacity host.name

/-- `a` has nothing at a host. -/
structure Absent (a : LoadAdmission L) (name : HostName) : Prop where
  pending : ∀ p, a.queue name p = []
  loading : a.activeAt name = ∅

/-- The hosts of the scheduler, and what it has started, are those of `a`. -/
structure Shows (s : ResourceLoadScheduler L) (a : LoadAdmission L) : Prop where
  host : ∀ {name host}, s.hostNamed name = some host → View a host
  absent : ∀ {name}, s.hostNamed name = none → Absent a name
  started : a.begun = s.started.map toRequest

/-- A host shows what is at its name, and nothing else. -/
theorem View.congr {a a' : LoadAdmission L} {host : HostInformation L} (h : View a host)
    (hsame : a.SameAt a' host.name) : View a' host :=
  ⟨fun p => (hsame.1 p).trans (h.pending p), hsame.2.trans h.loading, h.capacity⟩

/-- A name without a host depends on what is at that name alone. -/
theorem Absent.congr {a a' : LoadAdmission L} {name : HostName} (h : Absent a name)
    (hsame : a.SameAt a' name) : Absent a' name :=
  ⟨fun p => (hsame.1 p).trans (h.pending p), hsame.2.trans h.loading⟩

/-- Nothing can begin where nothing waits. -/
theorem settledAt_of_pending {a : LoadAdmission L} {name : HostName}
    {waits : Admission.Request HostName ResourceLoadPriority L → Finset L → Prop}
    (h : ∀ p, a.queue name p = []) : a.SettledAt waits name := by
  rintro r rfl hnext
  have hhead := hnext.head
  rw [h] at hhead
  exact absurd hhead (Option.some_ne_none _).symm

/-- One host changes, and `a` with it. -/
theorem Shows.of_setHost {s t : ResourceLoadScheduler L} {a a' : LoadAdmission L}
    {host : HostInformation L} (h : Shows s a)
    (ht : ∀ name, t.hostNamed name = (s.setHost host).hostNamed name) (hview : View a' host)
    (hsame : ∀ name, name ≠ host.name → a.SameAt a' name)
    (hstarted : a'.begun = t.started.map toRequest) : Shows t a' := by
  constructor
  · intro name host' hhost
    rw [ht, hostNamed_setHost] at hhost
    split at hhost
    · rw [← Option.some.inj hhost]
      exact hview
    · next hne => exact (h.host hhost).congr (hsame _ (hostNamed_name hhost ▸ hne))
  · intro name hhost
    rw [ht, hostNamed_setHost] at hhost
    split at hhost
    · exact absurd hhost (Option.some_ne_none _)
    · next hne => exact (h.absent hhost).congr (hsame _ hne)
  · exact hstarted

/-- A host is stored that shows the new state of its name. -/
theorem Shows.setHost {s : ResourceLoadScheduler L} {a a' : LoadAdmission L}
    {host : HostInformation L} (h : Shows s a) (hview : View a' host)
    (hsame : ∀ name, name ≠ host.name → a.SameAt a' name) (hbegun : a'.begun = a.begun) :
    Shows (s.setHost host) a' :=
  h.of_setHost (fun _ => rfl) hview hsame (by rw [hbegun, h.started, started_setHost])

/-! ## Serving one host -/

/-- Priorities are ordered linearly. -/
theorem lt_of_ne_of_not_lt {p q : ResourceLoadPriority} (hne : p ≠ q) (h : ¬q < p) : p < q := by
  have htoNat : p.toNat ≠ q.toNat := by
    intro heq
    cases p <;> cases q <;> first | exact hne rfl | exact absurd heq (by decide)
  exact Nat.lt_of_le_of_ne (Nat.not_lt.mp h) htoNat

/-- A load of a host, when its turn has come, has to wait exactly if the host limits it. -/
theorem View.waits_iff {s : ResourceLoadScheduler L} {a : LoadAdmission L}
    {host : HostInformation L} (h : View a host) (priority : ResourceLoadPriority) (l : L) :
    Waits s.isSerialLoadingEnabled s.documentHolds ⟨host.name, priority, l⟩
        (a.activeAt host.name) ↔
      (s.shouldLimitRequests host l &&
        host.limitRequests s.isSerialLoadingEnabled priority) = true := by
  rw [Waits, h.loading, ← h.capacity, shouldLimitRequests, HostInformation.limitRequests,
    Bool.and_eq_true, Bool.or_eq_true]
  refine and_congr_right fun _ => ?_
  by_cases hlow : priority = .veryLow ∧ host.requestsLoading.card ≠ 0
  · rw [if_pos hlow]
    exact iff_of_true (.inl hlow) rfl
  · rw [if_neg hlow, decide_eq_true_eq, or_iff_right hlow]

omit [DecidableEq L] in
/-- One queue of the host changes. -/
theorem pending_update {a : LoadAdmission L} (host : HostInformation L)
    {priority : ResourceLoadPriority} {pending : List L}
    (hqueue : a.queue host.name priority = pending)
    (hother : ∀ p, p ≠ priority → a.queue host.name p = host.requestsPending p)
    (p : ResourceLoadPriority) :
    a.queue host.name p = Function.update host.requestsPending priority pending p :=
  congrFun (Function.eq_update_iff.mpr ⟨hqueue, hother⟩) p

/-- The first load of a queue begins. -/
theorem View.take {a : LoadAdmission L} {host : HostInformation L} (h : View a host)
    {priority : ResourceLoadPriority} {l : L} {pending : List L}
    (hpending : a.queue host.name priority = l :: pending) :
    View (a.take ⟨host.name, priority, l⟩)
      ((host.setPending priority pending).addLoadInProgress l) where
  pending := by
    refine pending_update host ?_ fun p hp => ?_
    · rw [Admission.queue_take hpending, if_pos ⟨rfl, rfl⟩]
    · rw [Admission.queue_take hpending, if_neg fun hboth => hp hboth.2.symm, h.pending]
  loading := by
    have htake := Admission.activeAt_take a ⟨host.name, priority, l⟩ host.name
    rw [if_pos rfl, h.loading] at htake
    exact htake
  capacity := h.capacity

/-- What serving a host has come to: `a'`, with the loads that have started. -/
structure Served (s : ResourceLoadScheduler L) (a a' : LoadAdmission L)
    (host host' : HostInformation L) (started : List (StartedLoad L)) : Prop where
  begins : Relation.ReflTransGen
    (Admission.BeginsAt (Waits s.isSerialLoadingEnabled s.documentHolds) host.name) a a'
  view : View a' host'
  name : host'.name = host.name
  started : a'.begun = a.begun ++ started.map toRequest

/-- Serving a host twice is serving it once with both results. -/
theorem Served.trans {s : ResourceLoadScheduler L} {a b c : LoadAdmission L}
    {host host' host'' : HostInformation L} {started more : List (StartedLoad L)}
    (h : Served s a b host host' started) (h' : Served s b c host' host'' more) :
    Served s a c host host'' (started ++ more) where
  begins := h.begins.trans (h.name ▸ h'.begins)
  view := h'.view
  name := h'.name.trans h.name
  started := by rw [h'.started, h.started, List.map_append, List.append_assoc]

/-- By induction on the queue: while no load of a higher priority waits, its loads begin, one after
    the other, up to the first one that has to wait. -/
theorem servePriority_spec (s : ResourceLoadScheduler L) (priority : ResourceLoadPriority)
    {a : LoadAdmission L} {pending : List L} {host : HostInformation L} (hview : View a host)
    (hpending : host.requestsPending priority = pending)
    (habove : ∀ p, priority < p → a.queue host.name p = []) :
    ∃ a', Served s a a' host (s.servePriority priority pending host).1
        (s.servePriority priority pending host).2.1 ∧
      (∀ p, p ≠ priority → a'.queue host.name p = a.queue host.name p) ∧
      if (s.servePriority priority pending host).2.2 = true then
        a'.SettledAt (Waits s.isSerialLoadingEnabled s.documentHolds) host.name
      else a'.queue host.name priority = [] := by
  induction pending generalizing a host with
  | nil =>
    refine ⟨a, ⟨.refl, hview, rfl, (List.append_nil _).symm⟩, fun _ _ => rfl, ?_⟩
    rw [servePriority, if_neg Bool.false_ne_true, hview.pending, hpending]
  | cons l pending ih =>
    have hqueue : a.queue host.name priority = l :: pending := (hview.pending _).trans hpending
    rw [servePriority]
    split
    · next hlimit =>
      refine ⟨a, ⟨.refl, hview, rfl, (List.append_nil _).symm⟩, fun _ _ => rfl, ?_⟩
      rw [if_pos rfl]
      rintro ⟨_, p, l'⟩ rfl hnext
      -- the next load is the first one of this queue
      have hhead := hnext.head
      by_cases hp : p = priority
      · subst hp
        rw [hqueue, List.head?_cons, Option.some.injEq] at hhead
        subst hhead
        exact (hview.waits_iff p l).mpr hlimit
      · by_cases hlt : priority < p
        · rw [habove p hlt] at hhead
          exact absurd hhead (Option.some_ne_none _).symm
        · have hempty := hnext.above priority (lt_of_ne_of_not_lt hp hlt)
          rw [hqueue] at hempty
          exact absurd hempty (List.cons_ne_nil _ _)
    · next hlimit =>
      have hnext : a.Next ⟨host.name, priority, l⟩ := ⟨by rw [hqueue]; rfl, habove⟩
      have hbegins : Admission.BeginsAt (Waits s.isSerialLoadingEnabled s.documentHolds)
          host.name a (a.take ⟨host.name, priority, l⟩) :=
        ⟨_, rfl, hnext, fun hwaits => hlimit ((hview.waits_iff priority l).mp hwaits), rfl⟩
      have hother : ∀ p, p ≠ priority →
          (a.take ⟨host.name, priority, l⟩).queue host.name p = a.queue host.name p := by
        intro p hp
        rw [Admission.queue_take hqueue, if_neg fun h => hp h.2.symm]
      obtain ⟨a', hserved, hsame, hend⟩ := ih (hview.take hqueue)
        (Function.update_self _ _ _) fun p hp => by
          have hne : p ≠ priority := by
            rintro rfl
            exact absurd hp (Nat.lt_irrefl _)
          exact (hother p hne).trans (habove p hp)
      refine ⟨a', ⟨.head hbegins hserved.begins, hserved.view, hserved.name, ?_⟩,
        fun p hp => (hsame p hp).trans (hother p hp), hend⟩
      rw [hserved.started, Admission.take, List.map_cons, List.append_assoc]
      rfl

/-- By induction on the priorities, highest first: those that have been passed have no load
    left. -/
theorem servePriorities_spec (s : ResourceLoadScheduler L) {priorities : List ResourceLoadPriority}
    (hsorted : priorities.Pairwise fun p q => q < p) {a : LoadAdmission L}
    {host : HostInformation L} (hview : View a host)
    (hpassed : ∀ p, p ∉ priorities → a.queue host.name p = []) :
    ∃ a', Served s a a' host (s.servePriorities priorities host).1
        (s.servePriorities priorities host).2 ∧
      a'.SettledAt (Waits s.isSerialLoadingEnabled s.documentHolds) host.name := by
  induction priorities generalizing a host with
  | nil =>
    -- all priorities are passed, so nothing waits
    exact ⟨a, ⟨.refl, hview, rfl, (List.append_nil _).symm⟩,
      settledAt_of_pending fun p => hpassed p List.not_mem_nil⟩
  | cons priority priorities ih =>
    -- one priority, then the rest
    obtain ⟨hbelow, hsorted⟩ := List.pairwise_cons.mp hsorted
    obtain ⟨a₁, hserved, hsame, hend⟩ := servePriority_spec s priority hview rfl fun p hp =>
      hpassed p fun hmem => by
        rcases List.mem_cons.mp hmem with rfl | hmem
        · -- what is passed is above this priority and above the rest
          exact absurd hp (Nat.lt_irrefl _)
        · exact absurd (hbelow p hmem) (Nat.lt_asymm hp)
    rw [servePriorities]
    cases hloop : s.servePriority priority (host.requestsPending priority) host with
    | mk host₁ result =>
    obtain ⟨started, limited⟩ := result
    rw [hloop] at hserved hend
    dsimp only at hserved hend ⊢
    split
    · next hlimited =>
      -- the limit is reached: what waits at this priority waits for a place
      rw [if_pos hlimited] at hend
      exact ⟨a₁, hserved, hend⟩
    -- otherwise the loop goes on, and this priority is passed
    · next hlimited =>
      rw [if_neg hlimited] at hend
      obtain ⟨a', hserved', hsettled⟩ := ih hsorted hserved.view fun p hp => by
        rw [hserved.name]
        by_cases heq : p = priority
        · -- nothing is left of the priority that was served
          exact heq ▸ hend
        · -- nothing has changed at those that were passed before
          exact (hsame p heq).trans (hpassed p (mt List.mem_cons.mp (not_or.mpr ⟨heq, hp⟩)))
      exact ⟨a', hserved.trans hserved', hserved.name ▸ hsettled⟩

/-- The loop goes from the highest priority down. -/
theorem downTo_veryLow_pairwise :
    (ResourceLoadPriority.downTo .veryLow).Pairwise fun p q => q < p := by decide

/-- The loop goes through all priorities. -/
theorem mem_downTo_veryLow (p : ResourceLoadPriority) :
    p ∈ ResourceLoadPriority.downTo .veryLow := by cases p <;> decide

/-- Serving the host `name`: loads of that host begin until none can. -/
structure ServesAt (name : HostName) (s s' : ResourceLoadScheduler L) (a a' : LoadAdmission L) :
    Prop where
  begins : Relation.ReflTransGen
    (Admission.BeginsAt (Waits s.isSerialLoadingEnabled s.documentHolds) name) a a'
  settled : a'.SettledAt (Waits s.isSerialLoadingEnabled s.documentHolds) name
  shows : Shows s' a'
  frame : Frame s s'

/-- Serving a host serves the requests that wait for its name. -/
theorem serveHost_spec {s : ResourceLoadScheduler L} {a : LoadAdmission L} (h : Shows s a)
    {name : HostName} {host : HostInformation L} (hhost : s.hostNamed name = some host) :
    ∃ a', ServesAt name s (s.serveHost host .veryLow) a a' := by
  obtain ⟨a', hserved, hsettled⟩ := servePriorities_spec s downTo_veryLow_pairwise (h.host hhost)
    fun p hp => absurd (mem_downTo_veryLow p) hp
  rw [hostNamed_name hhost] at hsettled
  refine ⟨a', hostNamed_name hhost ▸ hserved.begins, hsettled, ?_, ?_⟩
  · refine h.of_setHost (fun name' => ?_) hserved.view (fun name' hne => ?_) ?_
    · cases name' <;> rfl
    · exact Admission.sameAt_of_beginsAt hserved.begins (hserved.name ▸ hne)
    · rw [hserved.started, h.started, ← List.map_append, ← started_setHost s]
      rfl
  · exact (frame_setHost s _).trans ⟨rfl, rfl, rfl, rfl, rfl⟩

/-! ## Serving all hosts -/

/-- A host without requests shows that nothing is at its name. -/
theorem View.absent {a : LoadAdmission L} {host : HostInformation L} (h : View a host)
    (hrequests : host.hasRequests = false) : Absent a host.name := by
  rw [HostInformation.hasRequests, Bool.or_eq_false_iff, decide_eq_false_iff_not, not_not,
    List.any_eq_false] at hrequests
  constructor
  · intro p
    have hempty := hrequests.2 p (mem_downTo_veryLow p)
    rw [Bool.not_eq_true', Bool.not_eq_false, List.isEmpty_iff] at hempty
    exact (h.pending p).trans hempty
  · exact h.loading.trans (Finset.card_eq_zero.mp hrequests.1)

/-- A host that is deleted has nothing. -/
theorem Shows.deleteHost {s : ResourceLoadScheduler L} {a : LoadAdmission L} (h : Shows s a)
    {n : StdString} (habsent : Absent a (some n)) : Shows (s.deleteHost n) a := by
  constructor
  · intro name host hhost
    rw [hostNamed_deleteHost] at hhost
    split at hhost
    · exact absurd hhost (Option.some_ne_none _).symm
    · exact h.host hhost
  · intro name hhost
    rw [hostNamed_deleteHost] at hhost
    split at hhost
    · next hname => exact hname ▸ habsent
    · exact h.absent hhost
  · exact h.started

/-- Serving by name serves what waits there, and deletes a host that is left without requests. -/
theorem serveNamed_spec {s : ResourceLoadScheduler L} {a : LoadAdmission L} (h : Shows s a)
    (n : StdString) : ∃ a', ServesAt (some n) s (serveNamed .veryLow s n) a a' := by
  unfold serveNamed
  split
  -- a name without a host has no requests
  · next hnone =>
    have habsent : Absent a (some n) := h.absent hnone
    exact ⟨a, .refl, settledAt_of_pending habsent.pending, h, .refl s⟩
  · next host hhost =>
    have hnamed : s.hostNamed (some n) = some host := hhost
    split
    · -- the host has requests
      exact serveHost_spec h hnamed
    -- a host without requests is deleted, and the name looks as before
    · next hrequests =>
      have habsent := (h.host hnamed).absent (Bool.eq_false_iff.mpr hrequests)
      rw [s.named n host hhost] at habsent
      exact ⟨a, .refl, settledAt_of_pending habsent.pending, h.deleteHost habsent,
        ⟨rfl, rfl, rfl, rfl, rfl⟩⟩

/-- By induction on the order: serving a host leaves what the others have, so those that have been
    served stay settled. -/
theorem serveNamed_foldl_spec {order : List StdString} (hnodup : order.Nodup)
    {s : ResourceLoadScheduler L} {a : LoadAdmission L} (h : Shows s a) :
    ∃ a', Relation.ReflTransGen
        (Admission.Begins (Waits s.isSerialLoadingEnabled s.documentHolds)) a a' ∧
      (∀ n ∈ order, a'.SettledAt (Waits s.isSerialLoadingEnabled s.documentHolds) (some n)) ∧
      (∀ name, name ∉ order.map some → a.SameAt a' name) ∧
      Shows (order.foldl (serveNamed .veryLow) s) a' ∧
      Frame s (order.foldl (serveNamed .veryLow) s) := by
  -- the induction is on the names, each of which is served once
  induction order generalizing s a with
  | nil =>
    exact ⟨a, .refl, List.forall_mem_nil _, fun name _ => .refl a name, h, .refl s⟩
  | cons n order ih =>
    obtain ⟨hn, hnodup⟩ := List.nodup_cons.mp hnodup
    obtain ⟨a₁, hserved⟩ := serveNamed_spec h n
    obtain ⟨a', hbegins, hsettled, hsame, hshows, hframe⟩ := ih hnodup hserved.shows
    rw [hserved.frame.serial, hserved.frame.documentHolds] at hbegins hsettled
    refine ⟨a', (Admission.begins_of_beginsAt hserved.begins).trans hbegins, ?_, ?_, hshows,
      hserved.frame.trans hframe⟩
    · -- the first name stays settled while the others are served
      refine List.forall_mem_cons.mpr ⟨hserved.settled.congr (hsame _ fun hmem => ?_), hsettled⟩
      exact hn ((List.mem_map_of_injective (Option.some_injective _)).mp hmem)
    · -- a name that is not listed is touched by none of them
      intro name hname
      rw [List.map_cons, List.mem_cons, not_or] at hname
      exact (Admission.sameAt_of_beginsAt hserved.begins hname.1).trans (hsame name hname.2)

/-- Serving lets loads begin until every load that waits has to. -/
theorem servePendingRequests_spec {s s' : ResourceLoadScheduler L} {a : LoadAdmission L}
    (h : Shows s a) (hcount : s.suspendPendingRequestsCount = 0) {order : List StdString}
    (hserve : s.servePendingRequests order .veryLow = some s') :
    ∃ a', Admission.Serves (Waits s.isSerialLoadingEnabled s.documentHolds) a a' ∧
      Shows s' a' ∧ Frame s s' := by
  rw [servePendingRequests, if_pos hcount, Option.ite_none_right_eq_some] at hserve
  obtain ⟨hperm, hserve⟩ := hserve
  rw [Option.some.injEq] at hserve
  subst hserve
  have hnone : s.hostNamed none = some s.nonHTTPProtocolHost := rfl
  obtain ⟨a₁, hserved⟩ := serveHost_spec h hnone
  obtain ⟨a', hbegins, hsettled, hsame, hshows, hframe⟩ := serveNamed_foldl_spec
    (hperm.nodup_iff.mpr (AList.keys_nodup _)) hserved.shows
  rw [hserved.frame.serial, hserved.frame.documentHolds] at hbegins hsettled
  refine ⟨a', ⟨(Admission.begins_of_beginsAt hserved.begins).trans hbegins, ?_⟩, hshows,
    hserved.frame.trans hframe⟩
  intro name
  by_cases hname : name ∈ order.map some
  · obtain ⟨n, hn, rfl⟩ := List.mem_map.mp hname
    exact hsettled n hn
  · refine Admission.SettledAt.congr (hsame name hname) ?_
    cases name with
    | none => exact hserved.settled
    | some n =>
      -- the map has no such host
      refine settledAt_of_pending (hserved.shows.absent ?_).pending
      refine AList.lookup_eq_none.mpr fun hmem => hname (List.mem_map_of_mem ?_)
      exact hperm.mem_iff.mpr (AList.mem_keys.mp hmem)

/-! ## The places of the loads -/

/-- The scheduler and `a` agree: each load has one place at most, at the host of its URL. -/
structure Agrees (s : ResourceLoadScheduler L) (a : LoadAdmission L) : Prop where
  shows : Shows s a
  single : a.Single
  placed : ∀ {name l}, a.PlacedAt name l → name = hostName (s.url l)

/-- Serving all hosts serves all requests, whatever the order in which they are served. -/
theorem Agrees.serve {s s' : ResourceLoadScheduler L} {a : LoadAdmission L} (h : Agrees s a)
    (hcount : s.suspendPendingRequestsCount = 0) {order : List StdString}
    (hserve : s.servePendingRequests order .veryLow = some s') :
    ∃ a', Admission.Serves (Waits s.isSerialLoadingEnabled s.documentHolds) a a' ∧
      Agrees s' a' ∧ Frame s s' := by
  obtain ⟨a', hserves, hshows, hframe⟩ := servePendingRequests_spec h.shows hcount hserve
  refine ⟨a', hserves, ⟨hshows, ?_, ?_⟩, hframe⟩
  · exact hserves.induct (fun _ r hnext hsingle => hsingle.take hnext.mem) h.single
  · rw [hframe.url]
    refine hserves.induct (P := fun a => ∀ {name l}, a.PlacedAt name l →
      name = hostName (s.url l)) (fun a r hnext hplaced name l hl => ?_) h.placed
    exact hplaced ((Admission.placedAt_take hnext.mem).mp hl)

/-- The host object that `hostForURL` returns, when it makes one. -/
theorem hostForURL_createIfNotFound {s : ResourceLoadScheduler L} {a : LoadAdmission L}
    (h : Shows s a) (url : KURL) :
    ∃ s₁ host, s.hostForURL url .createIfNotFound = (s₁, some host) ∧
      s₁.hostNamed (hostName url) = some host ∧ Shows s₁ a ∧ Frame s s₁ ∧
      ∀ name, name ≠ hostName url → s₁.hostNamed name = s.hostNamed name := by
  unfold hostForURL hostName
  split
  · cases hhost : s.hosts.lookup url.host with
    | some host => exact ⟨s, host, rfl, hhost, h, .refl s, fun _ _ => rfl⟩
    | none =>
      have habsent : Absent a (some url.host) := h.absent hhost
      have hview : View a (.make (some url.host) maxRequestsInFlightPerHost) :=
        ⟨habsent.pending, habsent.loading, rfl⟩
      refine ⟨s.setHost _, _, rfl, ?_, ?_, frame_setHost s _, fun name hne => ?_⟩
      · exact (hostNamed_setHost s _ _).trans (if_pos rfl)
      · exact h.setHost hview (fun name _ => .refl a name) rfl
      · exact (hostNamed_setHost s _ name).trans (if_neg hne)
  · exact ⟨s, _, rfl, rfl, h, .refl s, fun _ _ => rfl⟩

omit [DecidableEq L] in
/-- Looking for a host changes nothing. -/
theorem hostForURL_findOnly (s : ResourceLoadScheduler L) (url : KURL) :
    s.hostForURL url .findOnly = (s, s.hostNamed (hostName url)) := by
  unfold hostForURL hostName
  split
  · cases hhost : s.hosts.lookup url.host with
    | none => exact Prod.ext rfl hhost.symm
    | some host => exact Prod.ext rfl hhost.symm
  · rfl

/-! ## Operations on a host -/

/-- A load is removed from its host, which keeps its name. -/
theorem remove_name (host : HostInformation L) (l : L) : (host.remove l).name = host.name := by
  unfold HostInformation.remove
  split
  · rfl
  · split <;> rfl

/-- A load is removed from those that the host is loading. -/
theorem remove_requestsLoading (host : HostInformation L) (l : L) :
    (host.remove l).requestsLoading = host.requestsLoading.erase l := by
  unfold HostInformation.remove
  split
  · rfl
  · next h =>
    rw [Finset.erase_eq_of_notMem h]
    split <;> rfl

/-- A loader that is in one queue of the host at most is gone from all of them. -/
theorem remove_requestsPending {host : HostInformation L} {l : L}
    (hnodup : ∀ p, (host.requestsPending p).Nodup)
    (honly : ∀ p q, l ∈ host.requestsPending p → l ∈ host.requestsPending q → p = q)
    (hapart : l ∈ host.requestsLoading → ∀ p, l ∉ host.requestsPending p)
    (p : ResourceLoadPriority) :
    (host.remove l).requestsPending p = (host.requestsPending p).filter fun y => y ≠ l := by
  -- a load that does not wait at a priority cannot be taken out there
  have hkeep : l ∉ host.requestsPending p →
      host.requestsPending p = (host.requestsPending p).filter fun y => y ≠ l := by
    intro h
    refine (List.filter_eq_self.mpr fun y hy => ?_).symm
    rw [decide_eq_true_eq]
    rintro rfl
    exact h hy
  unfold HostInformation.remove
  split
  -- a load in progress waits nowhere
  · next hloading => exact hkeep (hapart hloading p)
  · -- otherwise it is looked for from the highest priority down
    split
    · next hnone =>
      rw [List.find?_eq_none] at hnone
      exact hkeep fun hmem => hnone p (mem_downTo_veryLow p) (decide_eq_true hmem)
    · next q hfind =>
      have hq := List.find?_some hfind
      rw [decide_eq_true_eq] at hq
      by_cases hp : p = q
      · -- it waits where it is found, once
        subst hp
        refine (Function.update_self _ _ _).trans ?_
        rw [(hnodup p).erase_eq_filter]
        exact List.filter_congr fun y _ => by by_cases hy : y = l <;> simp [hy]
      · -- it waits at no other priority
        refine (Function.update_of_ne hp _ _).trans (hkeep fun hmem => hp (honly p q hmem hq))

/-- A load is removed from its host, which keeps its limit. -/
theorem remove_maxRequestsInFlight (host : HostInformation L) (l : L) :
    (host.remove l).maxRequestsInFlight = host.maxRequestsInFlight := by
  unfold HostInformation.remove
  split
  · rfl
  · split <;> rfl

/-- Scheduling at a host lets a request arrive at its name. -/
theorem View.schedule {a : LoadAdmission L} {host : HostInformation L} (h : View a host) (l : L)
    (priority : ResourceLoadPriority) :
    View (a.arrive ⟨host.name, priority, l⟩) (host.schedule l priority) where
  pending := by
    refine pending_update host ?_ fun p hp => ?_
    · rw [Admission.queue_arrive, if_pos ⟨rfl, rfl⟩, h.pending]
    · rw [Admission.queue_arrive, if_neg fun hboth => hp hboth.2.symm, h.pending]
  loading := h.loading
  capacity := h.capacity

/-- A load in progress occupies a place at the name of its host. -/
theorem View.addLoadInProgress {a : LoadAdmission L} {host : HostInformation L} (h : View a host)
    (l : L) : View (a.occupy host.name l) (host.addLoadInProgress l) where
  pending := h.pending
  loading := by
    have hactive := a.activeAt_occupy host.name host.name l
    rw [if_pos rfl, h.loading] at hactive
    exact hactive
  capacity := h.capacity

/-- Whatever `a` keeps of the host, less the loader. -/
theorem View.remove {a a' : LoadAdmission L} {host : HostInformation L} (h : View a host)
    (hsingle : a.Single) {l : L}
    (hqueue : ∀ p, a'.queue host.name p = (a.queue host.name p).filter fun y => y ≠ l)
    (hactive : a'.activeAt host.name = (a.activeAt host.name).erase l) :
    View a' (host.remove l) where
  pending p := by
    rw [remove_name, hqueue, h.pending]
    refine (remove_requestsPending (fun q => ?_) (fun p q hp hq => ?_) (fun hl q hq => ?_) p).symm
    · rw [← h.pending]
      exact hsingle.queue_nodup _ _
    · rw [← h.pending] at hp hq
      exact congrArg Admission.Request.priority
        (hsingle.eq_of_mem (Admission.mem_queue.mp hp) (Admission.mem_queue.mp hq) rfl)
    · rw [← h.pending] at hq
      rw [← h.loading] at hl
      exact hsingle.apart (Admission.mem_queue.mp hq) _ (Admission.mem_activeAt.mp hl)
  loading := by rw [remove_name, hactive, h.loading, remove_requestsLoading]
  capacity := by rw [remove_name, remove_maxRequestsInFlight, h.capacity]

/-! ## Operations of the scheduler -/

/-- What a state shows depends on its hosts and its started loads. -/
theorem Shows.congr {s t : ResourceLoadScheduler L} {a a' : LoadAdmission L} (h : Shows s a)
    (ht : ∀ name, t.hostNamed name = s.hostNamed name) (hstarted : t.started = s.started)
    (hsame : ∀ name, a.SameAt a' name) (hbegun : a'.begun = a.begun) : Shows t a' where
  host hhost := (h.host (ht _ ▸ hhost)).congr (hsame _)
  absent hhost := (h.absent (ht _ ▸ hhost)).congr (hsame _)
  started := by rw [hbegun, h.started, hstarted]

/-- Neither the hosts nor the URLs change. -/
theorem Agrees.congr {s t : ResourceLoadScheduler L} {a : LoadAdmission L} (h : Agrees s a)
    (ht : ∀ name, t.hostNamed name = s.hostNamed name) (hstarted : t.started = s.started)
    (hurl : t.url = s.url) : Agrees t a where
  shows := h.shows.congr ht hstarted (.refl a) rfl
  single := h.single
  placed hl := by
    rw [hurl]
    exact h.placed hl

/-- The URL of a loader without a place is set. -/
theorem Agrees.setURL {s : ResourceLoadScheduler L} {a : LoadAdmission L} (h : Agrees s a) {l : L}
    (hidle : a.Idle l) (url : KURL) : Agrees (s.setURL l url) a where
  shows := h.shows.congr (fun name => by cases name <;> rfl) rfl (.refl a) rfl
  single := h.single
  placed {name l'} hl' := by
    have hne : l' ≠ l := fun heq => hidle name (heq ▸ hl')
    have hurl : Function.update s.url l url l' = s.url l' := Function.update_of_ne hne url s.url
    calc name = hostName (s.url l') := h.placed hl'
      _ = hostName (Function.update s.url l url l') := by rw [hurl]

/-- A new loader comes to wait at the host of its URL. -/
theorem Agrees.schedule {s : ResourceLoadScheduler L} {a : LoadAdmission L} (h : Agrees s a) {l : L}
    (hidle : a.Idle l) (priority : ResourceLoadPriority) :
    ∃ s₁ host, s.hostForURL (s.url l) .createIfNotFound = (s₁, some host) ∧
      Agrees (s₁.setHost (host.schedule l priority))
        (a.arrive ⟨hostName (s.url l), priority, l⟩) ∧
      Frame s (s₁.setHost (host.schedule l priority)) := by
  obtain ⟨s₁, host, heq, hhost, hshows, hframe, -⟩ := hostForURL_createIfNotFound h.shows (s.url l)
  have hname := hostNamed_name hhost
  have hframe' := hframe.trans (frame_setHost s₁ (host.schedule l priority))
  refine ⟨s₁, host, heq, ⟨?_, h.single.arrive hidle, ?_⟩, hframe'⟩
  · have hview := (hshows.host hhost).schedule l priority
    rw [hname] at hview
    exact hshows.setHost hview (fun name hne => Admission.sameAt_arrive (hname ▸ hne)) rfl
  · intro name l' hl'
    rw [hframe'.url]
    rcases Admission.placedAt_arrive.mp hl' with hl' | ⟨rfl, rfl⟩
    · exact h.placed hl'
    · rfl

/-- A new loader takes a place at the host of its URL. -/
theorem Agrees.addLoadInProgress {s : ResourceLoadScheduler L} {a : LoadAdmission L}
    (h : Agrees s a) {l : L} (hidle : a.Idle l) :
    ∃ s', s.addMainResourceLoad l = some s' ∧ Agrees s' (a.occupy (hostName (s.url l)) l) ∧
      Frame s s' := by
  -- the host is found or made
  obtain ⟨s₁, host, heq, hhost, hshows, hframe, -⟩ := hostForURL_createIfNotFound h.shows (s.url l)
  have hname := hostNamed_name hhost
  have hframe' := hframe.trans (frame_setHost s₁ (host.addLoadInProgress l))
  refine ⟨s₁.setHost (host.addLoadInProgress l), ?_, ⟨?_, h.single.occupy _ hidle, ?_⟩, hframe'⟩
  · rw [addMainResourceLoad, heq]
    rfl
  · -- the place at its name is taken
    have hview := (hshows.host hhost).addLoadInProgress l
    rw [hname] at hview
    exact hshows.setHost hview (fun name hne => Admission.sameAt_occupy (hname ▸ hne)) rfl
  · -- the client that is new is placed by its own URL
    intro name l' hl'
    rw [hframe'.url]
    rcases Admission.placedAt_occupy.mp hl' with hl' | ⟨rfl, rfl⟩
    · exact h.placed hl'
    · rfl

/-- A loader leaves, whichever place it has. -/
theorem Agrees.remove {s : ResourceLoadScheduler L} {a : LoadAdmission L} (h : Agrees s a)
    (l : L) :
    Agrees (((s.hostNamed (hostName (s.url l))).map fun host =>
      s.setHost (host.remove l)).getD s) (a.leave l) := by
  have hplaced : ∀ name, name ≠ hostName (s.url l) → a.SameAt (a.leave l) name := fun name hne =>
    Admission.sameAt_leave fun hl => hne (h.placed hl)
  cases hhost : s.hostNamed (hostName (s.url l)) with
  | none =>
    have habsent := h.shows.absent hhost
    refine ⟨h.shows.congr (fun _ => rfl) rfl (fun name => ?_) rfl, h.single.leave l,
      fun hl => h.placed (Admission.placedAt_leave.mp hl).1⟩
    by_cases hname : name = hostName (s.url l)
    · -- nothing is at its host
      refine Admission.sameAt_leave fun hl => ?_
      rw [hname, Admission.placedAt_iff, habsent.loading] at hl
      rcases hl with ⟨p, hp⟩ | hl
      · rw [habsent.pending] at hp
        exact List.not_mem_nil hp
      · exact Finset.notMem_empty _ hl
    · exact hplaced name hname
  | some host =>
    have hname := hostNamed_name hhost
    refine ⟨?_, h.single.leave l, fun hl => ?_⟩
    · refine h.shows.setHost ((h.shows.host hhost).remove h.single (fun p => a.queue_leave l _ p)
        (a.activeAt_leave l _)) (fun name hne => hplaced name ?_) rfl
      rwa [remove_name, hname] at hne
    · rw [h.placed (Admission.placedAt_leave.mp hl).1]
      exact congrArg hostName (congrFun (frame_setHost s (host.remove l)).url.symm _)

/-- Only the places of the loader change when it moves. -/
theorem sameAt_move_occupy {a : LoadAdmission L} {l : L} {name new : HostName}
    (hl : l ∉ a.activeAt name) : (a.occupy new l).SameAt (a.move l new) name := by
  refine ⟨fun _ => rfl, ?_⟩
  rw [Admission.activeAt_move, Admission.activeAt_occupy, Finset.erase_eq_of_notMem hl]

/-- A load in progress is redirected: the host it comes from is there, and its place moves to the
    host of the new URL. -/
theorem Agrees.redirect {s : ResourceLoadScheduler L} {a : LoadAdmission L} (h : Agrees s a) {l : L}
    {name : HostName} (hl : l ∈ a.activeAt name) (url : KURL) :
    ∃ s', s.crossOriginRedirectReceived l url = some s' ∧
      Agrees (s'.setURL l url) (a.move l (hostName url)) ∧ Frame s s' := by
  have hactive := Admission.mem_activeAt.mp hl
  have hname : name = hostName (s.url l) := h.placed (.inr hactive)
  have hwaiting : ∀ r ∈ a.waiting, r.client ≠ l := fun r hr heq =>
    h.single.apart hr name (heq ▸ hactive)
  have honly : ∀ name', name' ≠ name → l ∉ a.activeAt name' := fun name' hne hl' =>
    hne (h.single.active (Admission.mem_activeAt.mp hl') hactive)
  subst hname
  cases hold : s.hostNamed (hostName (s.url l)) with
  | none =>
    rw [(h.shows.absent hold).loading] at hl
    exact absurd hl (Finset.notMem_empty _)
  | some old =>
  obtain ⟨s₁, new, heq, hnew, hshows, hframe, hothers⟩ := hostForURL_createIfNotFound h.shows url
  have hplaced : ∀ {s' : ResourceLoadScheduler L}, s'.url = s.url → ∀ {name' l'},
      (a.move l (hostName url)).PlacedAt name' l' →
      name' = hostName ((s'.setURL l url).url l') := by
    intro s' hs' name' l' hl'
    rw [Admission.placedAt_move hwaiting] at hl'
    split at hl'
    · next hll =>
      subst hll
      rw [hl']
      exact congrArg hostName (Function.update_self l' url s'.url).symm
    · next hll =>
      have hurl : Function.update s'.url l url l' = s.url l' := by
        rw [Function.update_of_ne hll, hs']
      exact (h.placed hl').trans (congrArg hostName hurl.symm)
  have hsetURL : ∀ {s' : ResourceLoadScheduler L}, Shows s' (a.move l (hostName url)) →
      Shows (s'.setURL l url) (a.move l (hostName url)) := fun hs' =>
    hs'.congr (fun name => by cases name <;> rfl) rfl (.refl _) rfl
  have hcrossing : s.crossOriginRedirectReceived l url =
      some (if old.name = new.name then s₁
        else (s₁.setHost (new.addLoadInProgress l)).setHost (old.remove l)) := by
    simp only [crossOriginRedirectReceived, hostForURL_findOnly, heq, hold, Option.bind_some,
      Option.map_some]
  have hcase : old.name = new.name ↔ hostName (s.url l) = hostName url := by
    rw [hostNamed_name hold, hostNamed_name hnew]
  by_cases hsame : hostName (s.url l) = hostName url
  · rw [if_pos (hcase.mpr hsame)] at hcrossing
    refine ⟨s₁, hcrossing, ⟨hsetURL ?_, h.single.move hactive _, hplaced hframe.url⟩, hframe⟩
    -- the loader stays where it is
    refine hshows.congr (fun _ => rfl) rfl (fun name => ⟨fun _ => rfl, ?_⟩) rfl
    rw [Admission.activeAt_move]
    split
    · next hk => rw [Finset.insert_erase (hk ▸ hsame ▸ hl)]
    · next hk => exact Finset.erase_eq_of_notMem (honly name fun heq => hk (hsame ▸ heq.symm))
  · rw [if_neg (mt hcase.mp hsame)] at hcrossing
    have hframe' := (hframe.trans (frame_setHost s₁ (new.addLoadInProgress l))).trans
      (frame_setHost _ (old.remove l))
    refine ⟨_, hcrossing, ⟨hsetURL ?_, h.single.move hactive _, hplaced hframe'.url⟩, hframe'⟩
    have hnewView := (hshows.host hnew).addLoadInProgress l
    rw [hostNamed_name hnew] at hnewView
    have hoccupied : Shows (s₁.setHost (new.addLoadInProgress l)) (a.occupy (hostName url) l) :=
      hshows.setHost hnewView
        (fun name hne => Admission.sameAt_occupy (hostNamed_name hnew ▸ hne)) rfl
    have hview : View (a.move l (hostName url)) (old.remove l) := by
      refine (h.shows.host hold).remove h.single (fun p => ?_) ?_
      · rw [Admission.queue_move, List.filter_eq_self.mpr]
        intro y hy
        rw [decide_eq_true_eq]
        exact hwaiting _ (Admission.mem_queue.mp hy)
      · rw [hostNamed_name hold, Admission.activeAt_move, if_neg (Ne.symm hsame)]
    refine hoccupied.setHost hview (fun name hne => ?_) rfl
    · rw [remove_name, hostNamed_name hold] at hne
      exact sameAt_move_occupy (honly name hne)

/-! ## What the clients promise -/

omit [DecidableEq L] in
/-- A condition holds of some host, the one for other protocols included. -/
theorem any_host_iff (s : ResourceLoadScheduler L) (f : HostInformation L → Bool) :
    (s.nonHTTPProtocolHost :: s.hosts.entries.map Sigma.snd).any f = true ↔
      ∃ name host, s.hostNamed name = some host ∧ f host = true := by
  rw [List.any_eq_true]
  constructor
  · rintro ⟨host, hmem, hf⟩
    rcases List.mem_cons.mp hmem with rfl | hmem
    · exact ⟨none, _, rfl, hf⟩
    · obtain ⟨⟨n, host'⟩, hentry, rfl⟩ := List.mem_map.mp hmem
      exact ⟨some n, host', AList.mem_lookup_iff.mpr hentry, hf⟩
  · rintro ⟨name, host, hhost, hf⟩
    refine ⟨host, ?_, hf⟩
    cases name with
    | none => exact List.mem_cons.mpr (.inl (Option.some.inj hhost).symm)
    | some n =>
      exact List.mem_cons_of_mem _ (List.mem_map.mpr ⟨_, AList.mem_lookup_iff.mp hhost, rfl⟩)

/-- A scheduler holds a load exactly if the load waits or has a place somewhere. -/
theorem holds_iff {s : ResourceLoadScheduler L} {a : LoadAdmission L} (h : Shows s a) (l : L) :
    s.holds l = true ↔ ∃ name, a.PlacedAt name l := by
  rw [holds, any_host_iff]
  refine exists_congr fun name => ?_
  rw [Admission.placedAt_iff]
  -- a load that a host has waits there, or has a place there
  constructor
  · rintro ⟨host, hhost, hmem⟩
    have hview := h.host hhost
    obtain rfl := hostNamed_name hhost
    rw [Bool.or_eq_true, decide_eq_true_eq, List.any_eq_true] at hmem
    rcases hmem with hmem | ⟨p, -, hmem⟩
    · exact .inr (hview.loading ▸ hmem)
    · exact .inl ⟨p, hview.pending p ▸ of_decide_eq_true hmem⟩
  · -- and the other way round
    intro hl
    cases hhost : s.hostNamed name with
    | none =>
      -- at a name without a host there is nothing
      have habsent := h.absent hhost
      rcases hl with ⟨p, hp⟩ | hl
      · exact absurd (habsent.pending p ▸ hp) List.not_mem_nil
      · exact absurd (habsent.loading ▸ hl) (Finset.notMem_empty _)
    | some host =>
      have hview := h.host hhost
      obtain rfl := hostNamed_name hhost
      refine ⟨host, rfl, ?_⟩
      rw [Bool.or_eq_true, decide_eq_true_eq, List.any_eq_true]
      rcases hl with ⟨p, hp⟩ | hl
      · exact .inr ⟨p, mem_downTo_veryLow p, decide_eq_true (hview.pending p ▸ hp)⟩
      · exact .inl (hview.loading ▸ hl)

/-- A scheduler is loading exactly what has a place. -/
theorem isLoading_iff {s : ResourceLoadScheduler L} {a : LoadAdmission L} (h : Shows s a) (l : L) :
    s.isLoading l = true ↔ ∃ name, l ∈ a.activeAt name := by
  rw [isLoading, any_host_iff]
  refine exists_congr fun name => ⟨?_, fun hl => ?_⟩
  · rintro ⟨host, hhost, hmem⟩
    rw [← hostNamed_name hhost, (h.host hhost).loading]
    exact of_decide_eq_true hmem
  · cases hhost : s.hostNamed name with
    | none =>
      rw [(h.absent hhost).loading] at hl
      exact absurd hl (Finset.notMem_empty _)
    | some host =>
      rw [← hostNamed_name hhost, (h.host hhost).loading] at hl
      exact ⟨host, rfl, decide_eq_true hl⟩

/-! ## The scheduler follows `Loads` -/

/-- The scheduler in `s` is at `a`: requests are suspended exactly while nodes are attached. -/
structure StandsFor (s : ResourceLoadScheduler L) (a : Loads L) : Prop where
  agrees : Agrees s a.admission
  serial : a.isSerialLoadingEnabled = s.isSerialLoadingEnabled
  documentHolds : a.documentHolds = s.documentHolds
  depth : a.attachDepth = s.attachDepth
  count : s.suspendPendingRequestsCount = if s.attachDepth = 0 then 0 else 1

/-- The hosts change, and what they show. -/
theorem StandsFor.of_agrees {s t : ResourceLoadScheduler L} {a : Loads L} (h : StandsFor s a)
    {admission : LoadAdmission L} (hagrees : Agrees t admission)
    (hcount : t.suspendPendingRequestsCount = s.suspendPendingRequestsCount)
    (hserial : t.isSerialLoadingEnabled = s.isSerialLoadingEnabled)
    (hdepth : t.attachDepth = s.attachDepth) (hholds : t.documentHolds = s.documentHolds) :
    StandsFor t { a with admission := admission } where
  agrees := hagrees
  serial := h.serial.trans hserial.symm
  documentHolds := h.documentHolds.trans hholds.symm
  depth := h.depth.trans hdepth.symm
  count := by rw [hcount, hdepth, h.count]

/-- A step that changes only hosts and started loads. -/
theorem StandsFor.of_frame {s t : ResourceLoadScheduler L} {a : Loads L} (h : StandsFor s a)
    {admission : LoadAdmission L} (hagrees : Agrees t admission) (hframe : Frame s t) :
    StandsFor t { a with admission := admission } :=
  h.of_agrees hagrees hframe.count hframe.serial hframe.depth hframe.documentHolds

/-- Serving the pending requests serves the requests that wait. -/
theorem StandsFor.serve {s s' : ResourceLoadScheduler L} {a : Loads L} (h : StandsFor s a)
    {order : List StdString} (hserve : s.servePendingRequests order .veryLow = some s') :
    ∃ a', a.Serves a' ∧ StandsFor s' a' := by
  have hcount := h.count
  by_cases hdepth : s.attachDepth = 0
  · -- outside of suspended callbacks the hosts are served
    rw [if_pos hdepth] at hcount
    obtain ⟨admission, hserves, hagrees, hframe⟩ := h.agrees.serve hcount hserve
    refine ⟨{ a with admission := admission }, ?_, h.of_frame hagrees hframe⟩
    rw [Loads.Serves, if_pos (h.depth.trans hdepth)]
    refine ⟨admission, ?_, rfl⟩
    unfold Loads.waits
    rw [h.serial, h.documentHolds]
    exact hserves
  · -- inside of them nothing is served
    rw [if_neg hdepth] at hcount
    rw [servePendingRequests, if_neg (by omega), Option.some.injEq] at hserve
    subst hserve
    refine ⟨a, ?_, h⟩
    rw [Loads.Serves, if_neg (h.depth ▸ hdepth)]

/-- Without named hosts and requests for the others, nothing waits. -/
theorem settled_of_no_requests {s : ResourceLoadScheduler L} {a : LoadAdmission L} (h : Shows s a)
    (hhosts : s.hosts.keys = []) (hrequests : s.nonHTTPProtocolHost.hasRequests = false)
    {waits : Admission.Request HostName ResourceLoadPriority L → Finset L → Prop} :
    a.Settled waits := by
  intro name
  cases name with
  | none =>
    have hhost : s.hostNamed none = some s.nonHTTPProtocolHost := rfl
    have habsent := (h.host hhost).absent hrequests
    rw [hostNamed_name hhost] at habsent
    exact settledAt_of_pending habsent.pending
  | some n =>
    have hnone : s.hostNamed (some n) = none := by
      refine AList.lookup_eq_none.mpr fun hmem => ?_
      exact List.not_mem_nil (hhosts ▸ AList.mem_keys.mp hmem)
    exact settledAt_of_pending (h.absent hnone).pending

/-- The suspension is lifted, and what waits is served; without requests nothing waits. -/
theorem Agrees.resume {s t : ResourceLoadScheduler L} {a : LoadAdmission L} (h : Agrees s a)
    (hcount : s.suspendPendingRequestsCount = 1) {order : List StdString}
    (hresume : s.resumePendingRequests order = some t) :
    ∃ a', Admission.Serves (Waits s.isSerialLoadingEnabled s.documentHolds) a a' ∧ Agrees t a' ∧
      Frame { s with suspendPendingRequestsCount := 0 } t := by
  rw [resumePendingRequests, if_neg (by omega), hcount] at hresume
  dsimp only at hresume
  rw [if_neg (fun hne => hne rfl)] at hresume
  have hlifted : Agrees { s with suspendPendingRequestsCount := 1 - 1 } a :=
    h.congr (fun name => by cases name <;> rfl) rfl rfl
  split at hresume
  · exact hlifted.serve rfl hresume
  · next hnone =>
    rw [not_or, not_not, Bool.not_eq_true] at hnone
    obtain rfl := Option.some.inj hresume
    exact ⟨a, ⟨.refl, settled_of_no_requests hlifted.shows hnone.1 hnone.2⟩, hlifted, .refl _⟩

/-- Resuming at the outermost level lifts the suspension and serves. -/
theorem StandsFor.resume {s s' : ResourceLoadScheduler L} {a : Loads L} (h : StandsFor s a)
    {order : List StdString} (hresume : s.resumePostAttachCallbacks order = some s') :
    ∃ a', a.attachDepth ≠ 0 ∧ Loads.Serves { a with attachDepth := a.attachDepth - 1 } a' ∧
      StandsFor s' a' := by
  rw [resumePostAttachCallbacks] at hresume
  have hcount := h.count
  -- a counter of zero cannot be taken down
  by_cases hzero : s.attachDepth = 0
  · rw [if_pos hzero] at hresume
    exact absurd hresume (Option.some_ne_none _).symm
  rw [if_neg hzero] at hresume hcount
  obtain ⟨t, ht, rfl⟩ := Option.map_eq_some_iff.mp hresume
  by_cases hone : s.attachDepth = 1
  · -- the last suspension ends, and what has been asked for is served
    rw [if_pos hone] at ht
    have hdepth : a.attachDepth - 1 = 0 := by rw [h.depth, hone]
    obtain ⟨admission, hserves, hagrees, hframe⟩ := h.agrees.resume hcount ht
    refine ⟨{ a with admission := admission, attachDepth := a.attachDepth - 1 }, h.depth ▸ hzero,
      ?_, hagrees.congr (fun name => by cases name <;> rfl) rfl rfl,
      h.serial.trans hframe.serial.symm, h.documentHolds.trans hframe.documentHolds.symm,
      congrArg (· - 1) (h.depth.trans hframe.depth.symm), ?_⟩
    · -- the hosts are served
      rw [Loads.Serves, if_pos hdepth]
      refine ⟨admission, ?_, rfl⟩
      unfold Loads.waits
      rw [h.serial, h.documentHolds]
      exact hserves
    · -- the counter is zero
      have hdepth' : t.attachDepth - 1 = 0 := by
        rw [hframe.depth]
        exact congrArg (· - 1) hone
      exact hframe.count.trans (if_pos hdepth').symm
  · -- a suspension inside of another one ends
    rw [if_neg hone] at ht
    obtain rfl := Option.some.inj ht
    refine ⟨{ a with attachDepth := a.attachDepth - 1 }, h.depth ▸ hzero, ?_,
      h.agrees.congr (fun name => by cases name <;> rfl) rfl rfl, h.serial, h.documentHolds,
      congrArg (· - 1) h.depth, ?_⟩
    · have hdepth : a.attachDepth - 1 ≠ 0 := by rw [h.depth]; omega
      rw [Loads.Serves, if_neg hdepth]
    · have hdepth : s.attachDepth - 1 ≠ 0 := by omega
      exact hcount.trans (if_neg hdepth).symm

/-- A loader without a place has none in `a`. -/
theorem idle_of_holds {s : ResourceLoadScheduler L} {a : LoadAdmission L} (h : Shows s a) {l : L}
    (hholds : s.holds l = false) : a.Idle l := fun name hplaced => by
  rw [(holds_iff h l).mpr ⟨name, hplaced⟩] at hholds
  exact Bool.noConfusion hholds

/-- A redirected load has its new URL. -/
theorem url_setURL (s : ResourceLoadScheduler L) (l : L) (url : KURL) :
    (s.setURL l url).url l = url := by simp [ResourceLoadScheduler.setURL]

/-- The URL of a new loader is set. -/
theorem StandsFor.setURL {s : ResourceLoadScheduler L} {a : Loads L} (h : StandsFor s a) {l : L}
    (hidle : a.admission.Idle l) (url : KURL) : StandsFor (s.setURL l url) a :=
  h.of_agrees (h.agrees.setURL hidle url) rfl rfl rfl rfl

/-- Each step of the scheduler, with what its clients promise, is one of `Loads`. -/
theorem StandsFor.step {s s' : ResourceLoadScheduler L} {a : Loads L} (h : StandsFor s a)
    {label : Label L} (hpromised : s.Promised label) (hstep : s.step label = some s') :
    ∃ a', a.Step label a' ∧ StandsFor s' a' := by
  cases label with
  | scheduleLoad l url priority archived order =>
    -- a load that is promised to be new has no place and no request
    have hidle := idle_of_holds h.agrees.shows hpromised
    have hset := h.setURL hidle url
    have hurl := url_setURL s l url
    rw [ResourceLoadScheduler.step, scheduleLoad] at hstep
    cases archived with
    | true =>
      -- a load from an archive is not scheduled at all
      rw [if_pos rfl, Option.some.injEq] at hstep
      refine ⟨a, ⟨hidle, ?_⟩, hstep ▸ hset⟩
      rw [if_pos rfl]
    | false =>
      -- the request arrives at its host, and the host is served
      obtain ⟨s₁, host, heq, hagrees, hframe⟩ := hset.agrees.schedule hidle priority
      rw [if_neg Bool.false_ne_true, heq] at hstep
      obtain ⟨a', hserves, hstands⟩ := (hset.of_frame hagrees hframe).serve hstep
      rw [hurl] at hserves
      refine ⟨a', ⟨hidle, ?_⟩, hstands⟩
      rw [if_neg Bool.false_ne_true]
      exact hserves
  | addMainResourceLoad l url =>
    have hidle := idle_of_holds h.agrees.shows hpromised
    have hset := h.setURL hidle url
    have hurl := url_setURL s l url
    obtain ⟨s₁, hadded, hagrees, hframe⟩ := hset.agrees.addLoadInProgress hidle
    obtain rfl := Option.some.inj (hadded.symm.trans hstep)
    rw [hurl] at hagrees
    exact ⟨_, ⟨hidle, rfl⟩, hset.of_frame hagrees hframe⟩
  | remove l order =>
    rw [ResourceLoadScheduler.step, remove, hostForURL_findOnly] at hstep
    -- the removal touches nothing but a host
    have hframe : Frame s (((s.hostNamed (hostName (s.url l))).map fun host =>
        s.setHost (host.remove l)).getD s) := by
      cases s.hostNamed (hostName (s.url l)) with
      | none => exact .refl s
      | some host => exact frame_setHost s _
    exact (h.of_frame (h.agrees.remove l) hframe).serve hstep
  | redirect l url =>
    -- a load that is redirected has a place
    obtain ⟨name, hl⟩ := (isLoading_iff h.agrees.shows l).mp hpromised
    obtain ⟨s₁, hredirected, hagrees, hframe⟩ := h.agrees.redirect hl url
    rw [ResourceLoadScheduler.step, hredirected, Option.map_some, Option.some.injEq] at hstep
    subst hstep
    exact ⟨_, ⟨⟨name, hl⟩, rfl⟩, h.of_agrees hagrees hframe.count hframe.serial hframe.depth
      hframe.documentHolds⟩
  | suspendPostAttachCallbacks =>
    obtain rfl := Option.some.inj hstep
    have hcount := h.count
    have hnamed : ∀ name, s.suspendPostAttachCallbacks.hostNamed name = s.hostNamed name := by
      intro name
      unfold suspendPostAttachCallbacks
      split <;> cases name <;> rfl
    unfold suspendPostAttachCallbacks at hnamed ⊢
    refine ⟨_, rfl, ?_⟩
    by_cases hdepth : s.attachDepth = 0
    · -- the first suspension suspends the pending requests as well
      rw [if_pos hdepth] at hcount hnamed ⊢
      exact ⟨h.agrees.congr hnamed rfl rfl, h.serial, h.documentHolds, congrArg (· + 1) h.depth,
        (congrArg (· + 1) hcount).trans (if_neg (Nat.succ_ne_zero _)).symm⟩
    · -- one inside of another only counts
      rw [if_neg hdepth] at hcount hnamed ⊢
      exact ⟨h.agrees.congr hnamed rfl rfl, h.serial, h.documentHolds, congrArg (· + 1) h.depth,
        hcount.trans (if_neg (Nat.succ_ne_zero _)).symm⟩
  | resumePostAttachCallbacks order =>
    obtain ⟨a', hdepth, hserves, hstands⟩ := h.resume hstep
    exact ⟨a', ⟨hdepth, hserves⟩, hstands⟩
  | servePendingRequests order => exact h.serve hstep
  | setSerialLoadingEnabled b =>
    obtain rfl := Option.some.inj hstep
    exact ⟨_, rfl, h.agrees.congr (fun name => by cases name <;> rfl) rfl rfl, rfl,
      h.documentHolds, h.depth, h.count⟩
  | documents documentHolds =>
    obtain rfl := Option.some.inj hstep
    exact ⟨_, rfl, h.agrees.congr (fun name => by cases name <;> rfl) rfl rfl, h.serial, rfl,
      h.depth, h.count⟩

/-- A new scheduler stands for loads of which there are none. -/
theorem standsFor_make (url : L → KURL) (documentHolds : L → Bool) :
    StandsFor (make url documentHolds) ⟨⟨[], ∅, []⟩, false, documentHolds, 0⟩ := by
  refine ⟨⟨⟨fun {name host} hhost => ?_, fun _ => ⟨fun _ => rfl, rfl⟩, rfl⟩, ?_, ?_⟩,
    rfl, rfl, rfl, rfl⟩
  · cases name with
    | none =>
      obtain rfl := Option.some.inj hhost
      exact ⟨fun _ => rfl, rfl, rfl⟩
    | some name => exact absurd hhost (by simp [hostNamed, make])
  · exact ⟨List.nodup_nil, fun h => absurd h (Finset.notMem_empty _),
      fun h => absurd h List.not_mem_nil⟩
  · rintro name l (⟨r, hr, -⟩ | hl)
    · exact absurd hr List.not_mem_nil
    · exact absurd hl (Finset.notMem_empty _)

/-- Along `StandsFor`, `Loads` can do whatever the scheduler does. -/
theorem simulation (url : L → KURL) (documentHolds : L → Bool) :
    Lts.Simulation ((ResourceLoadScheduler.system url documentHolds).restrict Promised)
      (Loads.system documentHolds) StandsFor where
  init _ hs := ⟨_, rfl, hs ▸ standsFor_make url documentHolds⟩
  step _ _ _ _ h hstep := h.step hstep.1 hstep.2

/-- Every run of the scheduler, with what its clients promise, is label by label a run of `Loads`
    that it stands for; and a load in progress that is redirected comes from a host that is
    there. -/
theorem scheduler_admits_loads (url : L → KURL) (documentHolds : L → Bool)
    {s : ResourceLoadScheduler L} {ls : List (Label L)}
    (r : ((ResourceLoadScheduler.system url documentHolds).restrict Promised).Runs ls s) :
    (∃ a, (Loads.system documentHolds).Runs ls a ∧ StandsFor s a) ∧
      ∀ l redirectURL, s.isLoading l = true →
        ∃ s', s.step (.redirect l redirectURL) = some s' := by
  obtain ⟨a, hruns, hstands⟩ := (simulation url documentHolds).runs r
  refine ⟨⟨a, hruns, hstands⟩, fun l redirectURL hl => ?_⟩
  obtain ⟨name, hactive⟩ := (isLoading_iff hstands.agrees.shows l).mp hl
  obtain ⟨s₁, hredirected, -⟩ := hstands.agrees.redirect hactive redirectURL
  exact ⟨_, Option.map_eq_some_iff.mpr ⟨s₁, hredirected, rfl⟩⟩

/-! ## A run -/

def exampleURL : KURL := ⟨true, "a".toList⟩

def mirrorURL : KURL := ⟨true, "b".toList⟩

/-- Three loads of a host that sends one request at a time: the last one to come is of a higher
    priority, and starts before the second one when the first one is done. -/
def serialLoading : List (Label Nat) :=
  [.setSerialLoadingEnabled true, .scheduleLoad 1 exampleURL .low false ["a".toList],
    .scheduleLoad 2 exampleURL .low false ["a".toList],
    .scheduleLoad 3 exampleURL .high false ["a".toList], .remove 1 ["a".toList]]

/-- The end of a run, if it keeps what the clients promise. -/
def endOf (url : L → KURL) (documentHolds : L → Bool) (ls : List (Label L)) :
    Option (ResourceLoadScheduler L) :=
  ls.foldlM (fun s label => if s.Promised label then s.step label else none)
    (make url documentHolds)

/-- The end of a run is the end of its labels. -/
theorem runs_of_endOf {url : L → KURL} {documentHolds : L → Bool} {s : ResourceLoadScheduler L}
    {ls : List (Label L)} (h : endOf url documentHolds ls = some s) :
    ((ResourceLoadScheduler.system url documentHolds).restrict Promised).Runs ls s :=
  Lts.Runs.foldlM Promised (T := ResourceLoadScheduler.system url documentHolds)
    (fun _ _ _ h => h) (.nil rfl) h

/-- A run with serial loading in which the third load is under way. -/
theorem exists_serialLoading : ∃ s : ResourceLoadScheduler Nat,
    ((ResourceLoadScheduler.system (fun _ => exampleURL) fun _ => false).restrict
      Promised).Runs serialLoading s ∧ s.isLoading 3 = true := by
  have hrun : (endOf (fun _ => exampleURL) (fun _ => false) serialLoading).map
      (fun s => s.isLoading 3) = some true := by decide +kernel
  obtain ⟨s, hs, hloading⟩ := Option.map_eq_some_iff.mp hrun
  exact ⟨s, runs_of_endOf hs, hloading⟩

/-- The third load is redirected to another host. -/
theorem scheduler_admits_loads_of_serial : ∃ s : ResourceLoadScheduler Nat,
    (∃ a, (Loads.system fun _ => false).Runs serialLoading a ∧ StandsFor s a) ∧
      ∃ s', s.step (.redirect 3 mirrorURL) = some s' := by
  obtain ⟨s, r, hloading⟩ := exists_serialLoading
  obtain ⟨hrefines, hredirect⟩ := scheduler_admits_loads (fun _ => exampleURL) (fun _ => false) r
  exact ⟨s, hrefines, hredirect 3 mirrorURL hloading⟩

end R4.LoadScheduling
