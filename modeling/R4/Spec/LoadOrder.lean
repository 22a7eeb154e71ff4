import R4.Spec.LoadScheduling

/-!
# When resource loads start

What follows for a whole run of the scheduler of resource loads from its being a run of `Loads`:
a load waits for other loads of its host only, in the order of arrival, and every place is given
back when its loader is removed.

Three steps free a place, or a limit, without serving: a redirect to another host, the end of
serial loading, and a document that has been loaded. After one of them a load can wait for
nothing, until the next step that serves.

## Key results

- `loads_wait_for_others`: a load that waits is kept back by loads in progress at its host
- `loads_start_in_order`: loads of a host and a priority start in the order in which they come
- `places_are_given_back`: a loader has a place from when it comes until it is removed
-/

namespace R4.LoadScheduling

open ResourceLoadScheduler

variable {L : Type} [DecidableEq L]

/-! ## Serving -/

/-- What every load that starts keeps, serving keeps. -/
theorem Loads.Serves.induct {P : LoadAdmission L → Prop} {a a' : Loads L} (h : a.Serves a')
    (htake : ∀ admission r, admission.Next r → P admission → P (admission.take r))
    (hP : P a.admission) : P a'.admission := by
  unfold Loads.Serves at h
  split at h
  · obtain ⟨admission, hserves, rfl⟩ := h
    exact hserves.induct htake hP
  · exact h ▸ hP

/-- Nothing that could start waits, unless nodes are being attached. -/
def Loads.Rests (a : Loads L) : Prop :=
  a.attachDepth = 0 → a.admission.Settled a.waits

/-- After serving, no request waits that could begin. -/
theorem Loads.Serves.rests {a a' : Loads L} (h : a.Serves a') : a'.Rests := by
  intro hdepth
  unfold Loads.Serves at h
  split at h
  · obtain ⟨admission, hserves, rfl⟩ := h
    exact hserves.settled
  · next hne => exact absurd (h ▸ hdepth) hne

/-- Every host has room for one load. -/
theorem one_le_capacity (name : HostName) : 1 ≤ capacity name := by
  unfold capacity
  split <;> decide

omit [DecidableEq L] in
/-- With more loads in progress, no fewer have to wait. -/
theorem Waits.mono {isSerialLoadingEnabled : Bool} {documentHolds : L → Bool}
    {r : Admission.Request HostName ResourceLoadPriority L} {active active' : Finset L}
    (hsubset : active ⊆ active') (h : Waits isSerialLoadingEnabled documentHolds r active) :
    Waits isSerialLoadingEnabled documentHolds r active' := by
  have hcard := Finset.card_le_card hsubset
  refine ⟨h.1, h.2.imp (fun hlow => ⟨hlow.1, ?_⟩) fun hlimit => hlimit.trans hcard⟩
  exact fun hzero => hlow.2 (Nat.le_zero.mp (hzero ▸ hcard))

omit [DecidableEq L] in
/-- Serial loading makes more loads wait. -/
theorem Waits.serial {isSerialLoadingEnabled : Bool} {documentHolds : L → Bool}
    {r : Admission.Request HostName ResourceLoadPriority L} {active : Finset L}
    (h : Waits isSerialLoadingEnabled documentHolds r active) :
    Waits true documentHolds r active := by
  refine ⟨h.1, h.2.imp_right fun hlimit => ?_⟩
  rw [if_pos rfl]
  split at hlimit
  · exact hlimit
  · exact (one_le_capacity r.key).trans hlimit

omit [DecidableEq L] in
/-- Nobody waits for an idle host. -/
theorem not_waits_empty (isSerialLoadingEnabled : Bool) (documentHolds : L → Bool)
    (r : Admission.Request HostName ResourceLoadPriority L) :
    ¬Waits isSerialLoadingEnabled documentHolds r ∅ := by
  rintro ⟨-, ⟨-, hcard⟩ | hlimit⟩
  · exact hcard Finset.card_empty
  · rw [Finset.card_empty] at hlimit
    have := one_le_capacity r.key
    split at hlimit <;> omega

/-! ## What waits -/

/-- A step that frees a place or a limit, and does not serve. -/
def frees : Label L → Bool
  | .redirect _ _ => true
  | .setSerialLoadingEnabled isSerialLoadingEnabled => !isSerialLoadingEnabled
  | .documents _ => true
  | _ => false

/-- A step that serves. -/
def serves : Label L → Bool
  | .scheduleLoad _ _ _ archived _ => !archived
  | .remove _ _ => true
  | .resumePostAttachCallbacks _ => true
  | .servePendingRequests _ => true
  | _ => false

/-- Every step that frees something has been followed by one that serves. -/
def isServed (ls : List (Label L)) : Bool :=
  ls.foldl (fun served label => served && !frees label || serves label) true

/-- A step after which nothing waits idly: it frees nothing and serves nothing, or it serves. -/
theorem Loads.Step.rests {a a' : Loads L} {label : Label L} (hstep : a.Step label a')
    (hrests : frees label = false → serves label = false → a.Rests)
    (hserved : frees label = false ∨ serves label = true) : a'.Rests := by
  cases label with
  | scheduleLoad l url priority archived order =>
    -- a load from an archive is not scheduled
    obtain ⟨-, hstep⟩ := hstep
    cases archived with
    | true =>
      rw [if_pos rfl] at hstep
      exact hstep ▸ hrests rfl rfl
    | false =>
      -- a new request waits for the hosts to be served
      rw [if_neg Bool.false_ne_true] at hstep
      exact hstep.rests
  | addMainResourceLoad l url =>
    -- a place that is taken lets more requests wait
    obtain ⟨-, rfl⟩ := hstep
    exact fun hdepth => (hrests rfl rfl hdepth).occupy (fun _ _ _ => Waits.mono) _ l
  | remove l order => exact Loads.Serves.rests hstep
  -- a move frees a place, and nothing is served here
  | redirect l url => exact hserved.elim (fun h => Bool.noConfusion h) fun h => Bool.noConfusion h
  | suspendPostAttachCallbacks =>
    obtain rfl := hstep
    -- while callbacks are suspended nothing has to be served
    exact fun hdepth => absurd hdepth (Nat.succ_ne_zero _)
  | resumePostAttachCallbacks order => exact hstep.2.rests
  | servePendingRequests order => exact Loads.Serves.rests hstep
  | setSerialLoadingEnabled b =>
    obtain rfl := hstep
    -- with serial loading more requests wait
    cases b with
    | true => exact fun hdepth => (hrests rfl rfl hdepth).mono fun _ _ => Waits.serial
    -- without it some of them could begin
    | false => exact hserved.elim (fun h => Bool.noConfusion h) fun h => Bool.noConfusion h
  | documents documentHolds =>
    exact hserved.elim (fun h => Bool.noConfusion h) fun h => Bool.noConfusion h

/-- At the end of a run that has served whenever a place was freed, nothing waits idly. -/
theorem Loads.rests_of_runs {documentHolds : L → Bool} {ls : List (Label L)} {a : Loads L}
    (r : (Loads.system documentHolds).Runs ls a) (hserved : isServed ls = true) : a.Rests := by
  induction r with
  | nil h =>
    obtain rfl := h
    exact fun _ _ => settledAt_of_pending fun _ => rfl
  | snoc _ hstep ih =>
    rw [isServed, List.foldl_append, List.foldl_cons, List.foldl_nil, Bool.or_eq_true,
      Bool.and_eq_true, Bool.not_eq_true'] at hserved
    refine Loads.Step.rests hstep (fun _ hserves => ih ?_) (hserved.imp_left And.right)
    rw [hserves] at hserved
    exact (hserved.resolve_right Bool.false_ne_true).1

/-- In every state of a run in which no nodes are being attached, and in which every step that
    freed something has been followed by one that serves, the next load of a host has to wait only
    if the limit of the host is reached; so some load is in progress there, and when it is removed
    the scheduler serves again. -/
theorem loads_wait_for_others (url : L → KURL) (documentHolds : L → Bool)
    {s : ResourceLoadScheduler L} {ls : List (Label L)}
    (r : ((ResourceLoadScheduler.system url documentHolds).restrict Promised).Runs ls s)
    (hdepth : s.attachDepth = 0) (hserved : isServed ls = true) {name : HostName}
    {host : HostInformation L} (hhost : s.hostNamed name = some host)
    {priority : ResourceLoadPriority} {l : L} {rest : List L}
    (hpending : host.requestsPending priority = l :: rest)
    (habove : ∀ p, priority < p → host.requestsPending p = []) :
    s.shouldLimitRequests host l = true ∧
      host.limitRequests s.isSerialLoadingEnabled priority = true ∧
      host.requestsLoading ≠ ∅ := by
  obtain ⟨a, hruns, hstands⟩ := (simulation url documentHolds).runs r
  have hview := hstands.agrees.shows.host hhost
  -- the request is the first of its queue, and nothing is above it
  have hnext : a.admission.Next ⟨host.name, priority, l⟩ := by
    constructor
    · rw [hview.pending, hpending]
      rfl
    · intro p hp
      rw [hview.pending, habove p hp]
  have hsettled := Loads.rests_of_runs hruns hserved (hstands.depth.trans hdepth) host.name
  have hwaits := hsettled _ rfl hnext
  -- it waits because its host has a limit that is reached
  unfold Loads.waits at hwaits
  rw [hstands.serial, hstands.documentHolds, hview.waits_iff, Bool.and_eq_true] at hwaits
  refine ⟨hwaits.1, hwaits.2, ?_⟩
  -- the host is not idle, for otherwise the request would begin
  have hactive := hsettled.exists_active (fun r => not_waits_empty _ _ r) rfl hnext
  rw [hview.loading] at hactive
  exact hactive.ne_empty

/-- In the run of `serialLoading` the second load waits for the third one. -/
theorem loads_wait_for_others_of_serial : ∃ s : ResourceLoadScheduler Nat, ∃ host,
    s.hostNamed (some "a".toList) = some host ∧ host.requestsPending .low = [2] ∧
      s.shouldLimitRequests host 2 = true ∧
      host.limitRequests s.isSerialLoadingEnabled .low = true ∧ host.requestsLoading ≠ ∅ := by
  -- the third load of the run waits behind the first two
  have hrun : ((endOf (fun _ => exampleURL) (fun _ => false) serialLoading).bind fun s =>
      (s.hostNamed (some "a".toList)).map fun host =>
        (s.attachDepth, host.requestsPending .low, host.requestsPending .medium,
          host.requestsPending .high)) = some (0, [2], [], []) := by decide +kernel
  obtain ⟨s, hs, hrun⟩ := Option.bind_eq_some_iff.mp hrun
  obtain ⟨host, hhost, hobserved⟩ := Option.map_eq_some_iff.mp hrun
  simp only [Prod.mk.injEq] at hobserved
  obtain ⟨hdepth, hlow, hmedium, hhigh⟩ := hobserved
  refine ⟨s, host, hhost, hlow, loads_wait_for_others (fun _ => exampleURL) (fun _ => false)
    (runs_of_endOf hs) hdepth (by decide) hhost hlow fun p hp => ?_⟩
  -- only the queue of low priority has a request
  cases p with
  | veryLow => exact absurd hp (by decide)
  | low => exact absurd hp (by decide)
  | medium => exact hmedium
  | high => exact hhigh

/-! ## The order in which loads start -/

/-- The request that comes with a step. -/
def arrival : Label L → List (Admission.Request HostName ResourceLoadPriority L)
  | .scheduleLoad l url priority archived _ =>
    if archived then [] else [⟨hostName url, priority, l⟩]
  | _ => []

/-- The requests that have come, in order. -/
def arrivals (ls : List (Label L)) : List (Admission.Request HostName ResourceLoadPriority L) :=
  ls.flatMap arrival

/-- The loader has been removed. -/
def IsRemoved (ls : List (Label L)) (l : L) : Prop := ∃ order, .remove l order ∈ ls

/-- What has come is in order, and none of it is lost. -/
def Orderly (ls : List (Label L)) (a : LoadAdmission L) : Prop :=
  a.InOrder (arrivals ls) ∧ a.Kept (arrivals ls) (IsRemoved ls)

/-- A request that begins when it is its turn keeps the order. -/
theorem Orderly.take {ls : List (Label L)} {a : LoadAdmission L} (h : Orderly ls a)
    {r : Admission.Request HostName ResourceLoadPriority L} (hnext : a.Next r) :
    Orderly ls (a.take r) := by
  obtain ⟨rest, hqueue⟩ := Admission.exists_queue_of_head? hnext.head
  exact ⟨h.1.take hqueue, h.2.take r⟩

/-- Serving keeps the order. -/
theorem Orderly.serves {ls : List (Label L)} {a a' : Loads L} (h : Orderly ls a.admission)
    (hserves : a.Serves a') : Orderly ls a'.admission :=
  hserves.induct (fun _ _ hnext hordered => hordered.take hnext) h

omit [DecidableEq L] in
/-- What has been removed stays removed. -/
theorem IsRemoved.snoc {ls : List (Label L)} {l : L} (label : Label L) (h : IsRemoved ls l) :
    IsRemoved (ls ++ [label]) l :=
  h.imp fun _ hmem => List.mem_append_left _ hmem

omit [DecidableEq L] in
/-- A step with which no request comes. -/
theorem Orderly.snoc {ls : List (Label L)} {a a' : LoadAdmission L} (h : Orderly ls a)
    {label : Label L} (harrival : arrival label = []) (hbegun : a'.begun = a.begun)
    (hwaiting : a'.waiting = a.waiting) : Orderly (ls ++ [label]) a' := by
  have harrivals : arrivals (ls ++ [label]) = arrivals ls := by
    rw [arrivals, List.flatMap_append, List.flatMap_singleton, harrival, List.append_nil]
    rfl
  refine ⟨fun k p => ?_, fun r hr => ?_⟩
  · rw [harrivals, hbegun, Admission.queue, hwaiting]
    exact h.1 k p
  · rw [harrivals] at hr
    rw [hbegun, hwaiting]
    exact (h.2 r hr).imp_right (Or.imp_right (IsRemoved.snoc label))

/-- Each step keeps the order of the requests. -/
theorem Orderly.step {ls : List (Label L)} {a a' : Loads L} {label : Label L}
    (h : Orderly ls a.admission) (hstep : a.Step label a') :
    Orderly (ls ++ [label]) a'.admission := by
  cases label with
  | scheduleLoad l url priority archived order =>
    obtain ⟨-, hstep⟩ := hstep
    -- a load from an archive does not arrive
    cases archived with
    | true =>
      rw [if_pos rfl] at hstep
      exact hstep ▸ h.snoc rfl rfl rfl
    | false =>
      -- the new request is the last one, and the hosts are served
      rw [if_neg Bool.false_ne_true] at hstep
      refine Orderly.serves ?_ hstep
      have harrivals : arrivals (ls ++ [.scheduleLoad l url priority false order]) =
          arrivals ls ++ [⟨hostName url, priority, l⟩] := by
        rw [arrivals, List.flatMap_append, List.flatMap_singleton]
        rfl
      refine ⟨harrivals ▸ h.1.arrive _, harrivals ▸ (h.2.arrive _).mono fun x hx => ?_⟩
      exact hx.snoc _
  | addMainResourceLoad l url =>
    obtain ⟨-, rfl⟩ := hstep
    exact h.snoc rfl rfl rfl
  | remove l order =>
    -- the removed load leaves its queue, and is among those that were removed
    refine Orderly.serves ?_ hstep
    have harrivals : arrivals (ls ++ [.remove l order]) = arrivals ls := by
      rw [arrivals, List.flatMap_append, List.flatMap_singleton]
      exact List.append_nil _
    refine ⟨harrivals ▸ h.1.leave l, harrivals ▸ (h.2.leave l).mono fun x hx => ?_⟩
    rcases hx with hx | rfl
    · exact hx.snoc _
    · exact ⟨order, List.mem_append_right _ (List.mem_singleton_self _)⟩
  | redirect l url =>
    -- everything else lets no request arrive and removes none
    obtain ⟨-, rfl⟩ := hstep
    exact h.snoc rfl rfl rfl
  | suspendPostAttachCallbacks =>
    obtain rfl := hstep
    exact h.snoc rfl rfl rfl
  | resumePostAttachCallbacks order =>
    refine Orderly.serves ?_ hstep.2
    exact h.snoc rfl rfl rfl
  | servePendingRequests order =>
    exact Orderly.serves (h.snoc rfl rfl rfl) hstep
  | setSerialLoadingEnabled b =>
    obtain rfl := hstep
    exact h.snoc rfl rfl rfl
  | documents documentHolds =>
    obtain rfl := hstep
    exact h.snoc rfl rfl rfl

/-- The requests of every run begin in order. -/
theorem orderly_of_runs {documentHolds : L → Bool} {ls : List (Label L)} {a : Loads L}
    (r : (Loads.system documentHolds).Runs ls a) : Orderly ls a.admission := by
  induction r with
  | nil h =>
    obtain rfl := h
    exact ⟨fun _ _ => List.Sublist.refl _, List.forall_mem_nil _⟩
  | snoc _ hstep ih => exact ih.step hstep

/-- The loads that wait at a host with a priority. -/
def pendingAt (s : ResourceLoadScheduler L) (name : HostName) (priority : ResourceLoadPriority) :
    List L :=
  (s.hostNamed name).elim [] fun host => host.requestsPending priority

/-- The queues of the admission control are those of the hosts. -/
theorem Shows.queue_eq {s : ResourceLoadScheduler L} {a : LoadAdmission L} (h : Shows s a)
    (name : HostName) (priority : ResourceLoadPriority) :
    a.queue name priority = pendingAt s name priority := by
  unfold pendingAt
  cases hhost : s.hostNamed name with
  | none => exact (h.absent hhost).pending priority
  | some host =>
    obtain rfl := hostNamed_name hhost
    exact (h.host hhost).pending priority

/-- In every run, the loads that have started at a host with a priority, and then those that still
    wait there, are in the order in which they came; and each load that came has started, still
    waits, or has been removed. -/
theorem loads_start_in_order (url : L → KURL) (documentHolds : L → Bool)
    {s : ResourceLoadScheduler L} {ls : List (Label L)}
    (r : ((ResourceLoadScheduler.system url documentHolds).restrict Promised).Runs ls s) :
    (∀ name priority,
      (Admission.requestsAt (s.started.map toRequest) name priority ++
        pendingAt s name priority).Sublist
      (Admission.requestsAt (arrivals ls) name priority)) ∧
    ∀ request ∈ arrivals ls, request ∈ s.started.map toRequest ∨
      request.client ∈ pendingAt s request.key request.priority ∨
      IsRemoved ls request.client := by
  obtain ⟨a, hruns, hstands⟩ := (simulation url documentHolds).runs r
  obtain ⟨hordered, hkept⟩ := orderly_of_runs hruns
  have hshows := hstands.agrees.shows
  rw [← hshows.started]
  refine ⟨fun name priority => ?_, fun request hrequest => ?_⟩
  · rw [← hshows.queue_eq]
    exact hordered name priority
  · rw [← hshows.queue_eq]
    exact (hkept request hrequest).imp_right (Or.imp_left Admission.mem_queue.mpr)

/-- The loads of the run above start in the order in which they arrived. -/
theorem loads_start_in_order_of_serial : ∃ s : ResourceLoadScheduler Nat,
    (∀ name priority,
      (Admission.requestsAt (s.started.map toRequest) name priority ++
        pendingAt s name priority).Sublist
      (Admission.requestsAt (arrivals serialLoading) name priority)) ∧
    ∀ request ∈ arrivals serialLoading, request ∈ s.started.map toRequest ∨
      request.client ∈ pendingAt s request.key request.priority ∨
      IsRemoved serialLoading request.client := by
  obtain ⟨s, r, -⟩ := exists_serialLoading
  exact ⟨s, loads_start_in_order (fun _ => exampleURL) (fun _ => false) r⟩

/-! ## The places -/

/-- Whether the loader is given to the scheduler after a step, if it was before. -/
def givenAfter (l : L) (given : Bool) : Label L → Bool
  | .scheduleLoad l' _ _ archived _ => given || decide (l' = l) && !archived
  | .addMainResourceLoad l' _ => given || decide (l' = l)
  | .remove l' _ => given && decide (l ≠ l')
  | _ => given

/-- Whether the loader has been given to the scheduler, and not been removed since. -/
def isGiven (ls : List (Label L)) (l : L) : Bool := ls.foldl (givenAfter l) false

/-- What is given and not removed, one step later. -/
theorem isGiven_snoc (ls : List (Label L)) (label : Label L) :
    isGiven (ls ++ [label]) = fun l => givenAfter l (isGiven ls l) label :=
  funext fun _ => List.foldl_append

/-- Each loader has one place at most, and the loaders `given` are those that have one. -/
structure Places (given : L → Bool) (a : LoadAdmission L) : Prop where
  single : a.Single
  idle : ∀ l, a.Idle l ↔ given l = false

/-- Serving moves a client from a queue to a place, so that it keeps one. -/
theorem Places.serves {given : L → Bool} {a a' : Loads L} (h : Places given a.admission)
    (hserves : a.Serves a') : Places given a'.admission :=
  hserves.induct (fun _ _ hnext hplaces => ⟨hplaces.single.take hnext.mem,
    fun l => (Admission.idle_take hnext.mem).trans (hplaces.idle l)⟩) h

/-- Each step changes the places as it changes what is given. -/
theorem Places.step {given : L → Bool} {a a' : Loads L} {label : Label L}
    (h : Places given a.admission) (hstep : a.Step label a') :
    Places (fun l => givenAfter l (given l) label) a'.admission := by
  cases label with
  | scheduleLoad l url priority archived order =>
    obtain ⟨hidle, hstep⟩ := hstep
    -- a load from an archive is not given
    cases archived with
    | true =>
      rw [if_pos rfl] at hstep
      subst hstep
      refine ⟨h.single, fun x => (h.idle x).trans ?_⟩
      rw [givenAfter, Bool.not_true, Bool.and_false, Bool.or_false]
    | false =>
      -- the load was idle and has a request now
      rw [if_neg Bool.false_ne_true] at hstep
      refine Places.serves ⟨h.single.arrive hidle, fun x => ?_⟩ hstep
      rw [Admission.idle_arrive, h.idle, givenAfter, Bool.not_false, Bool.and_true,
        Bool.or_eq_false_iff, decide_eq_false_iff_not]
  | addMainResourceLoad l url =>
    -- the load was idle and has a place now
    obtain ⟨hidle, rfl⟩ := hstep
    refine ⟨h.single.occupy _ hidle, fun x => ?_⟩
    rw [Admission.idle_occupy, h.idle, givenAfter, Bool.or_eq_false_iff, decide_eq_false_iff_not]
  | remove l order =>
    -- the load is removed and is idle
    refine Places.serves ⟨h.single.leave l, fun x => ?_⟩ hstep
    rw [Admission.idle_leave, h.idle, givenAfter, Bool.and_eq_false_iff, decide_eq_false_iff_not,
      not_not]
  | redirect l url =>
    -- a move keeps the place
    obtain ⟨⟨name, hactive⟩, rfl⟩ := hstep
    have hactive := Admission.mem_activeAt.mp hactive
    exact ⟨h.single.move hactive _, fun x => (h.single.idle_move hactive).trans (h.idle x)⟩
  | suspendPostAttachCallbacks =>
    -- the flags and counters have nothing to do with places
    obtain rfl := hstep
    exact h
  | resumePostAttachCallbacks order =>
    refine Places.serves ?_ hstep.2
    exact h
  | servePendingRequests order => exact Places.serves h hstep
  | setSerialLoadingEnabled b =>
    obtain rfl := hstep
    exact h
  | documents documentHolds =>
    obtain rfl := hstep
    exact h

/-- In every run exactly what is given and not removed has a place. -/
theorem places_of_runs {documentHolds : L → Bool} {ls : List (Label L)} {a : Loads L}
    (r : (Loads.system documentHolds).Runs ls a) : Places (isGiven ls) a.admission := by
  induction r with
  | nil h =>
    obtain rfl := h
    refine ⟨⟨List.nodup_nil, fun h => absurd h (Finset.notMem_empty _),
      fun h => absurd h List.not_mem_nil⟩, fun l => iff_of_true (fun k hk => ?_) rfl⟩
    rcases hk with ⟨r, hr, -⟩ | hactive
    · exact List.not_mem_nil hr
    · exact Finset.notMem_empty _ hactive
  | snoc _ hstep ih =>
    rw [isGiven_snoc]
    exact ih.step hstep

/-- A host at which nobody has a place has no requests. -/
theorem View.hasRequests_eq_false {a : LoadAdmission L} {host : HostInformation L} (h : View a host)
    (hidle : ∀ l, a.Idle l) : host.hasRequests = false := by
  have hnone : ∀ l, ¬((∃ p, l ∈ a.queue host.name p) ∨ l ∈ a.activeAt host.name) := fun l =>
    mt Admission.placedAt_iff.mpr (hidle l host.name)
  rw [HostInformation.hasRequests, Bool.or_eq_false_iff, decide_eq_false_iff_not, not_not,
    List.any_eq_false, Finset.card_eq_zero, Finset.eq_empty_iff_forall_notMem]
  constructor
  · intro l hl
    exact hnone l (.inr (h.loading ▸ hl))
  · intro p _
    rw [Bool.not_eq_true', Bool.not_eq_false, List.isEmpty_iff, List.eq_nil_iff_forall_not_mem]
    intro l hl
    exact hnone l (.inl ⟨p, h.pending p ▸ hl⟩)

/-- In every run, the loaders that have a place are those that have been given to the scheduler
    and not been removed since. So when all have been removed, no host has requests, and nothing
    counts against a limit any more. -/
theorem places_are_given_back (url : L → KURL) (documentHolds : L → Bool)
    {s : ResourceLoadScheduler L} {ls : List (Label L)}
    (r : ((ResourceLoadScheduler.system url documentHolds).restrict Promised).Runs ls s) :
    (∀ l, s.holds l = isGiven ls l) ∧
      ((∀ l, isGiven ls l = false) →
        ∀ name host, s.hostNamed name = some host → host.hasRequests = false) := by
  obtain ⟨a, hruns, hstands⟩ := (simulation url documentHolds).runs r
  have hplaces := places_of_runs hruns
  -- a load is idle if and only if it is not given
  have hholds : ∀ l, s.holds l = isGiven ls l := by
    intro l
    have hiff : s.holds l = false ↔ isGiven ls l = false := by
      rw [← hplaces.idle, ← Bool.not_eq_true, holds_iff hstands.agrees.shows, not_exists]
      rfl
    cases hgiven : isGiven ls l with
    | false => exact hiff.mpr hgiven
    | true =>
      rw [← Bool.not_eq_false]
      exact fun hfalse => Bool.false_ne_true ((hiff.mp hfalse).symm.trans hgiven)
  -- without a load that is given no host has a request
  refine ⟨hholds, fun hnone name host hhost => ?_⟩
  exact (hstands.agrees.shows.host hhost).hasRequests_eq_false fun l =>
    (hplaces.idle l).mpr (hnone l)

/-- The other two loads are removed as well. -/
def removedLoads : List (Label Nat) :=
  serialLoading ++ [.remove 3 ["a".toList], .remove 2 ["a".toList]]

/-- All loads are removed at the end, and no host has a request left. -/
theorem places_are_given_back_of_removed : ∃ s : ResourceLoadScheduler Nat,
    s.started.map StartedLoad.resourceLoader = [1, 3, 2] ∧ (∀ l, s.holds l = false) ∧
      ∀ name host, s.hostNamed name = some host → host.hasRequests = false := by
  have hrun : (endOf (fun _ => exampleURL) (fun _ => false) removedLoads).map
      (fun s => s.started.map StartedLoad.resourceLoader) = some [1, 3, 2] := by decide +kernel
  obtain ⟨s, hs, hstarted⟩ := Option.map_eq_some_iff.mp hrun
  have hgiven : ∀ l, isGiven removedLoads l = false := by
    intro l
    simp [isGiven, removedLoads, serialLoading, givenAfter]
    omega
  obtain ⟨hholds, hnone⟩ :=
    places_are_given_back (fun _ => exampleURL) (fun _ => false) (runs_of_endOf hs)
  exact ⟨s, hstarted, fun l => (hholds l).trans (hgiven l), hnone hgiven⟩

end R4.LoadScheduling
