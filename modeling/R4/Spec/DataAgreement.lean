import R4.Spec.DataReplay
import R4.Spec.ScheduleFile

/-!
# A replay returns the values of the run before it

The run before wrote its dispatch history and its logs. A strict replay reads the history
back, in its own order or in another, and its event actions make the reads that they made
before.

## Key results

- `dataInv_of_reachable`: the invariant holds in every strict replay of a history
- `time_and_random_replayed`: every read returns the value that was logged for it
-/

namespace R4.DataReplay

open ReplayScheduler

variable {O U Q D E : Type} {fromStdString : StdString → Q}

/-! ## The schedule of a history -/

/-- An order in which the event actions are replayed: their own, or any if no two of them
    share a string, and no two of the strings a key. -/
def IsOrder (fromStdString : StdString → Q) (events order : List (DispatchedEvent D)) : Prop :=
  order = events ∨
    (order.Perm events ∧ (events.map DispatchedEvent.text).Nodup ∧
      ∀ e ∈ events, ∀ e' ∈ events, fromStdString e.text = fromStdString e'.text → e.text = e'.text)

/-- An order has the events once each. -/
theorem IsOrder.perm {events order : List (DispatchedEvent D)}
    (h : IsOrder fromStdString events order) : order.Perm events := by
  rcases h with rfl | ⟨hperm, -, -⟩
  · exact .refl _
  · exact hperm

variable [DecidableEq Q]

/-- The event actions of `order`, read back from their schedule file. A string with a newline
    in it takes two lines, and what is read is then something else. -/
structure Schedules (order : List (DispatchedEvent D)) (items : List EventActionScheduleItem) :
    Prop where
  file : EventActionSchedule.deserialize
    (EventActionSchedule.serialize (order.map DispatchedEvent.item)) = some items
  texts : items.map (fun item => item.2.toString) = order.map DispatchedEvent.text
  notNull : ∀ item ∈ items, item.2.isNull = false

/-- An order without newlines can be written as a schedule. -/
theorem exists_schedules {order : List (DispatchedEvent D)} (h : ∀ e ∈ order, '\n' ∉ e.text) :
    ∃ items, Schedules order items := by
  obtain ⟨items, hfile, htexts, hnull⟩ :=
    EventActionSchedule.deserialize_serialize (order.map DispatchedEvent.item)
      (List.forall_mem_map.mpr h)
  exact ⟨items, hfile, by rw [htexts, List.map_map]; rfl, hnull⟩

/-- At the start every item is one for its event action. -/
theorem Schedules.isEvent {order : List (DispatchedEvent D)} {items : List EventActionScheduleItem}
    (h : Schedules order items) :
    List.Forall₂ (IsEvent order) (items.zipIdx.map fun e => ⟨e.2, e.1.1, e.1.2⟩) order := by
  have hlength : items.length = order.length := by
    have := congrArg List.length h.texts
    simpa using this
  refine List.forall₂_iff_get.mpr ⟨by simpa using hlength, fun i hi hi' => ?_⟩
  have hitem : i < items.length := hlength ▸ hi'
  have hmem : items[i] ∈ items := List.getElem_mem hitem
  have htext : items[i].2.toString = order[i].text := by
    have := congrArg (fun texts => texts[i]?) h.texts
    simpa [List.getElem?_eq_getElem hitem, List.getElem?_eq_getElem hi'] using this
  have hpatched := EventActionSchedule.deserialize_isPatched h.file hmem
  simp only [List.get_eq_getElem, List.getElem_map, List.getElem_zipIdx, Nat.zero_add]
  refine ⟨h.notNull _ hmem, ?_, List.getElem?_eq_getElem hi'⟩
  rw [EventActionDescriptor.toUnpatchedString, if_neg (by rw [hpatched]; decide), htext]

/-- If no two event actions share a key, their order does not matter to what a key holds. -/
theorem readBy_perm {order events : List (DispatchedEvent D)} (h : order.Perm events)
    (hdistinct : (events.map fun e => fromStdString e.text).Nodup) (kind : ReadKind) (key : Q) :
    readBy fromStdString order kind key = readBy fromStdString events kind key := by
  have hperm := h.filter fun e => decide (fromStdString e.text = key)
  have hone : ((events.filter fun e => fromStdString e.text = key).map
      fun e => fromStdString e.text).Nodup :=
    hdistinct.sublist (List.filter_sublist.map _)
  -- one event action at most has the key, so there is nothing to order
  unfold readBy
  generalize hfilter : (events.filter fun e => decide (fromStdString e.text = key)) = found
    at hperm hone ⊢
  match found, hperm, hone, hfilter with
  | [], hperm, _, _ => rw [hperm.eq_nil]
  | [e], hperm, _, _ => rw [List.perm_singleton.mp hperm]
  | e :: e' :: others, _, hone, hfilter =>
    have hkey : ∀ x ∈ e :: e' :: others, fromStdString x.text = key := by
      intro x hx
      rw [← hfilter] at hx
      simpa using (List.mem_filter.mp hx).2
    rw [List.map_cons, List.map_cons, hkey e (by simp), hkey e' (by simp)] at hone
    exact absurd List.mem_cons_self (List.nodup_cons.mp hone).1

/-- What is read under a key does not depend on the order. -/
theorem IsOrder.readBy {events order : List (DispatchedEvent D)}
    (h : IsOrder fromStdString events order) (kind : ReadKind) (key : Q) :
    readBy fromStdString order kind key = readBy fromStdString events kind key := by
  rcases h with rfl | ⟨hperm, hdistinct, hinjective⟩
  · rfl
  · refine readBy_perm hperm ?_ kind key
    have hkeys : (events.map fun e => fromStdString e.text) =
        (events.map DispatchedEvent.text).map fromStdString := by
      rw [List.map_map]
      rfl
    rw [hkeys]
    refine List.Nodup.map_on ?_ hdistinct
    intro t ht t' ht' hkey
    obtain ⟨e, he, rfl⟩ := List.mem_map.mp ht
    obtain ⟨e', he', rfl⟩ := List.mem_map.mp ht'
    exact hinjective e he e' he' hkey

/-! ## Replays of a history -/

/-- The invariant holds in every strict replay of the history. -/
theorem dataInv_of_reachable {r : DataRecord O Q D} {order : List (DispatchedEvent D)}
    (hrecord : DataRecord.RecordInv fromStdString r)
    (horder : IsOrder fromStdString r.events order) {items : List EventActionScheduleItem}
    (hitems : Schedules order items) {time : TimeProviderReplay Q D}
    (htime : TimeProviderReplay.ofFile r.time.writeLogFile = some time)
    {random : RandomProviderReplay Q D}
    (hrandom : RandomProviderReplay.ofFile r.random.writeLogFile = some random)
    {p : DataEnv U D E} {s : ReplayScheduler (DataWorld U Q D E)}
    (h : ((runs p fromStdString items time random).restrict
      (SameReads p fromStdString order)).Reachable s) :
    ∃ k, DataInv fromStdString order k s := by
  refine Lts.Reachable.invariant (P := fun s => ∃ k, DataInv fromStdString order k s) ?_ ?_ h
  · rintro _ ⟨schedulerTimeout, register, rest, rfl⟩
    obtain rfl := Option.some.inj htime
    obtain rfl := Option.some.inj hrandom
    refine ⟨0, rfl, rfl, .inl ⟨rfl, rfl, rfl⟩, hitems.isEvent, rfl, rfl, fun kind key => ?_⟩
    rw [List.drop_zero, horder.readBy]
    exact hrecord.logged kind key
  · -- every step keeps the invariant, with `k` event actions replayed so far
    rintro _ _ _ - ⟨k, inv⟩ ⟨hsame, hstep⟩
    exact dataInv_step inv hsame hstep

/-- A run that logs writes its dispatch history, which can be read back where no descriptor
    has a newline, and its logs. In every strict replay of the history in which the event
    actions make the reads that they made before, the reads so far returned the values that
    were logged for the event actions so far, and the next one will not end the process for
    want of a value. -/
theorem time_and_random_replayed {r : DataRecord O Q D} {order : List (DispatchedEvent D)}
    (hr : (DataRecord.runs fromStdString).Reachable r)
    (horder : IsOrder fromStdString r.events order) :
    r.register.dispatchHistory = r.events.map DispatchedEvent.item ∧
    ((∀ e ∈ r.events, '\n' ∉ e.text) → ∃ items, Schedules order items) ∧
    ∀ items time random, Schedules order items →
      TimeProviderReplay.ofFile r.time.writeLogFile = some time →
      RandomProviderReplay.ofFile r.random.writeLogFile = some random →
      ∀ (p : DataEnv U D E) (s : ReplayScheduler (DataWorld U Q D E)),
        ((runs p fromStdString items time random).restrict
          (SameReads p fromStdString order)).Reachable s →
        s.world.values = (order.take s.consumed.length).flatMap DispatchedEvent.reads ∧
        (s.mode = .strict → SameReads p fromStdString order s .execute →
          ∀ x rest d, s.schedule = x :: rest →
            patchDescriptor (p.replayEnv fromStdString) x.descriptor (worldFor p fromStdString s) =
              some d →
            ∃ result, (worldFor p fromStdString s).runEventAction p fromStdString
              (s.providers.setCurrentDescriptorString d.toUnpatchedString) s.nextEventActionId
              x.id d = .ok result) := by
  have hrecord := DataRecord.recordInv_of_reachable hr
  refine ⟨hrecord.history, fun hlines => ?_, ?_⟩
  · exact exists_schedules fun e he => hlines e (horder.perm.mem_iff.mp he)
  · intro items time random hitems htime hrandom p s hs
    obtain ⟨k, inv⟩ := dataInv_of_reachable hrecord horder hitems htime hrandom hs
    refine ⟨by rw [inv.consumed]; exact inv.values, fun hstrict hsame x rest d hx hd => ?_⟩
    -- the next reads are those at the front of the logs
    obtain ⟨found, w, hrun, -⟩ := runEventAction_strict inv hstrict hsame hx hd
    exact ⟨(found, w), hrun⟩

/-- A page sets a timer that fires twice, and both event actions of the timer read values. -/
def twoFirings : List (DataRecord.Label Unit Nat) :=
  let load := EventActionDescriptor.make .other "BrowserLoadUrl".toList "u".toList
  let fired := EventActionDescriptor.make .timer "DOMTimer".toList "u,1,2,3,4,5".toList
  [.start 4 4 load, .finish 4, .start 5 5 fired, .read (.time 10), .read (.random 20), .finish 5,
    .start 6 6 fired, .read (.time 11), .read (.randomUint32 30), .finish 6]

/-- The page in the replay, where the ids start elsewhere. -/
def twoFiringsEnv : DataEnv Unit Nat EventActionId where
  takes register _ _ :=
    match register.dispatchHistory.length with
    | 0 => some .done
    | 1 => some (.read (.time 0) fun _ => .read (.random 0) fun _ => .done)
    | _ => some
      (.read (.time 0) fun _ => .change id fun _ => .read (.randomUint32 0) fun _ => .done)
  hbAllocateEventActionId id := (id, id + 1)
  actionLogStrictMode _ id := id
  warningCollectorSetCurrentEventAction _ id := id
  warningCollectorReport _ _ _ id := id
  score _ _ := 0

/-- Both event actions of the timer have one key, and neither runs under it: the id of the
    page in the replay is patched into their descriptors. -/
theorem time_and_random_replayed_of_two :
    ∃ (r : DataRecord Unit StdString Nat) (items : List EventActionScheduleItem)
      (time : TimeProviderReplay StdString Nat) (random : RandomProviderReplay StdString Nat)
      (s : ReplayScheduler (DataWorld Unit StdString Nat EventActionId)),
      (DataRecord.runs id).Reachable r ∧ Schedules r.events items ∧
      ((runs twoFiringsEnv id items time random).restrict
        (SameReads twoFiringsEnv id r.events)).Reachable s ∧
      s.consumed.map (fun x => x.descriptor.params) =
        ["u".toList, "u,1,2,3,50,5".toList, "u,1,2,3,50,5".toList] ∧
      s.world.values = [.time 10, .random 20, .time 11, .randomUint32 30] := by
  -- the record run reads times and random numbers in two firings
  let r₀ : DataRecord Unit StdString Nat := ⟨EventActionRegister.empty, ⟨∅⟩, ⟨∅, ∅⟩, []⟩
  let r := (twoFirings.foldlM (DataRecord.exec id) r₀).get (by decide +kernel)
  have hreach : (DataRecord.runs id).Reachable r :=
    Lts.Reachable.foldlM (fun _ _ _ h => h) (.init rfl) (Option.some_get _).symm
  obtain ⟨-, hfile, hreplay⟩ :=
    time_and_random_replayed (U := Unit) (E := EventActionId) hreach (.inl rfl)
  let items : List EventActionScheduleItem :=
    [(4, .make .other "BrowserLoadUrl".toList "u".toList),
      (5, .make .timer "DOMTimer".toList "u,1,2,3,4,5".toList),
      (6, .make .timer "DOMTimer".toList "u,1,2,3,4,5".toList)]
  -- its file is read as three items
  have hitems : Schedules r.events items := by
    obtain ⟨items', hitems'⟩ := hfile (by decide +kernel)
    have hfile' : EventActionSchedule.deserialize (EventActionSchedule.serialize
        (r.events.map DispatchedEvent.item)) = some items := by decide +kernel
    obtain rfl : items' = items := Option.some.inj (hitems'.file.symm.trans hfile')
    exact hitems'
  -- the replay starts with the logs of the record run
  let time : TimeProviderReplay StdString Nat := ⟨⟨∅⟩, r.time.log⟩
  let random : RandomProviderReplay StdString Nat :=
    ⟨⟨∅, ∅⟩, r.random.doubleLog, r.random.unsignedLog⟩
  let s₀ : ReplayScheduler (DataWorld Unit StdString Nat EventActionId) :=
    ReplayScheduler.init (twoFiringsEnv.replayEnv id) items 100
      ⟨EventActionRegister.empty, time, random, [], 50⟩
  -- only steps with the same reads are taken
  let exec' : ReplayScheduler (DataWorld Unit StdString Nat EventActionId) →
      Label Unit EventActionId → Option _ := fun s l =>
    if SameReads twoFiringsEnv id r.events s l then exec twoFiringsEnv id s l else none
  -- the three event actions are replayed, the timers with their new parents
  have hrun : (([.execute, .execute, .execute].foldlM exec' s₀).map fun s =>
      s.consumed.map fun x => x.descriptor.params) =
        some ["u".toList, "u,1,2,3,50,5".toList, "u,1,2,3,50,5".toList] := by decide +kernel
  obtain ⟨s, hs, hconsumed⟩ := Option.map_eq_some_iff.mp hrun
  have hexec : ∀ s l s', exec' s l = some s' →
      ((runs twoFiringsEnv id items time random).restrict
        (SameReads twoFiringsEnv id r.events)).step s l s' := by
    intro s l s' h
    simp only [exec'] at h
    split at h
    · exact ⟨‹_›, h⟩
    · exact nomatch h
  have hreplayed := Lts.Reachable.foldlM hexec (.init ⟨100, _, 50, rfl⟩) hs
  -- at the end everything was read as recorded
  refine ⟨r, items, time, random, s, hreach, hitems, hreplayed, hconsumed, ?_⟩
  rw [(hreplay items time random hitems rfl rfl twoFiringsEnv s hreplayed).1]
  have hlength := congrArg List.length hconsumed
  rw [List.length_map] at hlength
  rw [hlength]
  decide +kernel

end R4.DataReplay
