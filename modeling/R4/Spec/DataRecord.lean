import Mathlib.Data.List.ModifyLast
import R4.ForStd.Lts
import R4.Native.DataLog

/-!
# What the time and random logs hold

A run dispatches event actions one after the other, and each makes any number of reads. It
may be a recording or a replay: a read is logged with the value that it returned, whatever
that was. `events` are the event actions in the order of the dispatch history, with the
reads that each made.

## Key results

- `recordInv_step`: every log is, key by key, what the event actions read
- `recordInv_of_reachable`: so it is in every run
-/

namespace R4

variable {O Q D : Type} [DecidableEq Q]

/-- An event action of the dispatch history, and the reads it made. -/
structure DispatchedEvent (D : Type) where
  item : EventActionScheduleItem
  reads : List (Read D)

/-- The string of its descriptor. -/
def DispatchedEvent.text (e : DispatchedEvent D) : StdString := e.item.2.toString

/-- Three logs, of which a kind of read has one. -/
structure DataLogs (Q D : Type) [DecidableEq Q] where
  time : QueueMap Q D
  random : QueueMap Q D
  randomUint32 : QueueMap Q UInt32

namespace DataLogs

/-- The values of a kind under a key, in the order they were logged. -/
def entries (logs : DataLogs Q D) (kind : ReadKind) (key : Q) : List (Read D) :=
  match kind with
  | .time => (logs.time.queue key).map .time
  | .random => (logs.random.queue key).map .random
  | .randomUint32 => (logs.randomUint32.queue key).map .randomUint32

/-- One more value under a key. -/
def push (logs : DataLogs Q D) (key : Q) : Read D → DataLogs Q D
  | .time value => { logs with time := logs.time.push key value }
  | .random value => { logs with random := logs.random.push key value }
  | .randomUint32 value => { logs with randomUint32 := logs.randomUint32.push key value }

/-- A value is put at the end of the queue of its key. -/
theorem map_queue_push {α : Type} (f : α → Read D) (m : QueueMap Q α) (key key' : Q) (value : α) :
    ((m.push key value).queue key').map f =
      (m.queue key').map f ++ if key = key' then [f value] else [] := by
  rw [QueueMap.queue_push]
  by_cases hkey : key = key'
  · rw [if_pos hkey.symm, if_pos hkey, List.map_append, List.map_singleton]
  · rw [if_neg (Ne.symm hkey), if_neg hkey, List.append_nil]

/-- A value is put at the end of the entries of its kind and key. -/
theorem entries_push (logs : DataLogs Q D) (key key' : Q) (value : Read D) (kind : ReadKind) :
    (logs.push key value).entries kind key' =
      logs.entries kind key' ++ if value.kind = kind ∧ key = key' then [value] else [] := by
  cases value <;> cases kind <;> simp [push, entries, Read.kind, map_queue_push]

end DataLogs

/-- What event actions with a key read of a kind. -/
def readBy (fromStdString : StdString → Q) (events : List (DispatchedEvent D)) (kind : ReadKind)
    (key : Q) : List (Read D) :=
  (events.filter fun e => fromStdString e.text = key).flatMap fun e =>
    e.reads.filter fun r => r.kind = kind

/-- A state of a run that logs. -/
structure DataRecord (O Q D : Type) [DecidableEq Q] where
  register : EventActionRegister O
  time : TimeProviderBase Q D
  random : RandomProviderBase Q D
  events : List (DispatchedEvent D)

namespace DataRecord

/-- The logs of the two providers. -/
def logs (r : DataRecord O Q D) : DataLogs Q D :=
  ⟨r.time.log, r.random.doubleLog, r.random.unsignedLog⟩

/-- The labels of a run. An event action is started, reads and is finished; one that was
    offered to a provider in vain reads nothing; and the rest of the register changes. -/
inductive Label (O D : Type) where
  | start (id originalId : EventActionId) (d : EventActionDescriptor)
  | read (value : Read D)
  | finish (originalId : EventActionId)
  | decline (originalId : EventActionId)
  | environment (register : EventActionRegister O)

/-- The last event action made one more read. -/
def addRead (value : Read D) (events : List (DispatchedEvent D)) : List (DispatchedEvent D) :=
  events.modifyLast fun e => { e with reads := e.reads ++ [value] }

/-- One step. -/
def exec (fromStdString : StdString → Q) (r : DataRecord O Q D) :
    Label O D → Option (DataRecord O Q D)
  | .start id originalId d =>
    if d.isNull = false ∧ r.register.isDispatching = false then
      some { r with
        register := r.register.eventActionDispatchStart id originalId d
        events := r.events ++ [⟨(id, d), []⟩] }
    else none
  | .read value =>
    let events := if r.register.isDispatching then addRead value r.events else r.events
    match value with
    | .time v => some { r with
        time := r.time.logTimeAccess fromStdString r.register v
        events := events }
    | .random v => some { r with
        random := r.random.logRandomAccess fromStdString r.register v
        events := events }
    | .randomUint32 v => some { r with
        random := r.random.logRandomAccessUint32 fromStdString r.register v
        events := events }
  | .finish originalId =>
    if r.register.isDispatching then
      some { r with register := r.register.eventActionDispatchEnd true originalId }
    else none
  | .decline originalId =>
    if r.register.isDispatching = true ∧
        (r.events.getLast?.map fun e => e.reads.isEmpty) = some true then
      some { r with
        register := r.register.eventActionDispatchEnd false originalId
        events := r.events.dropLast }
    else none
  | .environment register =>
    if register.isDispatching = r.register.isDispatching ∧
        register.dispatchHistory = r.register.dispatchHistory then
      some { r with register := register }
    else none

/-- The runs that log. -/
def runs (fromStdString : StdString → Q) : Lts (DataRecord O Q D) (Label O D) where
  init r := r = ⟨EventActionRegister.empty, ⟨∅⟩, ⟨∅, ∅⟩, []⟩
  step r l r' := r.exec fromStdString l = some r'

/-! ## The invariant -/

/-- What holds in every state. -/
structure RecordInv (fromStdString : StdString → Q) (r : DataRecord O Q D) : Prop where
  history : r.register.dispatchHistory = r.events.map DispatchedEvent.item
  notNull : ∀ e ∈ r.events, e.item.2.isNull = false
  dispatching : r.register.isDispatching = true → r.events ≠ []
  logged : ∀ kind key, r.logs.entries kind key = readBy fromStdString r.events kind key

/-- What is read by two lists of events, one behind the other. -/
theorem readBy_append (fromStdString : StdString → Q) (events more : List (DispatchedEvent D))
    (kind : ReadKind) (key : Q) :
    readBy fromStdString (events ++ more) kind key =
      readBy fromStdString events kind key ++ readBy fromStdString more kind key := by
  simp only [readBy, List.filter_append, List.flatMap_append]

/-- What one event reads. -/
theorem readBy_singleton (fromStdString : StdString → Q) (e : DispatchedEvent D)
    (kind : ReadKind) (key : Q) :
    readBy fromStdString [e] kind key =
      if fromStdString e.text = key then e.reads.filter fun r => r.kind = kind else [] := by
  simp only [readBy, List.filter_cons, List.filter_nil, decide_eq_true_eq]
  split
  · exact List.flatMap_singleton _ _
  · rfl

/-- A read changes the logs, unless no event action is being dispatched. -/
theorem exec_read {fromStdString : StdString → Q} {r r' : DataRecord O Q D} {value : Read D}
    (h : r.exec fromStdString (.read value) = some r') :
    r'.register = r.register ∧
      r'.events = (if r.register.isDispatching then addRead value r.events else r.events) ∧
      r'.logs = if r.register.currentEventActionDispatching.isNull then r.logs
        else r.logs.push (fromStdString r.register.currentEventActionDispatching.toString)
          value := by
  cases value <;>
  · obtain rfl := Option.some.inj h
    refine ⟨rfl, rfl, ?_⟩
    simp only [logs, TimeProviderBase.logTimeAccess, RandomProviderBase.logRandomAccess,
      RandomProviderBase.logRandomAccessUint32, logAccess]
    split <;> rfl

/-- The event action that is being dispatched is the last one of the run. -/
theorem RecordInv.current {fromStdString : StdString → Q} {r : DataRecord O Q D}
    (inv : RecordInv fromStdString r) (h : r.register.isDispatching = true) :
    ∃ events e, r.events = events ++ [e] ∧
      r.register.currentEventActionDispatching = e.item.2 := by
  obtain ⟨events, e, hevents⟩ := List.eq_nil_or_concat'  r.events |>.resolve_left
    (inv.dispatching h)
  refine ⟨events, e, hevents, ?_⟩
  rw [EventActionRegister.currentEventActionDispatching, if_pos h, inv.history, hevents,
    List.map_append, List.map_singleton, List.getLast?_concat]

/-- A read of the event action that is being dispatched. -/
theorem recordInv_read {fromStdString : StdString → Q} {r r' : DataRecord O Q D}
    (inv : RecordInv fromStdString r) (hdispatching : r.register.isDispatching = true)
    {value : Read D} (h : r.exec fromStdString (.read value) = some r') :
    RecordInv fromStdString r' := by
  obtain ⟨hregister, hevents', hlogs⟩ := exec_read h
  -- the last event action is the one that reads, and its key is that of the log
  obtain ⟨events, e, hevents, hcurrent⟩ := inv.current hdispatching
  have hnull : e.item.2.isNull = false :=
    inv.notNull e (hevents ▸ List.mem_append_right _ List.mem_cons_self)
  rw [if_pos hdispatching, addRead, hevents, List.modifyLast_concat] at hevents'
  rw [hcurrent, if_neg (by rw [hnull]; decide)] at hlogs
  refine ⟨?_, fun x hx => ?_, fun _ => by simp [hevents'], fun kind key => ?_⟩
  · rw [hregister, inv.history, hevents, hevents', List.map_append, List.map_append]
    rfl
  · rw [hevents'] at hx
    rcases List.mem_append.mp hx with hx | hx
    · exact inv.notNull x (hevents ▸ List.mem_append_left _ hx)
    · rw [List.mem_singleton.mp hx]
      exact hnull
  · rw [hlogs, DataLogs.entries_push, inv.logged, hevents, hevents', readBy_append, readBy_append,
      readBy_singleton, readBy_singleton, List.append_assoc]
    congr 1
    simp only [DispatchedEvent.text]
    by_cases hkey : fromStdString e.item.2.toString = key
    · simp only [hkey, if_true, and_true, List.filter_append, List.filter_cons, List.filter_nil,
        decide_eq_true_eq]
    · simp only [hkey, if_false, and_false, List.append_nil]

/-- Every step keeps the logs to what the event actions read. -/
theorem recordInv_step {fromStdString : StdString → Q} {r r' : DataRecord O Q D} {l : Label O D}
    (inv : RecordInv fromStdString r) (h : r.exec fromStdString l = some r') :
    RecordInv fromStdString r' := by
  cases l with
  | start id originalId d =>
    simp only [exec] at h
    split at h
    · rename_i hd
      obtain rfl := Option.some.inj h
      refine ⟨?_, fun e he => ?_, fun _ => by simp, fun kind key => ?_⟩
      · simp only [EventActionRegister.eventActionDispatchStart, inv.history, List.map_append,
          List.map_singleton]
      · rcases List.mem_append.mp he with he | he
        · exact inv.notNull e he
        · rw [List.mem_singleton.mp he]
          exact hd.1
      · rw [readBy_append, readBy_singleton, ← inv.logged]
        simp [logs]
    · exact nomatch h
  | read value =>
    by_cases hdispatching : r.register.isDispatching = true
    · exact recordInv_read inv hdispatching h
    · -- outside an event action a read is not logged
      obtain ⟨hregister, hevents, hlogs⟩ := exec_read h
      rw [if_neg hdispatching] at hevents
      have hnull : r.register.currentEventActionDispatching.isNull = true := by
        rw [EventActionRegister.currentEventActionDispatching, if_neg hdispatching]
        rfl
      rw [if_pos hnull] at hlogs
      refine ⟨?_, ?_, ?_, ?_⟩
      · rw [hregister, hevents]
        exact inv.history
      · rw [hevents]
        exact inv.notNull
      · rw [hregister, hevents]
        exact inv.dispatching
      · rw [hlogs, hevents]
        exact inv.logged
  | finish originalId =>
    simp only [exec] at h
    split at h
    · obtain rfl := Option.some.inj h
      exact ⟨inv.history, inv.notNull, (fun h => nomatch h), inv.logged⟩
    · exact nomatch h
  | decline originalId =>
    simp only [exec] at h
    split at h
    · rename_i hlast
      obtain rfl := Option.some.inj h
      obtain ⟨events, e, hevents, -⟩ := inv.current hlast.1
      -- what is undone has read nothing, so no log has an entry of it
      have hreads : e.reads = [] := by simpa [hevents] using hlast.2
      refine ⟨?_, ?_, (fun h => nomatch h), fun kind key => ?_⟩
      · simp only [EventActionRegister.eventActionDispatchEnd, inv.history, hevents]
        simp
      · intro x hx
        exact inv.notNull x (List.dropLast_subset _ hx)
      · have hlogged := inv.logged kind key
        rw [hevents, readBy_append, readBy_singleton, hreads] at hlogged
        rw [hevents, List.dropLast_concat]
        simpa [logs] using hlogged
    · exact nomatch h
  | environment register =>
    simp only [exec] at h
    split at h
    · rename_i hsame
      obtain rfl := Option.some.inj h
      exact ⟨hsame.2.trans inv.history, inv.notNull, fun h => inv.dispatching (hsame.1 ▸ h),
        inv.logged⟩
    · exact nomatch h

/-- In every run what is recorded is what was read. -/
theorem recordInv_of_reachable {fromStdString : StdString → Q} {r : DataRecord O Q D}
    (h : (runs fromStdString).Reachable r) : RecordInv fromStdString r := by
  refine Lts.Reachable.invariant (P := RecordInv fromStdString) ?_ ?_ h
  · rintro _ rfl
    refine ⟨rfl, (fun _ h => nomatch h), (fun h => nomatch h), fun kind key => ?_⟩
    cases kind <;> simp [logs, DataLogs.entries, readBy]
  · intro _ _ _ _ inv h
    exact recordInv_step inv h

end DataRecord

end R4
