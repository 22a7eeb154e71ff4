import Mathlib.Data.List.Nodup
import R4.Native.EventAttachLog

/-!
# The attached events are pulled in order

The log of attached events is a stable priority queue: the oldest addition of the smallest type
comes first. Every addition to the log is given a number here, and a call takes away the additions
that are pulled or removed by it. The queues of the log are those additions that are left, so a
target that has been removed can only be pulled after it has been added again.

## Key results

- `inv_exec`: the queues hold what is pending, and every addition is accounted for once
- `Inv.first_of_pullEvent`: an event is pulled for the first addition that is pending
- `stable_priority_queue`: what holds after every sequence of calls
-/

namespace R4

/-- An addition to the log, with the number of additions before it. -/
structure Addition (O : Type) where
  serial : Nat
  type : EventAttachType
  eventTarget : O
deriving DecidableEq

/-- The type and the target that are added. -/
def Addition.pair {O : Type} (a : Addition O) : EventAttachType × O := (a.type, a.eventTarget)

/-- The log, what was added to it, and the additions that are pending, that were returned, and
    that were removed. `stale` is what was returned with no such addition pending. -/
structure AttachRun (O : Type) where
  log : EventAttachLog O
  added : List (EventAttachType × O)
  pending : List (Addition O)
  returned : List (Addition O)
  removed : List (Addition O)
  stale : List (EventAttachType × O)

namespace AttachRun

variable {O : Type}

/-- The calls of the log. -/
inductive Call (O : Type) where
  | addEvent (eventTarget : O) (type : EventAttachType)
  | removeEventTarget (eventTarget : O)
  | pullEvent

/-- The state before the first call. -/
def init : AttachRun O := ⟨.init, [], [], [], [], []⟩

/-- One call. What is pulled is the oldest pending addition with this type and target. -/
def exec [DecidableEq O] (r : AttachRun O) : Call O → AttachRun O
  | .addEvent eventTarget type =>
    { r with
      log := r.log.addEvent eventTarget type
      added := r.added ++ [(type, eventTarget)]
      pending := r.pending ++ [⟨r.added.length, type, eventTarget⟩] }
  | .removeEventTarget eventTarget =>
    { r with
      log := r.log.removeEventTarget eventTarget
      pending := r.pending.filter fun a => a.eventTarget ≠ eventTarget
      removed := r.removed ++ r.pending.filter fun a => a.eventTarget = eventTarget }
  | .pullEvent =>
    match r.log.pullEvent with
    | none => r
    | some (type, eventTarget, log) =>
      match r.pending.find? fun a => a.pair = (type, eventTarget) with
      | none => { r with log := log, stale := r.stale ++ [(type, eventTarget)] }
      | some a =>
        { r with log := log, pending := r.pending.erase a, returned := r.returned ++ [a] }

/-- A sequence of calls. -/
def run [DecidableEq O] (r : AttachRun O) (calls : List (Call O)) : AttachRun O :=
  calls.foldl exec r

/-- Every addition with its number. -/
def additions (r : AttachRun O) : List (Addition O) :=
  r.added.zipIdx.map fun p => ⟨p.2, p.1.1, p.1.2⟩

/-- The first addition to be served: none has a smaller type, and none of its type is older. -/
def First (r : AttachRun O) (a : Addition O) : Prop :=
  a ∈ r.pending ∧ ∀ b ∈ r.pending,
    a.type.toNat < b.type.toNat ∨ a.type = b.type ∧ a.serial ≤ b.serial

/-- What holds after every sequence of calls. -/
structure Inv (r : AttachRun O) : Prop where
  queues : ∀ type, r.log.queues type =
    (r.pending.filter fun a => a.type = type).map Addition.eventTarget
  oldestFirst : r.pending.Pairwise fun a b => a.serial < b.serial
  accounted : (r.returned ++ (r.removed ++ r.pending)).Perm r.additions
  stale : r.stale = []

/-- At the start nothing is pending. -/
theorem inv_init : Inv (init : AttachRun O) where
  queues _ := rfl
  oldestFirst := .nil
  accounted := .nil
  stale := rfl

/-! ## The additions -/

/-- The additions are numbered in their order. -/
theorem additions_append (r : AttachRun O) (type : EventAttachType) (eventTarget : O) :
    (r.added ++ [(type, eventTarget)]).zipIdx.map (fun p => (⟨p.2, p.1.1, p.1.2⟩ : Addition O)) =
      r.additions ++ [⟨r.added.length, type, eventTarget⟩] := by
  rw [List.zipIdx_append, List.map_append, additions]
  simp

/-- The number of an addition is below that of all of them. -/
theorem serial_lt {r : AttachRun O} {a : Addition O} (h : a ∈ r.additions) :
    a.serial < r.added.length := by
  obtain ⟨p, hp, rfl⟩ := List.mem_map.mp h
  exact List.snd_lt_of_mem_zipIdx hp

/-- No addition occurs twice. -/
theorem nodup_additions (r : AttachRun O) : r.additions.Nodup := by
  have hserial : (r.additions.map Addition.serial).Nodup := by
    rw [additions, List.map_map]
    show (r.added.zipIdx.map Prod.snd).Nodup
    rw [List.zipIdx_map_snd]
    exact List.nodup_range'
  exact hserial.of_map _

/-- The additions without their numbers. -/
theorem map_pair_additions (r : AttachRun O) : r.additions.map Addition.pair = r.added := by
  rw [additions, List.map_map]
  show r.added.zipIdx.map Prod.fst = r.added
  exact List.zipIdx_map_fst 0 r.added

namespace Inv

variable {r : AttachRun O}

/-- What is pending was added. -/
theorem mem_additions (inv : Inv r) {a : Addition O} (h : a ∈ r.pending) : a ∈ r.additions :=
  inv.accounted.subset (List.mem_append_right _ (List.mem_append_right _ h))

/-- An addition that was removed is not returned. -/
theorem not_returned_of_removed (inv : Inv r) {a : Addition O} (h : a ∈ r.removed) :
    a ∉ r.returned := by
  have hnodup := inv.accounted.nodup_iff.mpr r.nodup_additions
  intro hreturned
  exact List.disjoint_of_nodup_append hnodup hreturned (List.mem_append_left _ h)

/-- Nothing is returned more often than it was added. -/
theorem count_returned_le [DecidableEq O] (inv : Inv r) (p : EventAttachType × O) :
    (r.returned.map Addition.pair).count p ≤ r.added.count p := by
  have hcount := (inv.accounted.map Addition.pair).count_eq p
  rw [map_pair_additions, List.map_append, List.count_append] at hcount
  omega

/-- An event is pulled for the first addition that is pending. -/
theorem first_of_pullEvent (inv : Inv r) {type : EventAttachType} {eventTarget : O}
    {log : EventAttachLog O} (h : r.log.pullEvent = some (type, eventTarget, log)) :
    ∃ before a after, r.pending = before ++ a :: after ∧ a.pair = (type, eventTarget) ∧
      (∀ b ∈ before, b.type ≠ type) ∧ r.First a := by
  obtain ⟨⟨smaller, larger, hall, hsmaller⟩, hqueue, -⟩ := EventAttachLog.pullFrom_eq_some h
  rw [inv.queues, List.map_eq_cons_iff] at hqueue
  obtain ⟨a, rest, hfilter, htarget, -⟩ := hqueue
  obtain ⟨before, after, hpending, hbefore, htype, -⟩ := List.filter_eq_cons_iff.mp hfilter
  have htype : a.type = type := of_decide_eq_true htype
  have hbefore : ∀ b ∈ before, b.type ≠ type := fun b hb => by simpa using hbefore b hb
  refine ⟨before, a, after, hpending, by rw [Addition.pair, htype, htarget], hbefore,
    by rw [hpending]; simp, fun b hb => ?_⟩
  -- the queue of the type of `b` is not empty, so the type does not come before
  have hnot : b.type ∉ smaller := by
    intro hmem
    have hempty := hsmaller b.type hmem
    rw [inv.queues, List.map_eq_nil_iff, List.filter_eq_nil_iff] at hempty
    exact hempty b hb (decide_eq_true rfl)
  have hmem := EventAttachType.mem_all b.type
  have hpairwise := EventAttachType.pairwise_all
  rw [hall] at hmem hpairwise
  rcases List.mem_cons.mp ((List.mem_append.mp hmem).resolve_left hnot) with heq | hlarger
  · right
    refine ⟨htype.trans heq.symm, ?_⟩
    have hsorted := inv.oldestFirst
    rw [hpending] at hb hsorted
    rcases List.mem_append.mp hb with hb | hb
    · exact absurd heq (hbefore b hb)
    · rcases List.mem_cons.mp hb with rfl | hb
      · exact Nat.le_refl _
      · exact Nat.le_of_lt (List.rel_of_pairwise_cons (List.pairwise_append.mp hsorted).2.1 hb)
  · left
    rw [htype]
    exact List.rel_of_pairwise_cons (List.pairwise_append.mp hpairwise).2.1 hlarger

/-- Nothing is pulled only as nothing is pending. -/
theorem pending_of_pullEvent (inv : Inv r) (h : r.log.pullEvent = none) : r.pending = [] := by
  refine List.eq_nil_iff_forall_not_mem.mpr fun a ha => ?_
  have hempty := EventAttachLog.pullFrom_eq_none h a.type (EventAttachType.mem_all a.type)
  rw [inv.queues, List.map_eq_nil_iff, List.filter_eq_nil_iff] at hempty
  exact hempty a ha (decide_eq_true rfl)

end Inv

/-! ## The calls -/

variable [DecidableEq O] {r : AttachRun O}

/-- Adding an event keeps the account. -/
theorem inv_addEvent (inv : Inv r) (eventTarget : O) (type : EventAttachType) :
    Inv (r.exec (.addEvent eventTarget type)) where
  queues type' := by
    show (r.log.addEvent eventTarget type).queues type' = _
    rw [EventAttachLog.queues_addEvent, inv.queues]
    simp only [exec, List.filter_append, List.map_append]
    -- the event is at the end of the queue of its type
    split
    · rename_i heq
      subst heq
      simp
    · rename_i hne
      simp [Ne.symm hne]
  oldestFirst := by
    -- it is the newest one
    refine List.pairwise_append.mpr ⟨inv.oldestFirst, List.pairwise_singleton _ _, ?_⟩
    intro a ha b hb
    obtain rfl := List.mem_singleton.mp hb
    exact serial_lt (inv.mem_additions ha)
  -- it is pending
  accounted := by
    rw [additions]
    simp only [exec]
    rw [additions_append, ← List.append_assoc r.removed, ← List.append_assoc]
    exact inv.accounted.append_right _
  stale := inv.stale

/-- Removing a target keeps the account. -/
theorem inv_removeEventTarget (inv : Inv r) (eventTarget : O) :
    Inv (r.exec (.removeEventTarget eventTarget)) where
  queues type := by
    -- all events of the target leave their queues
    show (r.log.removeEventTarget eventTarget).queues type = _
    rw [EventAttachLog.queues_removeEventTarget, inv.queues, List.filter_map]
    simp only [exec, List.filter_filter]
    refine congrArg (List.map _) (List.filter_congr fun a _ => ?_)
    exact Bool.and_comm _ _
  oldestFirst := inv.oldestFirst.filter _
  accounted := by
    refine List.Perm.trans (List.Perm.append_left _ ?_) inv.accounted
    simp only [exec]
    rw [List.append_assoc]
    refine List.Perm.append_left _ ?_
    -- what is removed and what stays make up what was pending
    have hperm := List.filter_append_perm (fun a : Addition O => a.eventTarget = eventTarget)
      r.pending
    simpa using hperm
  stale := inv.stale

/-- What a call that pulls an event does. -/
theorem exec_pullEvent_of_some (inv : Inv r) {type : EventAttachType} {eventTarget : O}
    {log : EventAttachLog O} (h : r.log.pullEvent = some (type, eventTarget, log)) :
    ∃ before a after, r.pending = before ++ a :: after ∧ a.pair = (type, eventTarget) ∧
      (∀ b ∈ before, b.type ≠ type) ∧
      r.exec .pullEvent =
        { r with log := log, pending := before ++ after, returned := r.returned ++ [a] } := by
  obtain ⟨before, a, after, hpending, hpair, hbefore, -⟩ := inv.first_of_pullEvent h
  have htype : a.type = type := congrArg Prod.fst hpair
  have hfind : r.pending.find? (fun a => a.pair = (type, eventTarget)) = some a := by
    refine List.find?_eq_some_iff_append.mpr ⟨decide_eq_true hpair, before, after, hpending, ?_⟩
    intro b hb
    have hne : b.pair ≠ (type, eventTarget) := fun heq => hbefore b hb (congrArg Prod.fst heq)
    simpa using hne
  have herase : r.pending.erase a = before ++ after := by
    rw [hpending, List.erase_append_right _ fun ha => hbefore a ha htype, List.erase_cons_head]
  refine ⟨before, a, after, hpending, hpair, hbefore, ?_⟩
  simp only [exec, h, hfind, herase]

/-- Pulling an event keeps the account. -/
theorem inv_pullEvent (inv : Inv r) : Inv (r.exec .pullEvent) := by
  cases h : r.log.pullEvent with
  | none =>
    -- nothing is pending, so nothing changes
    simp only [exec, h]
    exact inv
  | some pulled =>
    obtain ⟨type, eventTarget, log⟩ := pulled
    -- the oldest event of the first type that has one
    obtain ⟨before, a, after, hpending, hpair, hbefore, hexec⟩ := exec_pullEvent_of_some inv h
    obtain ⟨htype, htarget⟩ := Prod.mk.inj hpair
    obtain ⟨-, hqueue, hframe⟩ := EventAttachLog.pullFrom_eq_some h
    rw [hexec]
    refine ⟨fun type' => ?_, ?_, ?_, inv.stale⟩
    · -- the queue of its type loses its first element
      by_cases heq : type' = type
      · subst heq
        have hnone : before.filter (fun b => b.type = type') = [] :=
          List.filter_eq_nil_iff.mpr fun b hb => by simpa using hbefore b hb
        rw [inv.queues, hpending, List.filter_append, hnone,
          List.filter_cons_of_pos (by simpa using htype)] at hqueue
        dsimp only
        rw [List.filter_append, hnone]
        exact (List.cons.inj hqueue).2.symm
      · -- the others stay
        dsimp only
        rw [hframe type' heq, inv.queues, hpending, List.filter_append, List.filter_append,
          List.filter_cons_of_neg (by simpa [htype] using Ne.symm heq)]
    · -- what is left is in the same order
      have hsorted := inv.oldestFirst
      rw [hpending] at hsorted
      exact hsorted.sublist ((List.Sublist.refl before).append (List.sublist_cons_self a after))
    · refine List.Perm.trans ?_ inv.accounted
      rw [hpending]
      dsimp only
      rw [List.append_assoc]
      refine List.Perm.append_left _ ?_
      -- the event goes from the pending ones to the others
      calc [a] ++ (r.removed ++ (before ++ after))
        _ = a :: (r.removed ++ before ++ after) := by simp
        _ |>.Perm (r.removed ++ before ++ a :: after) := List.perm_middle.symm
        _ = r.removed ++ (before ++ a :: after) := List.append_assoc _ _ _

/-- Every call keeps the account. -/
theorem inv_exec (inv : Inv r) (call : Call O) : Inv (r.exec call) := by
  cases call with
  | addEvent eventTarget type => exact inv_addEvent inv eventTarget type
  | removeEventTarget eventTarget => exact inv_removeEventTarget inv eventTarget
  | pullEvent => exact inv_pullEvent inv

/-- So does every sequence of calls. -/
theorem inv_run (inv : Inv r) (calls : List (Call O)) : Inv (r.run calls) := by
  induction calls generalizing r with
  | nil => exact inv
  | cons call calls ih => exact ih (inv_exec inv call)

/-- What was removed stays so. -/
theorem removed_exec {a : Addition O} (h : a ∈ r.removed) (call : Call O) :
    a ∈ (r.exec call).removed := by
  cases call with
  | addEvent eventTarget type => exact h
  | removeEventTarget eventTarget => exact List.mem_append_left _ h
  | pullEvent =>
    rw [exec]
    split
    · exact h
    · split
      · exact h
      · exact h

/-- What was removed stays so over all calls. -/
theorem removed_run {a : Addition O} (h : a ∈ r.removed) (calls : List (Call O)) :
    a ∈ (r.run calls).removed := by
  induction calls generalizing r with
  | nil => exact h
  | cons call calls ih => exact ih (removed_exec h call)

/-- After every sequence of calls: an event is pulled for the oldest addition of the smallest
    type that is pending, and none only as nothing is; what is returned was added, and no more
    often than that; and the removal of a target keeps the order of the others in every queue,
    and what was pending for the target is never returned. -/
theorem stable_priority_queue (calls : List (Call O)) :
    let r := run init calls
    (∀ type eventTarget log, r.log.pullEvent = some (type, eventTarget, log) →
      ∃ a, r.First a ∧ a.pair = (type, eventTarget)) ∧
    (r.log.pullEvent = none → r.pending = []) ∧
    r.stale = [] ∧
    (∀ p, (r.returned.map Addition.pair).count p ≤ r.added.count p) ∧
    ∀ eventTarget,
      let r' := r.exec (.removeEventTarget eventTarget)
      (∀ type, r'.log.queues type = (r.log.queues type).filter (· ≠ eventTarget)) ∧
      ∀ a ∈ r.pending, a.eventTarget = eventTarget → ∀ calls', a ∉ (r'.run calls').returned := by
  intro r
  have inv : Inv r := inv_run inv_init calls
  refine ⟨fun type eventTarget log h => ?_, inv.pending_of_pullEvent, inv.stale,
    inv.count_returned_le, fun eventTarget => ⟨fun type => ?_, fun a ha htarget calls' => ?_⟩⟩
  · obtain ⟨-, a, -, -, hpair, -, hfirst⟩ := inv.first_of_pullEvent h
    exact ⟨a, hfirst, hpair⟩
  · exact r.log.queues_removeEventTarget eventTarget type
  · have hremoved : a ∈ (r.exec (.removeEventTarget eventTarget)).removed :=
      List.mem_append_right _ (List.mem_filter.mpr ⟨ha, decide_eq_true htarget⟩)
    have inv' := inv_run (inv_exec inv (.removeEventTarget eventTarget)) calls'
    exact inv'.not_returned_of_removed (removed_run hremoved calls')

end AttachRun

end R4
