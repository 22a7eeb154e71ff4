import Mathlib.Data.Finset.Image
import Mathlib.Logic.Relation

/-!
# Admission control

Clients that share resources. A request arrives at a resource and waits in the queue of its
priority; when it is its turn, and a policy no longer makes it wait, its client takes a place at
the resource, which it keeps until it leaves. A client can also occupy a place without waiting,
or move with its place to another resource.

## Key results

- `queue_take`, `activeAt_take`: a request that begins is the first one of its queue
- `Serves.settled`, `Settled.exists_active`: whoever waits after serving waits for someone
- `Single.arrive`, `Single.take`, `Single.leave`, ...: a client has one place at most
- `InOrder.arrive`, `InOrder.take`, ...: what began and what waits is in the order of arrival
-/

/-- A request of a client for a resource. -/
structure Admission.Request (κ π α : Type) where
  key : κ
  priority : π
  client : α
deriving DecidableEq

/-- The requests that wait, oldest first, the places that are taken, and the requests that have
    begun, in that order. -/
structure Admission (κ π α : Type) where
  waiting : List (Admission.Request κ π α)
  active : Finset (κ × α)
  begun : List (Admission.Request κ π α)

namespace Admission

set_option linter.unusedSectionVars false

variable {κ π α : Type} [DecidableEq κ] [DecidableEq π] [DecidableEq α]

/-- The clients of the requests for `k` of priority `p`. -/
def requestsAt (l : List (Request κ π α)) (k : κ) (p : π) : List α :=
  (l.filter fun r => r.key = k ∧ r.priority = p).map Request.client

/-- The queue of `k` of priority `p`. -/
def queue (a : Admission κ π α) (k : κ) (p : π) : List α := requestsAt a.waiting k p

/-- The clients that have a place at `k`. -/
def activeAt (a : Admission κ π α) (k : κ) : Finset α :=
  (a.active.filter fun e => e.1 = k).image Prod.snd

/-- `x` waits at `k`, or has a place there. -/
def PlacedAt (a : Admission κ π α) (k : κ) (x : α) : Prop :=
  (∃ r ∈ a.waiting, r.key = k ∧ r.client = x) ∨ (k, x) ∈ a.active

/-- `x` waits nowhere and has no place. -/
def Idle (a : Admission κ π α) (x : α) : Prop := ∀ k, ¬a.PlacedAt k x

def arrive (a : Admission κ π α) (r : Request κ π α) : Admission κ π α :=
  { a with waiting := a.waiting ++ [r] }

def occupy (a : Admission κ π α) (k : κ) (x : α) : Admission κ π α :=
  { a with active := insert (k, x) a.active }

/-- The client of `r` takes the place it waited for. -/
def take (a : Admission κ π α) (r : Request κ π α) : Admission κ π α where
  waiting := a.waiting.erase r
  active := insert (r.key, r.client) a.active
  begun := a.begun ++ [r]

def leave (a : Admission κ π α) (x : α) : Admission κ π α :=
  { a with
    waiting := a.waiting.filter fun r => r.client ≠ x
    active := a.active.filter fun e => e.2 ≠ x }

def move (a : Admission κ π α) (x : α) (k : κ) : Admission κ π α :=
  { a with active := insert (k, x) (a.active.filter fun e => e.2 ≠ x) }

/-! ## The queues -/

/-- The requests of two lists, one behind the other. -/
@[simp] theorem requestsAt_append (l l' : List (Request κ π α)) (k : κ) (p : π) :
    requestsAt (l ++ l') k p = requestsAt l k p ++ requestsAt l' k p := by
  simp [requestsAt]

/-- One request, if it is for the resource and has the priority. -/
theorem requestsAt_singleton (r : Request κ π α) (k : κ) (p : π) :
    requestsAt [r] k p = if r.key = k ∧ r.priority = p then [r.client] else [] := by
  by_cases h : r.key = k ∧ r.priority = p <;> simp [requestsAt, h]

/-- The requests for a resource by their clients. -/
theorem mem_requestsAt {l : List (Request κ π α)} {k : κ} {p : π} {x : α} :
    x ∈ requestsAt l k p ↔ ⟨k, p, x⟩ ∈ l := by
  simp only [requestsAt, List.mem_map, List.mem_filter, decide_eq_true_eq]
  constructor
  · rintro ⟨r, ⟨hmem, rfl, rfl⟩, rfl⟩
    exact hmem
  · intro h
    exact ⟨⟨k, p, x⟩, ⟨h, rfl, rfl⟩, rfl⟩

/-- A client waits in a queue if its request waits. -/
theorem mem_queue {a : Admission κ π α} {k : κ} {p : π} {x : α} :
    x ∈ a.queue k p ↔ ⟨k, p, x⟩ ∈ a.waiting := mem_requestsAt

/-- Fewer requests, in the same order. -/
theorem requestsAt_sublist {l l' : List (Request κ π α)} (h : l.Sublist l') (k : κ) (p : π) :
    (requestsAt l k p).Sublist (requestsAt l' k p) := (h.filter _).map _

/-- A request that arrives is the last one of its queue. -/
theorem queue_arrive (a : Admission κ π α) (r : Request κ π α) (k : κ) (p : π) :
    (a.arrive r).queue k p =
      if r.key = k ∧ r.priority = p then a.queue k p ++ [r.client] else a.queue k p := by
  rw [queue, arrive, requestsAt_append, requestsAt_singleton]
  split
  · rfl
  · exact List.append_nil _

/-- Moving a place leaves the queues as they are. -/
@[simp] theorem queue_move (a : Admission κ π α) (k k' : κ) (x : α) (p : π) :
    (a.move x k).queue k' p = a.queue k' p := rfl

/-- Whoever leaves is gone from the queues. -/
theorem queue_leave (a : Admission κ π α) (x : α) (k : κ) (p : π) :
    (a.leave x).queue k p = (a.queue k p).filter fun y => y ≠ x := by
  simp only [queue, leave, requestsAt, List.filter_map, List.filter_filter]
  congr 2
  funext r
  exact Bool.and_comm _ _

/-- The request that begins is the first one of its queue. -/
theorem queue_take {a : Admission κ π α} {r : Request κ π α} {rest : List α}
    (h : a.queue r.key r.priority = r.client :: rest) (k : κ) (p : π) :
    (a.take r).queue k p = if r.key = k ∧ r.priority = p then rest else a.queue k p := by
  rw [queue, take, requestsAt, List.erase_filter.symm]
  split
  · next hk =>
    -- the queue is the one that is taken from
    obtain ⟨rfl, rfl⟩ := hk
    cases hl : a.waiting.filter fun r' => r'.key = r.key ∧ r'.priority = r.priority with
    | nil =>
      -- it is not empty
      rw [queue, requestsAt, hl] at h
      exact absurd h.symm (List.cons_ne_nil _ _)
    | cons r' l =>
      -- the first request of the queue is the one that is taken
      rw [queue, requestsAt, hl, List.map_cons, List.cons.injEq] at h
      have hmem := List.mem_filter.mp (hl ▸ List.mem_cons_self : r' ∈ _)
      obtain ⟨hkey, hpriority⟩ := of_decide_eq_true hmem.2
      have heq : r' = r := by
        cases r'
        cases r
        simp_all
      rw [heq, List.erase_cons_head, h.2]
  -- the other queues do not have it
  · next hk =>
    have hmem : r ∉ a.waiting.filter fun r' => r'.key = k ∧ r'.priority = p := fun hmem =>
      hk (of_decide_eq_true (List.mem_filter.mp hmem).2)
    rw [List.erase_of_not_mem hmem]
    rfl

/-! ## The places -/

/-- The clients of a resource are those whose places are taken there. -/
theorem mem_activeAt {a : Admission κ π α} {k : κ} {x : α} :
    x ∈ a.activeAt k ↔ (k, x) ∈ a.active := by
  simp [activeAt]

/-- Who occupies a place has it at that resource, and nobody else's place changes. -/
theorem activeAt_occupy (a : Admission κ π α) (k k' : κ) (x : α) :
    (a.occupy k x).activeAt k' = if k = k' then insert x (a.activeAt k') else a.activeAt k' := by
  ext y
  rw [mem_activeAt, occupy, Finset.mem_insert, Prod.mk.injEq]
  split
  · next h => simp [mem_activeAt, h]
  · next h => simp [mem_activeAt, Ne.symm h]

/-- The client of a request that begins has a place at its resource. -/
theorem activeAt_take (a : Admission κ π α) (r : Request κ π α) (k : κ) :
    (a.take r).activeAt k =
      if r.key = k then insert r.client (a.activeAt k) else a.activeAt k :=
  activeAt_occupy a r.key k r.client

/-- Whoever leaves gives back the place. -/
theorem activeAt_leave (a : Admission κ π α) (x : α) (k : κ) :
    (a.leave x).activeAt k = (a.activeAt k).erase x := by
  ext y
  rw [mem_activeAt, leave, Finset.mem_filter, Finset.mem_erase, mem_activeAt, And.comm]

/-- A place that moves is at the new resource, and at no other one. -/
theorem activeAt_move (a : Admission κ π α) (x : α) (k k' : κ) :
    (a.move x k).activeAt k' =
      if k = k' then insert x ((a.activeAt k').erase x) else (a.activeAt k').erase x := by
  rw [← activeAt_leave a x k']
  exact activeAt_occupy (a.leave x) k k' x

/-! ## Whose turn it is -/

variable [LT π]

/-- `r` is the next request of its resource: the first one of its queue, with none of a higher
    priority. -/
structure Next (a : Admission κ π α) (r : Request κ π α) : Prop where
  head : (a.queue r.key r.priority).head? = some r.client
  above : ∀ p, r.priority < p → a.queue r.key p = []

/-- A queue with a first client. -/
theorem exists_queue_of_head? {a : Admission κ π α} {r : Request κ π α}
    (h : (a.queue r.key r.priority).head? = some r.client) :
    ∃ rest, a.queue r.key r.priority = r.client :: rest :=
  ⟨_, List.eq_cons_of_mem_head? h⟩

/-- A request whose turn it is waits. -/
theorem Next.mem {a : Admission κ π α} {r : Request κ π α} (h : a.Next r) : r ∈ a.waiting :=
  mem_queue.mp (List.mem_of_mem_head? h.head)

/-- `a'` has at `k` what `a` has there. -/
def SameAt (a a' : Admission κ π α) (k : κ) : Prop :=
  (∀ p, a'.queue k p = a.queue k p) ∧ a'.activeAt k = a.activeAt k

theorem SameAt.refl (a : Admission κ π α) (k : κ) : SameAt a a k := ⟨fun _ => rfl, rfl⟩

theorem SameAt.trans {a b c : Admission κ π α} {k : κ} (h : SameAt a b k) (h' : SameAt b c k) :
    SameAt a c k :=
  ⟨fun p => (h'.1 p).trans (h.1 p), h'.2.trans h.2⟩

/-- Whose turn it is at a resource depends on that resource alone. -/
theorem Next.congr {a a' : Admission κ π α} {r : Request κ π α} (h : SameAt a a' r.key)
    (hnext : a'.Next r) : a.Next r :=
  ⟨by rw [← h.1, hnext.head], fun p hp => by rw [← h.1, hnext.above p hp]⟩

/-! ## Serving

`waits r active` says that `r` has to wait while these clients have a place at its resource. -/

/-- A request for `k` begins. -/
structure BeginsAt (waits : Request κ π α → Finset α → Prop) (k : κ) (a a' : Admission κ π α) :
    Prop where
  exists_next : ∃ r : Request κ π α, r.key = k ∧ a.Next r ∧ ¬waits r (a.activeAt k) ∧ a' = a.take r

/-- A request begins. -/
def Begins (waits : Request κ π α → Finset α → Prop) (a a' : Admission κ π α) : Prop :=
  ∃ k, BeginsAt waits k a a'

/-- No request for `k` can begin. -/
def SettledAt (waits : Request κ π α → Finset α → Prop) (a : Admission κ π α) (k : κ) : Prop :=
  ∀ r, r.key = k → a.Next r → waits r (a.activeAt k)

/-- No request can begin. -/
def Settled (waits : Request κ π α → Finset α → Prop) (a : Admission κ π α) : Prop :=
  ∀ k, a.SettledAt waits k

/-- Requests begin until none can. -/
structure Serves (waits : Request κ π α → Finset α → Prop) (a a' : Admission κ π α) : Prop where
  begins : Relation.ReflTransGen (Begins waits) a a'
  settled : a'.Settled waits

variable {waits : Request κ π α → Finset α → Prop}

/-- A request that begins changes nothing at other resources. -/
theorem BeginsAt.sameAt {a a' : Admission κ π α} {k k' : κ} (h : BeginsAt waits k a a')
    (hne : k' ≠ k) : SameAt a a' k' := by
  obtain ⟨r, rfl, hnext, -, rfl⟩ := h.exists_next
  obtain ⟨rest, hqueue⟩ := exists_queue_of_head? hnext.head
  constructor
  · intro p
    rw [queue_take hqueue, if_neg fun h => hne h.1.symm]
  · rw [activeAt_take, if_neg (Ne.symm hne)]

/-- Nor do several of them. -/
theorem sameAt_of_beginsAt {a a' : Admission κ π α} {k k' : κ}
    (h : Relation.ReflTransGen (BeginsAt waits k) a a') (hne : k' ≠ k) : SameAt a a' k' := by
  induction h with
  | refl => exact .refl _ _
  | tail _ h ih => exact ih.trans (h.sameAt hne)

/-- Whether a resource is settled depends on that resource alone. -/
theorem SettledAt.congr {a a' : Admission κ π α} {k : κ} (hsame : SameAt a a' k)
    (h : a.SettledAt waits k) : a'.SettledAt waits k := by
  rintro r rfl hnext
  rw [hsame.2]
  exact h r rfl (hnext.congr hsame)

/-- Requests that begin at one resource begin. -/
theorem begins_of_beginsAt {a a' : Admission κ π α} {k : κ}
    (h : Relation.ReflTransGen (BeginsAt waits k) a a') :
    Relation.ReflTransGen (Begins waits) a a' := by
  induction h with
  | refl => exact .refl
  | tail _ h ih => exact ih.tail ⟨k, h⟩

/-- A property that every request keeps when it begins. -/
theorem Serves.induct {P : Admission κ π α → Prop} {a a' : Admission κ π α}
    (h : Serves waits a a') (htake : ∀ a r, a.Next r → P a → P (a.take r)) (hP : P a) : P a' := by
  obtain ⟨hbegins, -⟩ := h
  induction hbegins with
  | refl => exact hP
  | tail _ h ih =>
    obtain ⟨k, ⟨r, -, hnext, -, rfl⟩⟩ := h
    exact htake _ r hnext ih

/-- When nobody has to wait for an empty resource, whoever waits at one that is settled waits for
    someone. -/
theorem SettledAt.exists_active {a : Admission κ π α} {k : κ} (h : a.SettledAt waits k)
    (hempty : ∀ r, ¬waits r ∅) {r : Request κ π α} (hkey : r.key = k) (hnext : a.Next r) :
    (a.activeAt k).Nonempty := by
  rw [Finset.nonempty_iff_ne_empty]
  intro hnone
  exact hempty r (hnone ▸ h r hkey hnext)

/-- A policy that makes more requests wait has less to serve. -/
theorem Settled.mono {a : Admission κ π α} {waits' : Request κ π α → Finset α → Prop}
    (h : a.Settled waits) (hwaits : ∀ r s, waits r s → waits' r s) : a.Settled waits' :=
  fun k r hkey hnext => hwaits r _ (h k r hkey hnext)

/-- A place that is taken lets nobody begin, when a policy does not make fewer wait for more. -/
theorem Settled.occupy {a : Admission κ π α} (h : a.Settled waits)
    (hmono : ∀ r s t, s ⊆ t → waits r s → waits r t) (k : κ) (x : α) :
    (a.occupy k x).Settled waits := by
  rintro _ r rfl hnext
  refine hmono r _ _ ?_ (h r.key r rfl ⟨hnext.head, hnext.above⟩)
  rw [activeAt_occupy]
  split
  · exact Finset.subset_insert _ _
  · exact Finset.Subset.refl _

/-! ## One place for a client -/

/-- A client has one place at most. -/
structure Single (a : Admission κ π α) : Prop where
  waiting : (a.waiting.map Request.client).Nodup
  active : ∀ {k k' x}, (k, x) ∈ a.active → (k', x) ∈ a.active → k = k'
  apart : ∀ {r}, r ∈ a.waiting → ∀ k, (k, r.client) ∉ a.active

namespace Single

omit [LT π]

variable {a : Admission κ π α}

/-- A client has one request at most. -/
theorem eq_of_mem (h : a.Single) {r r' : Request κ π α} (hr : r ∈ a.waiting)
    (hr' : r' ∈ a.waiting) (hclient : r.client = r'.client) : r = r' :=
  List.inj_on_of_nodup_map h.waiting hr hr' hclient

/-- No client waits twice in a queue. -/
theorem queue_nodup (h : a.Single) (k : κ) (p : π) : (a.queue k p).Nodup :=
  h.waiting.sublist (List.filter_sublist.map _)

/-- An idle client may arrive. -/
theorem arrive (h : a.Single) {r : Request κ π α} (hidle : a.Idle r.client) :
    (a.arrive r).Single where
  waiting := by
    rw [Admission.arrive, List.map_append, List.map_singleton, List.nodup_append]
    refine ⟨h.waiting, List.nodup_singleton _, ?_⟩
    rintro x hx y hy rfl
    obtain ⟨r', hr', rfl⟩ := List.mem_map.mp hx
    exact hidle r'.key (.inl ⟨r', hr', rfl, List.mem_singleton.mp hy⟩)
  active := h.active
  apart hr k := by
    rcases List.mem_append.mp hr with hr | hr
    · exact h.apart hr k
    · rw [List.mem_singleton.mp hr]
      exact fun hmem => hidle k (.inr hmem)

/-- An idle client may occupy a place. -/
theorem occupy (h : a.Single) (k : κ) {x : α} (hidle : a.Idle x) : (a.occupy k x).Single where
  waiting := h.waiting
  active {k₁ k₂ y} h₁ h₂ := by
    rw [Admission.occupy, Finset.mem_insert, Prod.mk.injEq] at h₁ h₂
    rcases h₁ with ⟨rfl, rfl⟩ | h₁ <;> rcases h₂ with ⟨rfl, hx⟩ | h₂
    · rfl
    · exact absurd (.inr h₂) (hidle k₂)
    · exact absurd (.inr (hx ▸ h₁)) (hidle k₁)
    · exact h.active h₁ h₂
  apart {r} hr k' hmem := by
    rw [Admission.occupy, Finset.mem_insert, Prod.mk.injEq] at hmem
    rcases hmem with ⟨-, hx⟩ | hmem
    · exact hidle r.key (.inl ⟨r, hr, rfl, hx⟩)
    · exact h.apart hr k' hmem

/-- Leaving keeps one place for each client. -/
theorem leave (h : a.Single) (x : α) : (a.leave x).Single where
  waiting := h.waiting.sublist (List.filter_sublist.map _)
  active h₁ h₂ := h.active (Finset.mem_filter.mp h₁).1 (Finset.mem_filter.mp h₂).1
  apart hr k hmem := h.apart (List.mem_filter.mp hr).1 k (Finset.mem_filter.mp hmem).1

/-- What waits has no place yet, and the one it takes is the only one. -/
theorem take (h : a.Single) {r : Request κ π α} (hmem : r ∈ a.waiting) : (a.take r).Single where
  waiting := h.waiting.sublist (List.erase_sublist.map _)
  active {k₁ k₂ y} h₁ h₂ := by
    rw [Admission.take, Finset.mem_insert, Prod.mk.injEq] at h₁ h₂
    rcases h₁ with ⟨rfl, rfl⟩ | h₁ <;> rcases h₂ with ⟨rfl, hx⟩ | h₂
    · rfl
    · exact absurd h₂ (h.apart hmem k₂)
    · exact absurd (hx ▸ h₁) (h.apart hmem k₁)
    · exact h.active h₁ h₂
  apart {r'} hr' k hactive := by
    have hwaiting := List.mem_of_mem_erase hr'
    rw [Admission.take, Finset.mem_insert, Prod.mk.injEq] at hactive
    rcases hactive with ⟨-, hclient⟩ | hactive
    · -- the request of the client is the one that has begun
      obtain rfl := h.eq_of_mem hwaiting hmem hclient
      exact (List.Nodup.not_mem_erase (List.Nodup.of_map _ h.waiting)) hr'
    · exact h.apart hwaiting k hactive

/-- So does moving a place that is taken. -/
theorem move (h : a.Single) {x : α} {k₀ : κ} (hactive : (k₀, x) ∈ a.active) (k : κ) :
    (a.move x k).Single where
  waiting := h.waiting
  active {k₁ k₂ y} h₁ h₂ := by
    rw [Admission.move, Finset.mem_insert, Finset.mem_filter, Prod.mk.injEq] at h₁ h₂
    rcases h₁ with ⟨rfl, rfl⟩ | h₁ <;> rcases h₂ with ⟨rfl, hx⟩ | h₂
    · rfl
    · exact absurd rfl h₂.2
    · exact absurd hx h₁.2
    · exact h.active h₁.1 h₂.1
  apart {r} hr k' hmem := by
    rw [Admission.move, Finset.mem_insert, Finset.mem_filter, Prod.mk.injEq] at hmem
    rcases hmem with ⟨-, hx⟩ | hmem
    · exact h.apart hr k₀ (hx ▸ hactive)
    · exact h.apart hr k' hmem.1

end Single

/-! ## Who has a place, and where -/

omit [LT π]

variable {a : Admission κ π α} {k k' : κ} {x y : α}

/-- A client is placed where it waits or has a place. -/
theorem placedAt_iff : a.PlacedAt k x ↔ (∃ p, x ∈ a.queue k p) ∨ x ∈ a.activeAt k := by
  rw [PlacedAt, mem_activeAt]
  refine or_congr_left ⟨?_, ?_⟩
  · rintro ⟨r, hr, rfl, rfl⟩
    exact ⟨r.priority, mem_queue.mpr hr⟩
  · rintro ⟨p, hp⟩
    exact ⟨_, mem_queue.mp hp, rfl, rfl⟩

/-- A request that arrives places its client. -/
theorem placedAt_arrive {r : Request κ π α} :
    (a.arrive r).PlacedAt k x ↔ a.PlacedAt k x ∨ r.key = k ∧ r.client = x := by
  simp only [PlacedAt, arrive, List.mem_append, List.mem_singleton, or_and_right, exists_or,
    exists_eq_left]
  rw [or_right_comm]

/-- Occupying a place places the client. -/
theorem placedAt_occupy :
    (a.occupy k' y).PlacedAt k x ↔ a.PlacedAt k x ∨ k' = k ∧ y = x := by
  rw [PlacedAt, occupy, Finset.mem_insert, Prod.mk.injEq, PlacedAt, or_assoc]
  exact or_congr_right (or_comm.trans (or_congr_right (and_congr eq_comm eq_comm)))

/-- Whoever leaves is placed nowhere. -/
theorem placedAt_leave : (a.leave y).PlacedAt k x ↔ a.PlacedAt k x ∧ x ≠ y := by
  simp only [PlacedAt, leave, List.mem_filter, decide_eq_true_eq, Finset.mem_filter, or_and_right]
  refine or_congr_left ⟨?_, ?_⟩
  · rintro ⟨r, ⟨hr, hne⟩, rfl, rfl⟩
    exact ⟨⟨r, hr, rfl, rfl⟩, hne⟩
  · rintro ⟨⟨r, hr, rfl, rfl⟩, hne⟩
    exact ⟨r, ⟨hr, hne⟩, rfl, rfl⟩

/-- A request that begins is at its resource as before. -/
theorem placedAt_take {r : Request κ π α} (hmem : r ∈ a.waiting) :
    (a.take r).PlacedAt k x ↔ a.PlacedAt k x := by
  rw [PlacedAt, take, Finset.mem_insert, Prod.mk.injEq]
  constructor
  · rintro (⟨r', hr', hk⟩ | ⟨rfl, rfl⟩ | hactive)
    · exact .inl ⟨r', List.mem_of_mem_erase hr', hk⟩
    · exact .inl ⟨r, hmem, rfl, rfl⟩
    · exact .inr hactive
  · rintro (⟨r', hr', rfl, rfl⟩ | hactive)
    · by_cases h : r' = r
      · exact .inr (.inl ⟨congrArg _ h, congrArg _ h⟩)
      · exact .inl ⟨r', (List.mem_erase_of_ne h).mpr hr', rfl, rfl⟩
    · exact .inr (.inr hactive)

/-- A client that does not wait moves with its place. -/
theorem placedAt_move (hwaiting : ∀ r ∈ a.waiting, r.client ≠ y) :
    (a.move y k').PlacedAt k x ↔ if x = y then k = k' else a.PlacedAt k x := by
  rw [PlacedAt, move, Finset.mem_insert, Finset.mem_filter, Prod.mk.injEq]
  split
  · next h =>
    -- the client that moves is at the new resource
    subst h
    constructor
    · rintro (⟨r, hr, -, hx⟩ | ⟨hk, -⟩ | ⟨-, hne⟩)
      · exact absurd hx (hwaiting r hr)
      · exact hk
      · exact absurd rfl hne
    · exact fun hk => .inr (.inl ⟨hk, rfl⟩)
  · next h =>
    -- the other clients stay where they are
    refine or_congr_right ⟨?_, fun hactive => .inr ⟨hactive, h⟩⟩
    rintro (⟨-, hx⟩ | ⟨hactive, -⟩)
    · exact absurd hx h
    · exact hactive

/-- Only the client of a request that arrives stops being idle. -/
theorem idle_arrive {r : Request κ π α} : (a.arrive r).Idle x ↔ a.Idle x ∧ r.client ≠ x := by
  simp only [Idle, placedAt_arrive, not_or, forall_and]
  exact and_congr_right fun _ => ⟨fun h hx => h r.key ⟨rfl, hx⟩, fun h _ hx => h hx.2⟩

/-- Only the client that occupies a place stops being idle. -/
theorem idle_occupy : (a.occupy k y).Idle x ↔ a.Idle x ∧ y ≠ x := by
  simp only [Idle, placedAt_occupy, not_or, forall_and]
  exact and_congr_right fun _ => ⟨fun h hx => h k ⟨rfl, hx⟩, fun h _ hx => h hx.2⟩

/-- Who leaves is idle. -/
theorem idle_leave : (a.leave y).Idle x ↔ a.Idle x ∨ x = y := by
  simp only [Idle, placedAt_leave, not_and, not_not]
  constructor
  · intro h
    by_cases hx : x = y
    · exact .inr hx
    · exact .inl fun k hk => hx (h k hk)
  · rintro (h | h) k hk
    · exact absurd hk (h k)
    · exact h

/-- A request that begins makes nobody idle or busy. -/
theorem idle_take {r : Request κ π α} (hmem : r ∈ a.waiting) : (a.take r).Idle x ↔ a.Idle x :=
  forall_congr' fun _ => not_congr (placedAt_take hmem)

/-- Moving a place makes nobody idle or busy. -/
theorem Single.idle_move (h : a.Single) (hactive : (k, y) ∈ a.active) :
    (a.move y k').Idle x ↔ a.Idle x := by
  have hwaiting : ∀ r ∈ a.waiting, r.client ≠ y := fun r hr hy =>
    h.apart hr k (hy ▸ hactive)
  simp only [Idle, placedAt_move hwaiting]
  split
  · next hx =>
    subst hx
    exact iff_of_false (fun h => h k' rfl) fun h => h k (.inr hactive)
  · rfl

/-- An arrival is seen at its own resource only. -/
theorem sameAt_arrive {r : Request κ π α} (hne : k ≠ r.key) : a.SameAt (a.arrive r) k :=
  ⟨fun p => by rw [queue_arrive, if_neg fun h => hne h.1.symm], rfl⟩

/-- A place that is occupied is seen at its own resource only. -/
theorem sameAt_occupy (hne : k ≠ k') : a.SameAt (a.occupy k' x) k :=
  ⟨fun _ => rfl, by rw [activeAt_occupy, if_neg hne.symm]⟩

/-- Who leaves is missed only where it was placed. -/
theorem sameAt_leave (h : ¬a.PlacedAt k x) : a.SameAt (a.leave x) k := by
  rw [placedAt_iff, not_or, not_exists] at h
  constructor
  · intro p
    rw [queue_leave, List.filter_eq_self]
    rintro y hy
    exact decide_eq_true fun hyx => h.1 p (hyx ▸ hy)
  · rw [activeAt_leave, Finset.erase_eq_of_notMem h.2]

/-! ## The order of arrival -/

/-- What began and what still waits, in each queue, is in the order of arrival. -/
def InOrder (a : Admission κ π α) (arrived : List (Request κ π α)) : Prop :=
  ∀ k p, (requestsAt a.begun k p ++ a.queue k p).Sublist (requestsAt arrived k p)

namespace InOrder

variable {arrived : List (Request κ π α)}

/-- A request that arrives is the last in the order. -/
theorem arrive (h : a.InOrder arrived) (r : Request κ π α) :
    (a.arrive r).InOrder (arrived ++ [r]) := by
  intro k p
  rw [queue, Admission.arrive, requestsAt_append, requestsAt_append, ← List.append_assoc]
  exact (h k p).append (List.Sublist.refl _)

/-- Leaving keeps the order of the others. -/
theorem leave (h : a.InOrder arrived) (x : α) : (a.leave x).InOrder arrived := fun k p =>
  ((List.Sublist.refl _).append (requestsAt_sublist List.filter_sublist k p)).trans (h k p)

/-- The first request of its queue begins in order. -/
theorem take (h : a.InOrder arrived) {r : Request κ π α} {rest : List α}
    (hqueue : a.queue r.key r.priority = r.client :: rest) : (a.take r).InOrder arrived := by
  intro k p
  have hbefore := h k p
  rw [queue_take hqueue, Admission.take, requestsAt_append, requestsAt_singleton]
  split
  · next hk =>
    rw [List.append_assoc]
    obtain ⟨rfl, rfl⟩ := hk
    rwa [hqueue] at hbefore
  · rwa [List.append_nil]

end InOrder

/-- Every request that arrived has begun or still waits, or its client has left. -/
def Kept (a : Admission κ π α) (arrived : List (Request κ π α)) (left : α → Prop) : Prop :=
  ∀ r ∈ arrived, r ∈ a.begun ∨ r ∈ a.waiting ∨ left r.client

namespace Kept

variable {arrived : List (Request κ π α)} {left : α → Prop}

/-- A request that arrives waits. -/
theorem arrive (h : a.Kept arrived left) (r : Request κ π α) :
    (a.arrive r).Kept (arrived ++ [r]) left := by
  intro r' hr'
  rcases List.mem_append.mp hr' with hr' | hr'
  · exact (h r' hr').imp_right (Or.imp_left (List.mem_append_left _))
  · exact .inr (.inl (List.mem_append_right _ hr'))

/-- More may have left. -/
theorem mono (h : a.Kept arrived left) {left' : α → Prop} (hleft : ∀ x, left x → left' x) :
    a.Kept arrived left' := fun r hr => (h r hr).imp_right (Or.imp_right (hleft r.client))

/-- Who leaves is noted as having left. -/
theorem leave (h : a.Kept arrived left) (x : α) :
    (a.leave x).Kept arrived fun y => left y ∨ y = x := by
  intro r hr
  rcases h r hr with hbegun | hwaiting | hleft
  · exact .inl hbegun
  · by_cases hx : r.client = x
    · exact .inr (.inr (.inr hx))
    · exact .inr (.inl (List.mem_filter.mpr ⟨hwaiting, decide_eq_true hx⟩))
  · exact .inr (.inr (.inl hleft))

/-- A request that begins is kept among those that have begun. -/
theorem take (h : a.Kept arrived left) (r : Request κ π α) : (a.take r).Kept arrived left := by
  intro r' hr'
  rcases h r' hr' with hbegun | hwaiting | hleft
  · exact .inl (List.mem_append_left _ hbegun)
  · by_cases heq : r' = r
    · exact .inl (List.mem_append_right _ (List.mem_singleton.mpr heq))
    · exact .inr (.inl ((List.mem_erase_of_ne heq).mpr hwaiting))
  · exact .inr (.inr hleft)

end Kept

end Admission
