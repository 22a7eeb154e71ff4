import Mathlib.Data.List.AList
import Mathlib.Data.List.Count
import Mathlib.Data.Multiset.Count

/-!
# Maps from keys to FIFO queues

`std::map<K, std::queue<T>>` with the three updates such a table sees: push onto the
queue of a key (creating it), drop a whole key, and pop the front of a queue, dropping
the key when its queue became empty.

`elems` lists every queued element with its key. The order of `elems` across keys is
not meaningful, so the results about it are permutations and counts; the order within
one key is, and `queue` keeps it.

## Key results

- `queue_push`, `queue_erase`, `queue_pop`: what each update does to every queue
- `elems_push`, `elems_erase`, `elems_pop`: what each update does to the contents
-/

/-- A map from keys to queues, front first. -/
abbrev QueueMap (κ α : Type) := AList fun _ : κ => List α

namespace QueueMap

variable {κ α : Type} [DecidableEq κ]

/-- The queue stored under `k`, empty when there is none. -/
def queue (m : QueueMap κ α) (k : κ) : List α := (m.lookup k).getD []

/-- `m[k].push(x)`. -/
def push (m : QueueMap κ α) (k : κ) (x : α) : QueueMap κ α := m.insert k (m.queue k ++ [x])

/-- Pop the front of the queue under `k`, and drop the key if that was its last element. -/
def pop (m : QueueMap κ α) (k : κ) : QueueMap κ α :=
  match m.queue k with
  | _ :: x :: rest => m.insert k (x :: rest)
  | _ => m.erase k

/-- Everything that is queued, with its key. -/
def elems (m : QueueMap κ α) : List (κ × α) := m.entries.flatMap fun e => e.2.map fun x => (e.1, x)

/-- No key stores an empty queue. -/
def NonEmpty (m : QueueMap κ α) : Prop := ∀ k, m.lookup k ≠ some []

/-! ## One queue -/

/-- An empty map has no queues. -/
@[simp] theorem queue_empty (k : κ) : queue (∅ : QueueMap κ α) k = [] := rfl

/-- An insertion replaces the queue of its key. -/
theorem queue_insert (m : QueueMap κ α) (k k' : κ) (q : List α) :
    queue (m.insert k q) k' = if k' = k then q else m.queue k' := by
  unfold queue
  split
  · rename_i h; subst h; simp
  · rename_i h; rw [AList.lookup_insert_ne h]

/-- An element is put at the end of the queue of its key. -/
theorem queue_push (m : QueueMap κ α) (k k' : κ) (x : α) :
    (m.push k x).queue k' = if k' = k then m.queue k' ++ [x] else m.queue k' := by
  unfold push
  rw [queue_insert]
  split
  · rename_i h; subst h; rfl
  · rfl

/-- A key that is erased has no queue. -/
theorem queue_erase (m : QueueMap κ α) (k k' : κ) :
    queue (m.erase k) k' = if k' = k then [] else m.queue k' := by
  unfold queue
  split
  · rename_i h; subst h; simp
  · rename_i h; rw [AList.lookup_erase_ne h]

/-- The first element of the queue of the key is taken. -/
theorem queue_pop (m : QueueMap κ α) (k k' : κ) :
    (m.pop k).queue k' = if k' = k then (m.queue k').tail else m.queue k' := by
  unfold pop
  split
  · rename_i y x rest hq
    rw [queue_insert]
    split
    · rename_i h; subst h; rw [hq]; rfl
    · rfl
  · rename_i hq
    rw [queue_erase]
    split
    · rename_i h
      subst h
      cases hc : m.queue k' with
      | nil => rfl
      | cons y ys =>
        cases ys with
        | nil => rfl
        -- the key is dropped for queues of at most one element
        | cons x rest => exact absurd hc (hq y x rest)
    · rfl

/-! ## The stored keys -/

/-- A queue with an element is stored. -/
theorem lookup_of_queue_ne_nil {m : QueueMap κ α} {k : κ} (h : m.queue k ≠ []) :
    m.lookup k = some (m.queue k) := by
  unfold queue at h ⊢
  cases hl : m.lookup k with
  | none => simp only [hl, Option.getD_none, ne_eq, not_true_eq_false] at h
  | some q => rfl

/-- A map without empty queues stores a queue if and only if it has an element. -/
theorem NonEmpty.lookup_eq {m : QueueMap κ α} (h : m.NonEmpty) (k : κ) :
    m.lookup k = if m.queue k = [] then none else some (m.queue k) := by
  split
  · rename_i hq
    cases hl : m.lookup k with
    | none => rfl
    | some q =>
      have : q = [] := by simpa [queue, hl] using hq
      exact absurd (by rw [hl, this]) (h k)
  · rename_i hq
    exact lookup_of_queue_ne_nil hq

/-- Putting an element into a queue leaves no queue empty. -/
theorem NonEmpty.push {m : QueueMap κ α} (h : m.NonEmpty) (k : κ) (x : α) :
    (m.push k x).NonEmpty := by
  intro k'
  unfold QueueMap.push
  by_cases hk : k' = k
  · subst hk; simp
  · rw [AList.lookup_insert_ne hk]; exact h k'

/-- Nor does erasing a key. -/
theorem NonEmpty.erase {m : QueueMap κ α} (h : m.NonEmpty) (k : κ) :
    NonEmpty (m.erase k) := by
  intro k'
  by_cases hk : k' = k
  · subst hk; simp
  · rw [AList.lookup_erase_ne hk]; exact h k'

/-- Nor does taking an element. -/
theorem NonEmpty.pop {m : QueueMap κ α} (h : m.NonEmpty) (k : κ) : (m.pop k).NonEmpty := by
  unfold QueueMap.pop
  split
  · intro k'
    by_cases hk : k' = k
    · subst hk; simp
    · rw [AList.lookup_insert_ne hk]; exact h k'
  · exact h.erase k

/-! ## Everything that is queued -/

private theorem flatMap_kerase {l : List (Sigma fun _ : κ => List α)} (h : l.NodupKeys) (k : κ) :
    ((l.kerase k).flatMap fun e => e.2.map fun x => (e.1, x)) =
      (l.flatMap fun e => e.2.map fun x => (e.1, x)).filter fun p => p.1 ≠ k := by
  induction l with
  | nil => rfl
  | cons e l ih =>
    rw [List.nodupKeys_cons] at h
    have hown : ∀ q : List α, (q.map fun x => (e.1, x)).filter (fun p => p.1 ≠ k) =
        if e.1 = k then [] else q.map fun x => (e.1, x) := by
      intro q
      split
      · rename_i he; simp [he]
      · rename_i he; simp [he]
    simp only [List.flatMap_cons, List.filter_append, hown]
    -- keys are pairwise distinct, so no later entry has the key
    by_cases he : e.1 = k
    · rw [List.kerase_cons_eq he.symm, if_pos he, List.nil_append, ← ih h.2,
        List.kerase_of_notMem_keys (he ▸ h.1)]
    · rw [List.kerase_cons_ne (Ne.symm he), if_neg he, List.flatMap_cons, ih h.2]

/-- Erasing a key takes all elements of its queue. -/
theorem elems_erase (m : QueueMap κ α) (k : κ) :
    elems (m.erase k) = m.elems.filter fun p => p.1 ≠ k :=
  flatMap_kerase m.nodupKeys k

/-- Inserting a queue takes the old elements of its key, and adds the new ones. -/
theorem elems_insert (m : QueueMap κ α) (k : κ) (q : List α) :
    elems (m.insert k q) = q.map (fun x => (k, x)) ++ m.elems.filter fun p => p.1 ≠ k := by
  unfold elems
  rw [AList.entries_insert, List.flatMap_cons, flatMap_kerase m.nodupKeys k]

/-- The elements under one key are its queue, in order. -/
theorem filter_elems (m : QueueMap κ α) (k : κ) :
    m.elems.filter (fun p => p.1 = k) = (m.queue k).map fun x => (k, x) := by
  obtain ⟨l, hnd⟩ := m
  unfold elems queue AList.lookup
  dsimp only
  induction l with
  | nil => rfl
  | cons e l ih =>
    rw [List.nodupKeys_cons] at hnd
    rw [List.flatMap_cons, List.filter_append, ih hnd.2]
    obtain ⟨k', q⟩ := e
    by_cases he : k' = k
    · subst he
      -- the entry of the key is the only one
      have hnone : List.dlookup k' l = none := List.dlookup_eq_none.mpr hnd.1
      rw [List.dlookup_cons_eq, hnone]
      simp
    · rw [List.dlookup_cons_ne _ _ (Ne.symm he)]
      simp [he]

/-- The contents are the queue of `k` and what is under the other keys. -/
theorem elems_perm (m : QueueMap κ α) (k : κ) :
    m.elems.Perm ((m.queue k).map (fun x => (k, x)) ++ m.elems.filter fun p => p.1 ≠ k) := by
  have h := List.filter_append_perm (fun p : κ × α => decide (p.1 = k)) m.elems
  rw [filter_elems] at h
  simpa using h.symm

/-- Putting an element into a queue adds it to the elements. -/
theorem elems_push (m : QueueMap κ α) (k : κ) (x : α) :
    (m.push k x).elems.Perm ((k, x) :: m.elems) := by
  unfold push
  rw [elems_insert, List.map_append, List.append_assoc, List.map_singleton, List.singleton_append]
  exact List.perm_middle.trans (List.Perm.cons _ (m.elems_perm k).symm)

/-- Popping removes one element, the front of the queue. -/
theorem elems_pop (m : QueueMap κ α) {k : κ} {x : α} {rest : List α} (h : m.queue k = x :: rest) :
    m.elems.Perm ((k, x) :: (m.pop k).elems) := by
  refine (m.elems_perm k).trans ?_
  rw [h, List.map_cons, List.cons_append]
  refine List.Perm.cons _ ?_
  unfold pop
  rw [h]
  cases rest with
  | nil => rw [elems_erase]; simp
  | cons y ys => rw [elems_insert]

/-- The elements of a map are those of its queues. -/
theorem mem_elems_iff (m : QueueMap κ α) (k : κ) (x : α) : (k, x) ∈ m.elems ↔ x ∈ m.queue k := by
  have h : (k, x) ∈ m.elems.filter (fun p => p.1 = k) ↔ x ∈ m.queue k := by
    rw [filter_elems]; simp
  simpa using h

/-! ## Counting -/

variable [DecidableEq α]

/-- An element occurs as often as in the queue of its key. -/
theorem count_elems (m : QueueMap κ α) (k : κ) (x : α) :
    m.elems.count (k, x) = (m.queue k).count x := by
  have h := congrArg (List.count (k, x)) (m.filter_elems k)
  rw [List.count_filter (by simp)] at h
  rw [h, List.count_map_of_injective _ _ fun a b hab => (Prod.mk.inj hab).2]

/-- Dropping a key and popping another queue can be done in either order. -/
theorem elems_erase_pop (m : QueueMap κ α) (k k' : κ) :
    (pop (m.erase k') k).elems.Perm ((m.pop k).elems.filter fun p => p.1 ≠ k') := by
  rw [List.perm_iff_count]
  rintro ⟨j, x⟩
  by_cases hj : j = k'
  · subst hj
    rw [count_elems, queue_pop, queue_erase]
    have hzero : ((m.pop k).elems.filter fun p => p.1 ≠ j).count (j, x) = 0 :=
      List.count_eq_zero.mpr fun h => by simpa using (List.mem_filter.mp h).2
    rw [hzero]
    split <;> simp
  · rw [List.count_filter (by simpa using hj), count_elems, count_elems, queue_pop, queue_pop,
      queue_erase, if_neg hj]

end QueueMap
