import Mathlib.Data.List.AList
import Mathlib.Algebra.Order.Group.Nat

/-!
# The event listeners of a target

`EventListenerMap` (`dom/EventListenerMap.h`, `EventListenerMap.cpp`): the vectors of the
registered listeners, one for each type of event. The vector of the first type lives in the map
itself; a hash map is made when a second type comes.

A vector is known by its identity: two vectors that the map makes one after the other for a type
are different objects, and a reference to the first one is no reference to the second.

`κ` is the type of the names of events, `L` that of listeners up to `==`.

## Key results

- `find_add`, `find_remove`: what the operations do, whichever way the vectors are kept
-/

namespace R4

/-- An `EventListener*`, and the object behind it up to `==`. -/
structure EventListener (L : Type) where
  address : Nat
  value : L
deriving DecidableEq

/-- `RegisteredEventListener`. -/
structure RegisteredEventListener (L : Type) where
  listener : EventListener L
  useCapture : Bool
deriving DecidableEq

/-- What `==` compares. -/
def RegisteredEventListener.key {L : Type} (r : RegisteredEventListener L) : L × Bool :=
  (r.listener.value, r.useCapture)

/-- An `EventListenerVector` that `new` has made. -/
structure EventListenerVector (L : Type) where
  identity : Nat
  listeners : List (RegisteredEventListener L)
deriving DecidableEq

/-- How many elements a vector can have: `allocateBuffer` crashes when the bytes do not fit into
    a `size_t`, and a `RegisteredEventListener` takes 16. -/
def maxListeners : Nat := (2 ^ 64 - 1) / 16

/-- `EventListenerMap`. `vectorsMade` is the identity of the next vector. -/
structure EventListenerMap (κ L : Type) where
  m_hashMap : Option (AList fun _ : κ => EventListenerVector L)
  m_singleEventListenerType : Option κ
  m_singleEventListenerVector : Option (EventListenerVector L)
  vectorsMade : Nat
  typed : m_singleEventListenerType.isSome = m_singleEventListenerVector.isSome
  alone : m_hashMap.isSome = true → m_singleEventListenerVector = none

namespace EventListenerMap

variable {κ L : Type}

/-- The vectors are in the hash map. -/
def ofHashMap (hashMap : AList fun _ : κ => EventListenerVector L) (vectorsMade : Nat) :
    EventListenerMap κ L :=
  ⟨some hashMap, none, none, vectorsMade, rfl, fun _ => rfl⟩

/-- There is one vector. -/
def ofSingle (eventType : κ) (vector : EventListenerVector L) (vectorsMade : Nat) :
    EventListenerMap κ L :=
  ⟨none, some eventType, some vector, vectorsMade, rfl, nofun⟩

/-- There is no vector. -/
def ofNone (vectorsMade : Nat) : EventListenerMap κ L :=
  ⟨none, none, none, vectorsMade, rfl, nofun⟩

/-- `EventListenerMap()`. -/
def init : EventListenerMap κ L := ofNone 0

/-- `clear`. The hash map goes as well. -/
def clear (map : EventListenerMap κ L) : EventListenerMap κ L := ofNone map.vectorsMade

section

variable [DecidableEq κ]

/-- `find`. -/
def find (map : EventListenerMap κ L) (eventType : κ) : Option (EventListenerVector L) :=
  match map.m_hashMap with
  | some hashMap => hashMap.lookup eventType
  | none =>
    if map.m_singleEventListenerType = some eventType then map.m_singleEventListenerVector
    else none

/-- The start of `add`: a vector of another type moves into a hash map. -/
def moveToHashMap (map : EventListenerMap κ L) (eventType : κ) : EventListenerMap κ L :=
  match map.m_singleEventListenerType, map.m_singleEventListenerVector with
  | some singleType, some vector =>
    if singleType = eventType then map
    else ofHashMap ((∅ : AList fun _ : κ => EventListenerVector L).insert singleType vector)
      map.vectorsMade
  | _, _ => map

end

section

variable [DecidableEq L]

/-- `Vector::find`, with the `==` of `RegisteredEventListener`. -/
def indexOf (vector : EventListenerVector L) (r : RegisteredEventListener L) : Option Nat :=
  vector.listeners.findIdx? fun r' => r'.key = r.key

/-- `addListenerToVector`; `none` is the crash for want of memory. -/
def addListenerToVector (vector : EventListenerVector L) (r : RegisteredEventListener L) :
    Option (Bool × EventListenerVector L) :=
  if (indexOf vector r).isSome then some (false, vector)
  else if maxListeners < vector.listeners.length + 1 then none
  else some (true, ⟨vector.identity, vector.listeners ++ [r]⟩)

/-- `removeListenerFromVector`, with the index of the removed listener. -/
def removeListenerFromVector (vector : EventListenerVector L) (r : RegisteredEventListener L) :
    Option Nat × EventListenerVector L :=
  match indexOf vector r with
  | none => (none, vector)
  | some index => (some index, ⟨vector.identity, vector.listeners.eraseIdx index⟩)

variable [DecidableEq κ]

/-- `add`. A listener is added unless an equal one is there. -/
def add (map : EventListenerMap κ L) (eventType : κ) (r : RegisteredEventListener L) :
    Option (Bool × EventListenerMap κ L) :=
  let map := map.moveToHashMap eventType
  match map.m_hashMap with
  | some hashMap =>
    let vector := (hashMap.lookup eventType).getD ⟨map.vectorsMade, []⟩
    let made := if (hashMap.lookup eventType).isSome then map.vectorsMade else map.vectorsMade + 1
    (addListenerToVector vector r).map fun result =>
      (result.1, ofHashMap (hashMap.insert eventType result.2) made)
  | none =>
    let vector := map.m_singleEventListenerVector.getD ⟨map.vectorsMade, []⟩
    let made :=
      if map.m_singleEventListenerVector.isSome then map.vectorsMade else map.vectorsMade + 1
    (addListenerToVector vector r).map fun result => (result.1, ofSingle eventType result.2 made)

/-- `remove`, with the index of the removed listener. A vector that is empty goes. -/
def remove (map : EventListenerMap κ L) (eventType : κ) (r : RegisteredEventListener L) :
    Option Nat × EventListenerMap κ L :=
  match map.m_hashMap with
  | none =>
    if map.m_singleEventListenerType ≠ some eventType then (none, map)
    else
      match map.m_singleEventListenerVector with
      | none => (none, map)
      | some vector =>
        let result := removeListenerFromVector vector r
        (result.1, if result.2.listeners.isEmpty then ofNone map.vectorsMade
          else ofSingle eventType result.2 map.vectorsMade)
  | some hashMap =>
    match hashMap.lookup eventType with
    | none => (none, map)
    | some vector =>
      let result := removeListenerFromVector vector r
      (result.1,
        if result.2.listeners.isEmpty then ofHashMap (hashMap.erase eventType) map.vectorsMade
        else ofHashMap (hashMap.insert eventType result.2) map.vectorsMade)

end

/-! ## What the operations do to what is found -/

/-- A map is kept as a hash map, as a single vector, or as nothing. -/
theorem eq_of_kept (map : EventListenerMap κ L) :
    (∃ hashMap n, map = ofHashMap hashMap n) ∨ (∃ t vector n, map = ofSingle t vector n) ∨
      ∃ n, map = ofNone n := by
  obtain ⟨hashMap, singleType, vector, n, typed, alone⟩ := map
  cases hashMap with
  | some hashMap =>
    -- with a hash map there is no single vector
    obtain rfl : vector = none := alone rfl
    obtain rfl : singleType = none := Option.isNone_iff_eq_none.mp (by simpa using typed)
    exact Or.inl ⟨hashMap, n, rfl⟩
  | none =>
    cases vector with
    | some vector =>
      -- with a single vector there is its type
      obtain ⟨t, rfl⟩ := Option.isSome_iff_exists.mp (typed.trans rfl)
      exact Or.inr (Or.inl ⟨t, vector, n, rfl⟩)
    | none =>
      -- there is neither
      obtain rfl : singleType = none := Option.isNone_iff_eq_none.mp (by simpa using typed)
      exact Or.inr (Or.inr ⟨n, rfl⟩)

/-- Clearing a map does not take back identities. -/
@[simp] theorem vectorsMade_clear (map : EventListenerMap κ L) :
    map.clear.vectorsMade = map.vectorsMade := rfl

/-- A map with a single vector has made as many as it is given. -/
@[simp] theorem vectorsMade_ofSingle (single : κ) (vector : EventListenerVector L) (n : Nat) :
    (ofSingle single vector n).vectorsMade = n := rfl

section

variable [DecidableEq κ]

/-- A new map has no vectors. -/
@[simp] theorem find_init (t : κ) : (init : EventListenerMap κ L).find t = none := rfl

/-- Nor has one that was cleared. -/
@[simp] theorem find_clear (map : EventListenerMap κ L) (t : κ) : map.clear.find t = none := rfl

/-- A hash map has the vectors it stores. -/
@[simp] theorem find_ofHashMap (hashMap : AList fun _ : κ => EventListenerVector L) (n : Nat)
    (t : κ) : (ofHashMap hashMap n).find t = hashMap.lookup t := rfl

/-- A single vector is that of its type. -/
@[simp] theorem find_ofSingle (single : κ) (vector : EventListenerVector L) (n : Nat) (t : κ) :
    (ofSingle single vector n).find t = if t = single then some vector else none := by
  simp only [find, ofSingle, Option.some.injEq, eq_comm (a := single)]

/-- A map that is kept as nothing has no vectors. -/
@[simp] theorem find_ofNone (n : Nat) (t : κ) :
    (ofNone n : EventListenerMap κ L).find t = none := rfl

/-- An insertion replaces the vector of its type. -/
theorem lookup_insert_eq_ite (hashMap : AList fun _ : κ => EventListenerVector L)
    (vector : EventListenerVector L) (t t' : κ) :
    (hashMap.insert t vector).lookup t' = if t' = t then some vector else hashMap.lookup t' := by
  split
  · next h => rw [h, AList.lookup_insert]
  · next h => rw [AList.lookup_insert_ne h]

/-- A type that is erased has no vector. -/
theorem lookup_erase_eq_ite (hashMap : AList fun _ : κ => EventListenerVector L) (t t' : κ) :
    (hashMap.erase t).lookup t' = if t' = t then none else hashMap.lookup t' := by
  split
  · next h => rw [h, AList.lookup_erase]
  · next h => rw [AList.lookup_erase_ne h]

end

section

variable [DecidableEq κ] [DecidableEq L]

/-- Adding to a hash map, which makes the vector of the type if there is none. -/
theorem add_ofHashMap (hashMap : AList fun _ : κ => EventListenerVector L) (n : Nat) (t : κ)
    (r : RegisteredEventListener L) : (ofHashMap hashMap n).add t r =
      (addListenerToVector ((hashMap.lookup t).getD ⟨n, []⟩) r).map fun result =>
        (result.1, ofHashMap (hashMap.insert t result.2)
          (if (hashMap.lookup t).isSome then n else n + 1)) := rfl

/-- Adding to the single vector of the type. -/
theorem add_ofSingle_self (t : κ) (vector : EventListenerVector L) (n : Nat)
    (r : RegisteredEventListener L) : (ofSingle t vector n).add t r =
      (addListenerToVector vector r).map fun result => (result.1, ofSingle t result.2 n) := by
  simp [add, moveToHashMap, ofSingle]

/-- The vector of another type moves into a hash map first. -/
theorem add_ofSingle_ne {single t : κ} (h : t ≠ single) (vector : EventListenerVector L) (n : Nat)
    (r : RegisteredEventListener L) : (ofSingle single vector n).add t r =
      (ofHashMap ((∅ : AList fun _ : κ => EventListenerVector L).insert single vector) n).add
        t r := by
  simp [add, moveToHashMap, ofSingle, ofHashMap, Ne.symm h]

/-- Adding to nothing, which makes a single vector. -/
theorem add_ofNone (n : Nat) (t : κ) (r : RegisteredEventListener L) :
    (ofNone n : EventListenerMap κ L).add t r =
      (addListenerToVector ⟨n, []⟩ r).map fun result =>
        (result.1, ofSingle t result.2 (n + 1)) := rfl

/-- `add` puts the listener into the vector of its type, which it makes if there is none. -/
theorem find_add {map map' : EventListenerMap κ L} {t : κ} {r : RegisteredEventListener L}
    {added : Bool} (h : map.add t r = some (added, map')) :
    ∃ vector, addListenerToVector ((map.find t).getD ⟨map.vectorsMade, []⟩) r =
        some (added, vector) ∧
      (∀ t', map'.find t' = if t' = t then some vector else map.find t') ∧
      map'.vectorsMade =
        if (map.find t).isSome then map.vectorsMade else map.vectorsMade + 1 := by
  -- in a hash map the vector of the type is replaced or made
  have hhash : ∀ {hashMap : AList fun _ : κ => EventListenerVector L} {n : Nat},
      (ofHashMap hashMap n).add t r = some (added, map') →
      ∃ vector, addListenerToVector ((hashMap.lookup t).getD ⟨n, []⟩) r = some (added, vector) ∧
        (∀ t', map'.find t' = if t' = t then some vector else hashMap.lookup t') ∧
        map'.vectorsMade = if (hashMap.lookup t).isSome then n else n + 1 := by
    intro hashMap n h
    rw [add_ofHashMap, Option.map_eq_some_iff] at h
    obtain ⟨⟨added', vector⟩, hadd, heq⟩ := h
    obtain ⟨rfl, rfl⟩ := Prod.mk.inj heq
    exact ⟨vector, hadd, lookup_insert_eq_ite hashMap vector t, rfl⟩
  rcases map.eq_of_kept with ⟨hashMap, n, rfl⟩ | ⟨single, vector, n, rfl⟩ | ⟨n, rfl⟩
  · exact hhash h
  · -- the listener is for the single type
    by_cases hs : t = single
    · subst hs
      rw [add_ofSingle_self, Option.map_eq_some_iff] at h
      obtain ⟨⟨added', vector'⟩, hadd, heq⟩ := h
      obtain ⟨rfl, rfl⟩ := Prod.mk.inj heq
      refine ⟨vector', by simpa using hadd, fun t' => ?_, by simp⟩
      rw [find_ofSingle, find_ofSingle]
      split <;> rfl
    · -- it is for another type, so that a hash map is made of both
      rw [add_ofSingle_ne hs] at h
      obtain ⟨vector', hadd, hfind, hmade⟩ := hhash h
      rw [AList.lookup_insert_ne hs, AList.lookup_empty] at hadd hmade
      refine ⟨vector', by simpa [hs] using hadd, fun t' => ?_, by simpa [hs] using hmade⟩
      rw [hfind, lookup_insert_eq_ite, find_ofSingle, AList.lookup_empty]
  · -- the map is empty
    rw [add_ofNone, Option.map_eq_some_iff] at h
    obtain ⟨⟨added', vector'⟩, hadd, heq⟩ := h
    obtain ⟨rfl, rfl⟩ := Prod.mk.inj heq
    exact ⟨vector', hadd, fun t' => by rw [find_ofSingle, find_ofNone], rfl⟩

/-- The index of a listener that is removed is that at which it was. -/
theorem removeListenerFromVector_fst (vector : EventListenerVector L)
    (r : RegisteredEventListener L) :
    (removeListenerFromVector vector r).1 = indexOf vector r := by
  rw [removeListenerFromVector]
  split <;> simp_all

/-- The vector that is left of `vector`, if any is. -/
def remaining (vector : EventListenerVector L) (r : RegisteredEventListener L) :
    Option (EventListenerVector L) :=
  if (removeListenerFromVector vector r).2.listeners.isEmpty then none
  else some (removeListenerFromVector vector r).2

/-- `remove` takes the listener out of the vector of its type, and the vector with its last
    listener. -/
theorem find_remove (map : EventListenerMap κ L) (t : κ) (r : RegisteredEventListener L) :
    (map.remove t r).1 = ((map.find t).bind fun vector => indexOf vector r) ∧
      (∀ t', (map.remove t r).2.find t' =
        if t' = t then (map.find t).bind fun vector => remaining vector r else map.find t') ∧
      (map.remove t r).2.vectorsMade = map.vectorsMade := by
  -- without a vector of the type nothing is done
  have hnone : ∀ {map : EventListenerMap κ L}, map.find t = none →
      map.remove t r = (none, map) →
      (map.remove t r).1 = ((map.find t).bind fun vector => indexOf vector r) ∧
      (∀ t', (map.remove t r).2.find t' =
        if t' = t then (map.find t).bind fun vector => remaining vector r else map.find t') ∧
      (map.remove t r).2.vectorsMade = map.vectorsMade := by
    intro map hfind hremove
    rw [hremove, hfind]
    refine ⟨rfl, fun t' => ?_, rfl⟩
    split
    · next ht => rw [ht, hfind]; rfl
    · rfl
  rcases map.eq_of_kept with ⟨hashMap, n, rfl⟩ | ⟨single, vector, n, rfl⟩ | ⟨n, rfl⟩
  · cases hlookup : hashMap.lookup t with
    | none => exact hnone hlookup (by simp [remove, ofHashMap, hlookup])
    | some vector =>
      have hremove : (ofHashMap hashMap n).remove t r = (indexOf vector r,
          if (removeListenerFromVector vector r).2.listeners.isEmpty
          then ofHashMap (hashMap.erase t) n
          else ofHashMap (hashMap.insert t (removeListenerFromVector vector r).2) n) := by
        simp only [remove, ofHashMap, hlookup, removeListenerFromVector_fst]
      rw [hremove, find_ofHashMap, hlookup]
      refine ⟨rfl, fun t' => ?_, by split <;> rfl⟩
      simp only [find_ofHashMap, Option.bind_some, remaining]
      split
      · rw [find_ofHashMap, lookup_erase_eq_ite]
      · rw [find_ofHashMap, lookup_insert_eq_ite]
  · by_cases hs : t = single
    · subst hs
      have hremove : (ofSingle t vector n).remove t r = (indexOf vector r,
          if (removeListenerFromVector vector r).2.listeners.isEmpty then ofNone n
          else ofSingle t (removeListenerFromVector vector r).2 n) := by
        simp only [remove, ofSingle, ne_eq, not_true_eq_false, ↓reduceIte,
          removeListenerFromVector_fst]
      rw [hremove, find_ofSingle, if_pos rfl]
      refine ⟨rfl, fun t' => ?_, by split <;> rfl⟩
      simp only [find_ofSingle, Option.bind_some, remaining]
      split
      · simp
      · rw [find_ofSingle]
        split <;> rfl
    · refine hnone (by rw [find_ofSingle, if_neg hs]) ?_
      simp [remove, ofSingle, Ne.symm hs]
  · exact hnone rfl (by simp [remove, ofNone])

end

end EventListenerMap

end R4
