import R4.ForStd.BinaryFile

/-!
# Sets of strings

`StringSet` (`wtf/StringSet.h`, `StringSet.cpp`): the strings of an action log, one after the
other in one array, and a hash table of their positions with linear probing. The table is not
stored in a file: it is built again from the strings.

The hash function of strings is that of the standard library; `stringHash` stands for what
`StringSet::stringHash` makes of it. `none` is the end of the process, undefined behaviour, or
a loop that does not end; positions and the load of the table are of the type `int`.
-/

namespace R4

/-- The characters of a C string, which hold no null character. -/
def CStr := { s : List UInt8 // ∀ c ∈ s, c ≠ 0 }

instance : DecidableEq CStr := inferInstanceAs (DecidableEq { s : List UInt8 // ∀ c ∈ s, c ≠ 0 })

/-- `StringSet`. A free slot of the hash table holds -1. -/
structure StringSet where
  data : List UInt8
  hashes : List Int
  hashTableLoad : Nat
deriving DecidableEq

namespace StringSet

/-- `StringSet()`. -/
def init : StringSet := ⟨[], [], 0⟩

/-- The C string at a position of an array. A string that is not terminated cannot be read. -/
def cstringAt (data : List UInt8) (pos : Nat) : Option (List UInt8) :=
  if 0 ∈ data.drop pos then some ((data.drop pos).takeWhile fun c => c ≠ 0) else none

/-- `getString`. -/
def getString (set : StringSet) (index : Int) : Option (List UInt8) :=
  if index < 0 then none else cstringAt set.data index.toNat

/-! ## The hash table -/

/-- `hash % m_hashes.size()`: the hash is converted to `size_t`. -/
def slot (hash : Int) (size : Nat) : Nat := (hash % 2 ^ 64).toNat % size

/-- The slot behind `p`. -/
def nextSlot (size p : Nat) : Nat := if p + 1 = size then 0 else p + 1

/-- The loop of `findStringL`. When all slots have been visited it goes on forever. -/
def findFrom (set : StringSet) (s : List UInt8) : Nat → Nat → Option Int
  | 0, _ => none
  | left + 1, p => do
    let value ← set.hashes[p]?
    if value = -1 then some (-1)
    else
      let s₁ ← set.getString value
      if s = s₁ then some value else findFrom set s left (nextSlot set.hashes.length p)

/-- `findStringL`. -/
def findStringL (set : StringSet) (s : List UInt8) (hash : Int) : Option Int :=
  if set.hashes.length = 0 then some (-1)
  else set.findFrom s set.hashes.length (slot hash set.hashes.length)

/-- The loop of `addHashNoRehash`: the first free slot. -/
def freeSlot (hashes : List Int) : Nat → Nat → Option Nat
  | 0, _ => none
  | left + 1, p => do
    let value ← hashes[p]?
    if value = -1 then some p else freeSlot hashes left (nextSlot hashes.length p)

/-- `addHashNoRehash`. -/
def addHashNoRehash (hash value : Int) (set : StringSet) : Option StringSet :=
  (freeSlot set.hashes set.hashes.length (slot hash set.hashes.length)).map fun p =>
    { set with hashes := set.hashes.set p value, hashTableLoad := set.hashTableLoad + 1 }

variable (stringHash : List UInt8 → Int)

/-- The loop of `rehashAll` over the strings from `pos` on. -/
def rehashFrom (data : List UInt8) (pos : Nat) (set : StringSet) : Option StringSet :=
  if pos < data.length then
    (cstringAt data pos).bind fun str =>
      (set.addHashNoRehash (stringHash str) pos).bind fun set =>
        rehashFrom data (pos + str.length + 1) set
  else some set
termination_by data.length - pos

/-- `rehashAll`. -/
def rehashAll (set : StringSet) : Option StringSet :=
  rehashFrom stringHash set.data 0 { set with hashTableLoad := 0 }

/-- `m_hashTableLoad * 2`, the product of two values of the type `int`. -/
def doubleLoad (set : StringSet) : Option Nat :=
  if set.hashTableLoad * 2 < 2 ^ 31 then some (set.hashTableLoad * 2) else none

/-- The loop of `addHash`. The table more than doubles each time, so the rounds that are given
    are enough. -/
def grow : Nat → StringSet → Option StringSet
  | 0, set => do
    let load ← set.doubleLoad
    if load ≥ set.hashes.length then none else some set
  | rounds + 1, set => do
    let load ← set.doubleLoad
    if load ≥ set.hashes.length then
      (rehashAll stringHash { set with
        hashes := List.replicate (set.hashes.length * 2 + 3) (-1) }).bind (grow rounds)
    else some set

/-- `addHash`. -/
def addHash (hash value : Int) (set : StringSet) : Option StringSet :=
  (grow stringHash (set.hashTableLoad + set.data.length + 1) set).bind (addHashNoRehash hash value)

/-! ## The operations -/

/-- `pos = m_data.size()`: a larger size is no value of the type `int`. -/
def endOfData (set : StringSet) : Option Int :=
  if set.data.length < 2 ^ 31 then some set.data.length else none

/-- `addStringL`, which appends the string with its null character. -/
def addStringL (set : StringSet) (s : List UInt8) : Option (Int × StringSet) := do
  let hash := stringHash s
  let pos ← set.findStringL s hash
  if pos = -1 then
    let pos ← set.endOfData
    let set ← addHash stringHash hash pos set
    return (pos, { set with data := set.data ++ s ++ [0] })
  else return (pos, set)

/-- `addString`: the index of the string. -/
def addString (set : StringSet) (s : CStr) : Option (Int × StringSet) :=
  set.addStringL stringHash s.1

/-- `findString`: the index, or -1. -/
def findString (set : StringSet) (s : CStr) : Option Int := set.findStringL s.1 (stringHash s.1)

/-- `containsString`. -/
def containsString (set : StringSet) (s : CStr) : Option Bool :=
  (set.findString stringHash s).map fun pos => pos ≠ -1

/-! ## Files -/

/-- `saveToFile`. -/
def saveToFile (set : StringSet) : List UInt8 :=
  BinaryFile.writeInt set.data.length ++ set.data ++ BinaryFile.writeInt set.hashes.length

/-- `m_data.resize(n, 0)`. -/
def resize (data : List UInt8) (n : Nat) : List UInt8 := (data ++ List.replicate n 0).take n

/-- `loadFromFile` on a set and a file: the result, the set that is left and the rest of the file.
    It ends with an exception when one of the counts is negative. -/
def loadFromFileInto (set : StringSet) (f : List UInt8) :
    Option (Bool × StringSet × List UInt8) :=
  match BinaryFile.readInt f with
  | none => some (false, set, [])
  | some (n, f) =>
    if n < 0 then none
    else if f.length < n.toNat then
      some (false, { set with data := f ++ (resize set.data n.toNat).drop f.length }, [])
    else
      let set := { set with data := f.take n.toNat }
      match BinaryFile.readInt (f.drop n.toNat) with
      | none => some (false, set, [])
      | some (n, f) =>
        if n < 0 then none
        else
          (rehashAll stringHash { set with hashes := List.replicate n.toNat (-1) }).map
            fun set => (true, set, f)

/-- `loadFromFile` where it returns true. The set that is loaded into is overwritten. -/
def loadFromFile : BinaryFile.FileReader StringSet := fun f => do
  let (n, f) ← BinaryFile.readCount f
  let (data, f) ← BinaryFile.readBytes n f
  let (n, f) ← BinaryFile.readCount f
  let set ← rehashAll stringHash ⟨data, List.replicate n (-1), 0⟩
  return (set, f)

end StringSet

end R4
