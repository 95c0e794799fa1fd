import Halo.Base.Dlist

/-!
# The hash map (`hashmap/hashmap.go`)

A map has an array of bucket heads and keeps the entries of a bucket in a doubly linked list of
allocated nodes. The array (`list/array_list.go`) is a list here: it is created with the capacity
for all its elements, so that `Add` never grows it.

The memory for entries is the heap of the map. The allocator may fail at any call and otherwise
returns any address that is not allocated (`malloc`).

An array of pointers has fewer than `2 ^ 61` elements (`bucketFits`). In the source the size in
bytes of a larger one wraps to a smaller number, and the loop that fills the array then leaves the
memory that was allocated: `NewHashMapWithCap` does not return. `Grow` cannot get there, since the
entries and the array of a map of that size do not fit in the address space.

The loops over a chain have no bound in the source: here they have fuel, and the result is `none`
when it is used up, or when a pointer is not one to an entry. The operations take the number of
entries plus one as fuel. That no result is `none` is part of what is proved.
-/

namespace Halo

/-- `entry`. -/
structure MapEntry (K V : Type) where
  key : K
  value : V
  front : Option Nat
  next : Option Nat

/-- `HashMap`, with the entries that are allocated. -/
structure HashMap (K V : Type) where
  bucket : List (Option Nat)
  len : Nat
  heap : Heap (MapEntry K V)

/-- What the allocator does during a `Set`: the address for a new entry, whether there is memory
for the array of `Grow`, and the addresses for the entries of `Grow`, in order. -/
structure SetAlloc where
  entry : Option Nat
  growBucket : Bool
  growEntries : List (Option Nat)

namespace HashMap

variable {K V : Type} [DecidableEq K] (hash : K → UInt64)

/-- `initBucketSize`. -/
def initBucketSize : Nat := 8

/-- `MallocType[entry]`: an address that is not allocated, or none. -/
def malloc (heap : Heap (MapEntry K V)) (choice : Option Nat) : Option Nat :=
  choice.filter fun p => (heap p).isNone

/-- `FreeType[entry]`. -/
def free (heap : Heap (MapEntry K V)) (p : Nat) : Heap (MapEntry K V) :=
  Function.update heap p none

/-- An array of `n` pointers of eight bytes fits in the address space. -/
def bucketFits (n : Nat) : Bool := n * 8 < 2 ^ 64

/-- `NewHashMapWithCap`; the flags say whether there is memory for the map and for its array. -/
def newHashMapWithCap (mapOk bucketOk : Bool) (cap : Int) : Option (HashMap K V) :=
  let cap := if cap < initBucketSize then initBucketSize else cap.toNat
  if mapOk && bucketOk && bucketFits cap then
    some { bucket := List.replicate cap none, len := 0, heap := fun _ => none }
  else none

/-- The index of the bucket of a key among `n` buckets. -/
def slot (n : Nat) (key : K) : Nat := (hash key % UInt64.ofNat n).toNat

/-- The loop of `Get` from the entry `e`. -/
def getLoop (heap : Heap (MapEntry K V)) (key : K) : (fuel : Nat) → (e : Nat) → Option (Option V)
  | 0, _ => none
  | fuel + 1, e => do
    let n ← heap e
    if n.key = key then return some n.value
    match n.next with
    | none => return none
    | some e => getLoop heap key fuel e

/-- `HashMap.Get`. -/
def get (m : HashMap K V) (key : K) : Option (Option V) :=
  match m.bucket.getD (slot hash m.bucket.length key) none with
  | none => some none
  | some e => getLoop m.heap key (m.len + 1) e

/-- The outcome of the search for the place of a key in a chain. -/
inductive Inserted (K V : Type) where
  /-- There was no memory for a new entry. -/
  | failed
  /-- An entry of the key got the value. -/
  | updated (heap : Heap (MapEntry K V))
  /-- There is a new entry. -/
  | added (bucket : List (Option Nat)) (heap : Heap (MapEntry K V))

/-- The loop of `Set` from the entry `e`. `Grow` has the same loop. -/
def insertLoop (bucket : List (Option Nat)) (heap : Heap (MapEntry K V)) (choice : Option Nat)
    (key : K) (value : V) : (fuel : Nat) → (e : Nat) → Option (Inserted K V)
  | 0, _ => none
  | fuel + 1, e => do
    let n ← heap e
    if n.key = key then
      return .updated (Function.update heap e (some { n with key := key, value := value }))
    match n.next with
    | none =>
      match malloc heap choice with
      | none => return .failed
      | some p =>
        let heap := Function.update heap p (some ⟨key, value, some e, none⟩)
        return .added bucket (Function.update heap e (some { n with next := some p }))
    | some e => insertLoop bucket heap choice key value fuel e

/-- The insertion into a bucket array, which `Set` and `Grow` share. -/
def insertEntry (bucket : List (Option Nat)) (heap : Heap (MapEntry K V)) (choice : Option Nat)
    (fuel : Nat) (key : K) (value : V) : Option (Inserted K V) :=
  let i := slot hash bucket.length key
  match bucket.getD i none with
  | none =>
    match malloc heap choice with
    | none => some .failed
    | some p => some (.added (bucket.set i (some p))
        (Function.update heap p (some ⟨key, value, none, none⟩)))
  | some e => insertLoop bucket heap choice key value fuel e

/-- The loop that frees a chain. -/
def freeChain : (fuel : Nat) → Heap (MapEntry K V) → Option Nat → Option (Heap (MapEntry K V))
  | _, heap, none => some heap
  | 0, _, some _ => none
  | fuel + 1, heap, some e => do
    let n ← heap e
    freeChain fuel (free heap e) n.next

/-- The loop that frees the chains of all buckets. -/
def freeChains (fuel : Nat) : Heap (MapEntry K V) → List (Option Nat) →
    Option (Heap (MapEntry K V))
  | heap, [] => some heap
  | heap, e :: bucket => do
    let heap ← freeChain fuel heap e
    freeChains fuel heap bucket

/-- `HashMap.Clear`. -/
def clear (m : HashMap K V) : Option (HashMap K V) := do
  let heap ← freeChains (m.len + 1) m.heap m.bucket
  return { bucket := m.bucket.map fun _ => none, len := 0, heap := heap }

/-- What `Grow` has built: the new buckets, the number of entries in them, the memory, and the
allocations to come. -/
structure Growing (K V : Type) where
  bucket : List (Option Nat)
  len : Nat
  heap : Heap (MapEntry K V)
  choices : List (Option Nat)

/-- The callback of `Grow` for one entry; the flag is false where there is no memory. -/
def growEntry (fuel : Nat) (g : Growing K V) (key : K) (value : V) :
    Option (Growing K V × Bool) := do
  match ← insertEntry hash g.bucket g.heap (g.choices.headD none) fuel key value with
  | .failed => return (g, false)
  | .updated heap => return ({ g with heap := heap }, true)
  | .added bucket heap => return (⟨bucket, g.len + 1, heap, g.choices.tail⟩, true)

/-- `For` over one chain with the callback of `Grow`. The next entry is read before the callback
runs. -/
def growChain (callbackFuel : Nat) : (fuel : Nat) → Growing K V → Option Nat →
    Option (Growing K V × Bool)
  | _, g, none => some (g, true)
  | 0, _, some _ => none
  | fuel + 1, g, some e => do
    let n ← g.heap e
    let (g, ok) ← growEntry hash callbackFuel g n.key n.value
    if ok then growChain callbackFuel fuel g n.next else return (g, false)

/-- `For` over all buckets with the callback of `Grow`. -/
def growChains (fuel : Nat) : Growing K V → List (Option Nat) → Option (Growing K V × Bool)
  | g, [] => some (g, true)
  | g, e :: bucket => do
    let (g, ok) ← growChain hash fuel fuel g e
    if ok then growChains fuel g bucket else return (g, false)

/-- `HashMap.Grow`. -/
def grow (m : HashMap K V) (alloc : SetAlloc) : Option (HashMap K V) :=
  if ¬ (alloc.growBucket && bucketFits (m.bucket.length * 2)) then some m
  else do
    let empty := List.replicate (m.bucket.length * 2) none
    let (g, ok) ← growChains hash (m.len + 1) ⟨empty, 0, m.heap, alloc.growEntries⟩ m.bucket
    if ok then
      let old ← clear { m with heap := g.heap }
      return { bucket := g.bucket, len := g.len, heap := old.heap }
    else
      let heap ← freeChains (m.len + 1) g.heap g.bucket
      return { m with heap := heap }

/-- `HashMap.Set`. -/
def set (m : HashMap K V) (alloc : SetAlloc) (key : K) (value : V) :
    Option (HashMap K V × Bool) := do
  match ← insertEntry hash m.bucket m.heap alloc.entry (m.len + 1) key value with
  | .failed => return (m, false)
  | .updated heap => return ({ m with heap := heap }, true)
  | .added bucket heap =>
    let m := { bucket := bucket, len := m.len + 1, heap := heap }
    if m.len > m.bucket.length * 3 / 4 then
      let m ← grow hash m alloc
      return (m, true)
    else return (m, true)

/-- A write to the entry at `p`, if there is one. -/
def modify (heap : Heap (MapEntry K V)) (p : Option Nat) (f : MapEntry K V → MapEntry K V) :
    Option (Heap (MapEntry K V)) :=
  match p with
  | none => some heap
  | some p => (heap p).map fun n => Function.update heap p (some (f n))

/-- The loop of `Del` from the entry `e`. -/
def delLoop (m : HashMap K V) (key : K) : (fuel : Nat) → (e : Nat) → Option (HashMap K V)
  | 0, _ => none
  | fuel + 1, e => do
    let n ← m.heap e
    if n.key = key then
      let heap ← modify m.heap n.front fun f => { f with next := n.next }
      let heap ← modify heap n.next fun x => { x with front := n.front }
      return { m with heap := free heap e, len := m.len - 1 }
    match n.next with
    | none => return m
    | some e => delLoop m key fuel e

/-- `HashMap.Del`. -/
def del (m : HashMap K V) (key : K) : Option (HashMap K V) :=
  let i := slot hash m.bucket.length key
  match m.bucket.getD i none with
  | none => some m
  | some e => do
    let n ← m.heap e
    if n.key = key then
      let heap ← modify m.heap n.next fun x => { x with front := none }
      return { bucket := m.bucket.set i n.next, len := m.len - 1, heap := free heap e }
    else delLoop m key (m.len + 1) e

end HashMap

/-- The operations of a map. -/
inductive MapEvent (K V : Type) where
  | get (key : K)
  | set (alloc : SetAlloc) (key : K) (value : V)
  | del (key : K)
  | clear
  | len

/-- What an operation returns. -/
inductive MapResult (V : Type) where
  | value (v : Option V)
  | ok (b : Bool)
  | unit
  | count (n : Nat)
  deriving DecidableEq

namespace HashMap

variable {K V : Type} [DecidableEq K] (hash : K → UInt64)

/-- One operation. -/
def step (m : HashMap K V) : MapEvent K V → Option (HashMap K V × MapResult V)
  | .get key => (m.get hash key).map fun v => (m, .value v)
  | .set alloc key value => (m.set hash alloc key value).map fun r => (r.1, .ok r.2)
  | .del key => (m.del hash key).map fun m => (m, .unit)
  | .clear => m.clear.map fun m => (m, .unit)
  | .len => some (m, .count m.len)

/-- A sequence of operations and what they return. -/
def runOps (m : HashMap K V) : List (MapEvent K V) → Option (HashMap K V × List (MapResult V))
  | [] => some (m, [])
  | e :: es => do
    let (m, r) ← m.step hash e
    let (m, rs) ← runOps m es
    return (m, r :: rs)

end HashMap

end Halo
