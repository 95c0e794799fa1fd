import Halo.Base.Dlist

/-!
# The pool allocator (`mem/static_allocator.go`)

The allocator manages a pool of memory. The pool starts with the allocator's own header; the blocks
follow, each with a block header in front of its data. Blocks are linked twice: with their physical
neighbours (`next`, `prev`) and, while they are free, in the free list (`freeNext`, `freePrev`).

The block headers are a heap here, from the address of a header to its fields. What a caller writes
to the data of a block is not in it: the headers do not overlap each other or the data, which is
what the invariant of the pool says. Pointer arithmetic stays in the pool, so addresses are natural
numbers; sizes are the machine's 64-bit words.

A loop has the size of the pool as fuel. A result is `none` when fuel is used up, or where the
source would read a header that is not there; it is proved that there is always a result.

* `malloc`, `free`: first fit with a split, and coalescing with both neighbours.
* `PoolEvent`, `Pool.step`: the runs of an allocator, where only live pointers are freed.
-/

namespace Halo

/-- `blockHeader`: the free flag in the highest bit and the size of the data in the others. -/
abbrev BlockHeader := UInt64

namespace BlockHeader

/-- `(1<<64 - 1) >> 1`. -/
def sizeMask : UInt64 := 0x7fffffffffffffff

/-- `1 << 63`. -/
def freeBit : UInt64 := 0x8000000000000000

/-- `blockHeader.getFree`. -/
def getFree (h : BlockHeader) : Bool := h >>> 63 == 1

/-- `blockHeader.setFree`. -/
def setFree (h : BlockHeader) (free : Bool) : BlockHeader :=
  (if free then freeBit else 0) ||| (h &&& sizeMask)

/-- `blockHeader.getSize`. -/
def getSize (h : BlockHeader) : UInt64 := h &&& sizeMask

/-- `blockHeader.setSize`. -/
def setSize (h : BlockHeader) (size : UInt64) : BlockHeader :=
  (h &&& freeBit) ||| (size &&& sizeMask)

end BlockHeader

/-- `block`. -/
structure Block where
  header : BlockHeader
  next : Option Nat
  prev : Option Nat
  freeNext : Option Nat
  freePrev : Option Nat

/-- `blockSize`: five words. -/
def blockSize : UInt64 := 40

/-- `SizeOf[StaticAllocator]()`: two words and a 32-bit lock, with padding. -/
def allocatorSize : UInt64 := 24

/-- `StaticAllocator`, with the block headers in its pool. -/
structure StaticAllocator where
  allocSize : UInt64
  freeBlockList : Option Nat
  mem : Heap Block

/-- `NewStaticAllocator` for the pool of `size` bytes at `memory`; `none` is the result `nil`. -/
def newStaticAllocator (memory : Nat) (size : UInt64) : Option StaticAllocator :=
  if memory = 0 then none
  else if size < allocatorSize + blockSize then none
  else
    let b := memory + allocatorSize.toNat
    let header :=
      BlockHeader.setFree (BlockHeader.setSize 0 (size - allocatorSize - blockSize)) true
    some {
      allocSize := allocatorSize
      freeBlockList := some b
      mem := Function.update (fun _ => none) b (some ⟨header, none, none, none, none⟩) }

namespace StaticAllocator

/-- A write to the header of the block at `b`. -/
def modify (h : StaticAllocator) (b : Nat) (f : Block → Block) : Option StaticAllocator :=
  (h.mem b).map fun n => { h with mem := Function.update h.mem b (some (f n)) }

/-- A write to the header of the block at `b`, if there is one. -/
def modifyOpt (h : StaticAllocator) (b : Option Nat) (f : Block → Block) : Option StaticAllocator :=
  match b with
  | none => some h
  | some b => h.modify b f

/-- `insertFreeBlock`. -/
def insertFreeBlock (h : StaticAllocator) (b : Nat) : Option StaticAllocator := do
  let h ← h.modify b fun x => { x with freeNext := h.freeBlockList }
  let h ← h.modifyOpt h.freeBlockList fun x => { x with freePrev := some b }
  let h ← h.modify b fun x => { x with freePrev := none }
  return { h with freeBlockList := some b }

/-- The first write of `removeFreeBlock`: past the block with the header `n`, from the block before
it or from the head of the list. -/
def bypass (h : StaticAllocator) (n : Block) : Option StaticAllocator :=
  match n.freePrev with
  | some p => h.modify p fun x => { x with freeNext := n.freeNext }
  | none => some { h with freeBlockList := n.freeNext }

/-- `removeFreeBlock`. -/
def removeFreeBlock (h : StaticAllocator) (b : Nat) : Option StaticAllocator := do
  let n ← h.mem b
  let h ← h.bypass n
  let n ← h.mem b
  let h ← h.modifyOpt n.freeNext fun x => { x with freePrev := n.freePrev }
  h.modify b fun x => { x with freeNext := none, freePrev := none }

/-- The search of `Malloc`: the first free block from `b` on that is large enough. -/
def firstFit (mem : Heap Block) (size : UInt64) : (fuel : Nat) → Option Nat → Option (Option Nat)
  | _, none => some none
  | 0, some _ => none
  | fuel + 1, some b => do
    let n ← mem b
    if n.header.getSize < size then firstFit mem size fuel n.freeNext else return some b

/-- The split of `Malloc`: the rest of the block behind `size` bytes becomes a free block. -/
def split (h : StaticAllocator) (b : Nat) (size : UInt64) : Option StaticAllocator := do
  let n ← h.mem b
  let nb := b + blockSize.toNat + size.toNat
  -- the old contents of the new header do not matter, since both its parts are set
  let old : BlockHeader := ((h.mem nb).map Block.header).getD 0
  let header := (old.setSize (n.header.getSize - size - blockSize)).setFree true
  let h := { h with mem := Function.update h.mem nb (some ⟨header, n.next, some b, none, none⟩) }
  let h ← h.modifyOpt n.next fun x => { x with prev := some nb }
  let h ← h.modify b fun x => { x with next := some nb }
  let h ← h.insertFreeBlock nb
  h.modify b fun x => { x with header := x.header.setSize size }

/-- The end of `Malloc`: the block `b` becomes an allocated one. -/
def take (h : StaticAllocator) (b : Nat) : Option (StaticAllocator × Option Nat) := do
  let h ← h.removeFreeBlock b
  let h ← h.modify b fun x => { x with header := x.header.setFree false }
  let n ← h.mem b
  return ({ h with allocSize := h.allocSize + (blockSize + n.header.getSize) },
    some (b + blockSize.toNat))

/-- The body of the search of `Malloc` for the block `b`, which is large enough. -/
def allocate (h : StaticAllocator) (b : Nat) (size : UInt64) :
    Option (StaticAllocator × Option Nat) := do
  let n ← h.mem b
  if n.header.getSize - size > blockSize then
    let h ← h.split b size
    h.take b
  else h.take b

/-- `StaticAllocator.Malloc`; `fuel` bounds the search. -/
def malloc (h : StaticAllocator) (fuel : Nat) (size : UInt64) :
    Option (StaticAllocator × Option Nat) :=
  if size = 0 then some (h, none)
  else do
    let size := (size + 7) &&& ~~~7
    match ← firstFit h.mem size fuel h.freeBlockList with
    | none => return (h, none)
    | some b => h.allocate b size

/-- The block `x` takes over its physical neighbour `y`; `Free` does this in both directions. -/
def absorb (h : StaticAllocator) (x y : Nat) : Option StaticAllocator := do
  let m ← h.mem y
  let h ← h.modify x fun n =>
    { n with header := n.header.setSize (n.header.getSize + m.header.getSize + blockSize) }
  let h ← h.modify x fun n => { n with next := m.next }
  h.modifyOpt m.next fun n => { n with prev := some x }

/-- The loop of `Free` that merges the following free blocks into `b`. -/
def mergeNext (b : Nat) : (fuel : Nat) → StaticAllocator → Option StaticAllocator
  | 0, _ => none
  | fuel + 1, h => do
    let n ← h.mem b
    match n.next with
    | none => return h
    | some next =>
      let m ← h.mem next
      if m.header.getFree then
        let h ← h.removeFreeBlock next
        let h ← h.absorb b next
        mergeNext b fuel h
      else return h

/-- The end of `Free`: the block `b` is merged into a free block before it, and the result becomes a
block of the free list. -/
def insertMerged (h : StaticAllocator) (b : Nat) : Option StaticAllocator := do
  let n ← h.mem b
  match n.prev with
  | none => h.insertFreeBlock b
  | some prev =>
    let m ← h.mem prev
    if m.header.getFree then
      let h ← h.removeFreeBlock prev
      let h ← h.absorb prev b
      h.insertFreeBlock prev
    else h.insertFreeBlock b

/-- `StaticAllocator.Free`; `fuel` bounds the merging loop. -/
def free (h : StaticAllocator) (fuel : Nat) (p : Nat) : Option (StaticAllocator × Bool) :=
  if p = 0 then some (h, false)
  else do
    let b := p - blockSize.toNat
    let n ← h.mem b
    if n.header.getFree then return (h, false)
    else
      let h ← h.modify b fun x => { x with header := x.header.setFree true }
      let h := { h with allocSize := h.allocSize - (blockSize + n.header.getSize) }
      let h ← mergeNext b fuel h
      let h ← h.insertMerged b
      return (h, true)

end StaticAllocator

/-- A pool in use: its place, the allocator, and the pointers that callers have. -/
structure Pool where
  memory : Nat
  size : UInt64
  allocator : StaticAllocator
  live : List Nat

/-- The calls of an allocator. -/
inductive PoolEvent where
  | malloc (size : UInt64)
  | free (p : Nat)

namespace Pool

/-- A pool after `NewStaticAllocator`. -/
def new (memory : Nat) (size : UInt64) : Option Pool :=
  (newStaticAllocator memory size).map fun h => ⟨memory, size, h, []⟩

/-- `StaticAllocator.Malloc` on the allocator of a pool. -/
def malloc (s : Pool) (size : UInt64) : Option (Pool × Option Nat) := do
  let (h, p) ← s.allocator.malloc s.size.toNat size
  return ({ s with allocator := h, live := p.toList ++ s.live }, p)

/-- `StaticAllocator.Free` on the allocator of a pool. -/
def free (s : Pool) (p : Nat) : Option (Pool × Bool) := do
  let (h, freed) ← s.allocator.free s.size.toNat p
  return ({ s with allocator := h, live := s.live.erase p }, freed)

/-- One call. Only a live pointer is freed; another one is no call of a correct caller. -/
def step (s : Pool) : PoolEvent → Option Pool
  | .malloc size => (s.malloc size).map Prod.fst
  | .free p => if p ∈ s.live then (s.free p).map Prod.fst else some s

/-- A sequence of calls. -/
def run (s : Pool) : List PoolEvent → Option Pool
  | [] => some s
  | e :: es => do
    let s ← s.step e
    run s es

end Pool

end Halo
