import Halo.Base.Bytes
import Halo.Base.Window

/-!
# The ring buffer between one producer and one consumer (`mem/ring_buffer.go`)

The ring is shared memory: two cursors and a data area that is used in a circle. The producer and
the consumer keep a copy of their own cursor and a cached, possibly old, copy of the other one.

`ProducerState` and `ConsumerState` are the places in the code between two accesses to the ring. A
step makes one access: a load or a store of a cursor, the load or the store of a record's length, or
the copy of one byte of a payload (`MemCpy` is taken apart into its bytes). The steps of the two
sides interleave in any way (`RingEvent`).

What depends on where the ring is mapped (`ringBufferLocalData`) is a parameter of the calls that
make a context. An access outside of the data area has no result.

* `ringBufferCreate`: the ring of a piece of memory.
* `writePacket`, `producerStep`: `WritePacket` and `NewRingBufferProducer`.
* `readPacket`, `consumerStep`: `ReadPacket` and `NewRingBufferConsumer`.
* `RingState.step`: both sides together; the outputs are the results of the calls.
-/

namespace Halo

/-- `ringBufferRecordHeaderSize`. -/
def recordHeaderSize : UInt64 := 4

/-- `ringBufferRecordAlign`. -/
def recordAlign : UInt64 := 4

/-- `ringBufferMinDataSize`. -/
def minDataSize : UInt64 := recordHeaderSize + recordAlign

/-- `ringBufferMaxPacketSize`. -/
def maxPacketSize : Nat := 2 ^ 32 - 1

/-- `ringBufferMaxDataSize`. -/
def maxDataSize : UInt64 := 0x4000000000000000

/-- `SizeOf[RingBuffer]()`: two cache lines. -/
def ringHeaderSize : UInt64 := 128

/-- `RingBuffer`, with its data area. -/
structure RingBuffer where
  head : UInt64
  tail : UInt64
  size : UInt64
  mask : UInt64
  buffer : Heap UInt8

/-- `ringBufferRecordSize`. -/
def ringBufferRecordSize (dataLen : UInt32) : UInt64 :=
  let totalSize := recordHeaderSize + dataLen.toUInt64
  (totalSize + recordAlign - 1) &&& ~~~(recordAlign - 1)

/-- `RingBufferCreate` in a piece of memory of `size` bytes; `memory` is what the memory behind the
ring's header has in it, and `none` is the pointer `nil`. -/
def ringBufferCreate (memory : Option (Nat → UInt8)) (size : UInt64) : Option RingBuffer :=
  match memory with
  | none => none
  | some memory =>
    if size < ringHeaderSize + minDataSize ∨ size > ringHeaderSize + maxDataSize then none
    else
      let size := size - ringHeaderSize
      if size < minDataSize ∨ size &&& (size - 1) ≠ 0 then none
      else some {
        head := 0
        tail := 0
        size := size
        mask := size - 1
        buffer := fun i => if i < size.toNat then some (memory i) else none }

namespace RingBuffer

/-- `ringBufferStructureValid`. -/
def structureValid (rb : RingBuffer) : Bool :=
  !(decide (rb.size < minDataSize) || decide (rb.size > maxDataSize) ||
    decide (rb.size &&& (rb.size - 1) ≠ 0) || decide (rb.mask ≠ rb.size - 1))

/-- The load of a record's length at an offset of the data area. -/
def loadLen (rb : RingBuffer) (pos : Nat) : Option UInt32 := do
  let b₀ ← rb.buffer pos
  let b₁ ← rb.buffer (pos + 1)
  let b₂ ← rb.buffer (pos + 2)
  let b₃ ← rb.buffer (pos + 3)
  return UInt32.ofNat (ofLe [b₀, b₁, b₂, b₃])

/-- The store of a record's length. -/
def storeLen (rb : RingBuffer) (pos : Nat) (dataLen : UInt32) : Option RingBuffer := do
  let buffer ← storeFrom rb.buffer pos (leBytes 4 dataLen.toNat)
  return { rb with buffer }

/-- The offset of the byte `k` of the payload of the record at the cursor `cursor`. The payload is
copied in one piece, or in two where the data area ends. -/
def dataOffset (rb : RingBuffer) (cursor : UInt64) (dataLen : UInt32) (k : Nat) : Nat :=
  let pos := cursor &&& rb.mask
  let dataPos := (pos + recordHeaderSize) &&& rb.mask
  let spaceAfter := rb.size - dataPos
  if spaceAfter ≥ dataLen.toUInt64 then dataPos.toNat + k
  else if k < spaceAfter.toNat then dataPos.toNat + k
  else k - spaceAfter.toNat

end RingBuffer

/-- `RingBufferProducer`. -/
structure RingBufferProducer where
  head : UInt64
  cachedTail : UInt64

/-- `RingBufferConsumer`. -/
structure RingBufferConsumer where
  tail : UInt64
  cachedHead : UInt64

/-- Where the producer is. -/
inductive ProducerState where
  /-- Between two calls; the context may be `nil`. -/
  | idle (p : Option RingBufferProducer)
  /-- Before the load of `tail` that replaces a cached one which cannot be right. -/
  | reloadTail (p : RingBufferProducer) (data : Bytes)
  /-- Before the load of `tail` for more space. -/
  | loadTail (p : RingBufferProducer) (data : Bytes)
  /-- Before the store of the length. -/
  | storeLen (p : RingBufferProducer) (data : Bytes)
  /-- `k` bytes of the payload are copied; after the last one `head` is published. -/
  | copy (p : RingBufferProducer) (data : Bytes) (k : Nat)
  /-- `NewRingBufferProducer` before its load of `tail`. -/
  | newTail
  /-- `NewRingBufferProducer` before its load of `head`. -/
  | newHead (tail : UInt64)

/-- Where the consumer is. -/
inductive ConsumerState where
  /-- Between two calls; the context may be `nil`. -/
  | idle (c : Option RingBufferConsumer)
  /-- Before the load of `head`; the cached one shows no record. -/
  | loadHead (c : RingBufferConsumer) (data : Bytes)
  /-- Before the load of the length. -/
  | loadLen (c : RingBufferConsumer) (data : Bytes)
  /-- Before the load of `head` for a record that the cached one does not contain as a whole. -/
  | reloadHead (c : RingBufferConsumer) (data : Bytes) (packetLen : UInt32)
  /-- `k` bytes of the payload are copied; after the last one `tail` is published. -/
  | copy (c : RingBufferConsumer) (data : Bytes) (packetLen : UInt32) (k : Nat)
  /-- `NewRingBufferConsumer` before its load of `tail`. -/
  | newTail
  /-- `NewRingBufferConsumer` before its load of `head`. -/
  | newHead (tail : UInt64)

/-- The result of a call. -/
inductive RingOutput where
  /-- `WritePacket` returns `ok`. -/
  | wrote (data : Bytes) (ok : Bool)
  /-- `ReadPacket` returns `ok`, sets the length to `dataLen` and the buffer to `data`. -/
  | read (ok : Bool) (dataLen : UInt32) (data : Bytes)

/-- The end of the checks of `WritePacket` that need no access to the ring. -/
def checkSpace (rb : RingBuffer) (p : RingBufferProducer) (data : Bytes) : ProducerState :=
  let usedSpace := p.head - p.cachedTail
  let totalSize := ringBufferRecordSize (UInt32.ofNat data.length)
  if rb.size - usedSpace < totalSize then .loadTail p data else .storeLen p data

/-- `WritePacket` up to its first access to the ring. -/
def writePacket (rb : RingBuffer) (p : Option RingBufferProducer) (data : Bytes) :
    ProducerState × List RingOutput :=
  match p with
  | none => (.idle p, [.wrote data false])
  | some ctx =>
    if data.length = 0 ∨ data.length > maxPacketSize then (.idle p, [.wrote data false])
    else if (UInt32.ofNat data.length).toUInt64 > rb.size / 2 then (.idle p, [.wrote data false])
    else if ctx.head - ctx.cachedTail > rb.size then (.reloadTail ctx data, [])
    else (checkSpace rb ctx data, [])

/-- The next access of the producer to the ring, and the code up to the one after it. -/
def producerStep (rb : RingBuffer) :
    ProducerState → Option (RingBuffer × ProducerState × List RingOutput)
  | .idle p => some (rb, .idle p, [])
  | .reloadTail p data =>
    let p := { p with cachedTail := rb.tail }
    if p.head - p.cachedTail > rb.size then some (rb, .idle (some p), [.wrote data false])
    else some (rb, checkSpace rb p data, [])
  | .loadTail p data =>
    let p := { p with cachedTail := rb.tail }
    let usedSpace := p.head - p.cachedTail
    if usedSpace > rb.size ∨
        rb.size - usedSpace < ringBufferRecordSize (UInt32.ofNat data.length) then
      some (rb, .idle (some p), [.wrote data false])
    else some (rb, .storeLen p data, [])
  | .storeLen p data => do
    let rb ← rb.storeLen (p.head &&& rb.mask).toNat (UInt32.ofNat data.length)
    return (rb, .copy p data 0, [])
  | .copy p data k =>
    match data[k]? with
    | some b => do
      let buffer ← storeAt rb.buffer (rb.dataOffset p.head (UInt32.ofNat data.length) k) b
      return ({ rb with buffer }, .copy p data (k + 1), [])
    | none =>
      let nextHead := p.head + ringBufferRecordSize (UInt32.ofNat data.length)
      some ({ rb with head := nextHead }, .idle (some { p with head := nextHead }),
        [.wrote data true])
  | .newTail => some (rb, .newHead rb.tail, [])
  | .newHead tail =>
    if rb.head - tail > rb.size then some (rb, .idle none, [])
    else some (rb, .idle (some ⟨rb.head, tail⟩), [])

/-- Whether a used space can have no record in it: `usedSpace > size || usedSpace < header size`. -/
def noRecord (rb : RingBuffer) (usedSpace : UInt64) : Bool :=
  decide (usedSpace > rb.size) || decide (usedSpace < recordHeaderSize)

/-- `ReadPacket` up to its first access to the ring; `hasLen` is that `dataLen` is not `nil`. -/
def readPacket (rb : RingBuffer) (c : Option RingBufferConsumer) (data : Bytes) (hasLen : Bool) :
    ConsumerState × List RingOutput :=
  if hasLen then
    match c with
    | none => (.idle c, [.read false 0 data])
    | some ctx =>
      if noRecord rb (ctx.cachedHead - ctx.tail) then (.loadHead ctx data, [])
      else (.loadLen ctx data, [])
  else (.idle c, [.read false 0 data])

/-- The check of `ReadPacket` that the caller's buffer is large enough. -/
def checkLength (c : RingBufferConsumer) (data : Bytes) (packetLen : UInt32) :
    ConsumerState × List RingOutput :=
  if data.length < packetLen.toNat then (.idle (some c), [.read false packetLen data])
  else (.copy c data packetLen 0, [])

/-- The next access of the consumer to the ring, and the code up to the one after it. -/
def consumerStep (rb : RingBuffer) :
    ConsumerState → Option (RingBuffer × ConsumerState × List RingOutput)
  | .idle c => some (rb, .idle c, [])
  | .loadHead c data =>
    let c := { c with cachedHead := rb.head }
    if noRecord rb (c.cachedHead - c.tail) then some (rb, .idle (some c), [.read false 0 data])
    else some (rb, .loadLen c data, [])
  | .loadLen c data => do
    let packetLen ← rb.loadLen (c.tail &&& rb.mask).toNat
    if packetLen = 0 ∨ packetLen.toUInt64 > rb.size / 2 then
      return (rb, .idle (some c), [.read false 0 data])
    else if c.cachedHead - c.tail < ringBufferRecordSize packetLen then
      return (rb, .reloadHead c data packetLen, [])
    else return (rb, checkLength c data packetLen)
  | .reloadHead c data packetLen =>
    let c := { c with cachedHead := rb.head }
    let usedSpace := c.cachedHead - c.tail
    if usedSpace > rb.size ∨ usedSpace < ringBufferRecordSize packetLen then
      some (rb, .idle (some c), [.read false 0 data])
    else some (rb, checkLength c data packetLen)
  | .copy c data packetLen k =>
    if k < packetLen.toNat then do
      let b ← rb.buffer (rb.dataOffset c.tail packetLen k)
      return (rb, .copy c (data.set k b) packetLen (k + 1), [])
    else
      let nextTail := c.tail + ringBufferRecordSize packetLen
      some ({ rb with tail := nextTail }, .idle (some { c with tail := nextTail }),
        [.read true packetLen data])
  | .newTail => some (rb, .newHead rb.tail, [])
  | .newHead tail =>
    if rb.head - tail > rb.size then some (rb, .idle none, [])
    else some (rb, .idle (some ⟨tail, rb.head⟩), [])

/-- The ring with its two sides. -/
structure RingState where
  ring : RingBuffer
  producer : ProducerState
  consumer : ConsumerState

/-- What happens next. A call is made only between two calls of the same side. -/
inductive RingEvent where
  /-- A call of `WritePacket`. -/
  | writePacket (data : Bytes)
  /-- A call of `NewRingBufferProducer`; `mapped` is the result of `ringBufferLocalData`. -/
  | newProducer (mapped : Bool)
  /-- The next step of the producer. -/
  | producer
  /-- A call of `ReadPacket` with a buffer, and with a pointer for the length or `nil`. -/
  | readPacket (data : Bytes) (hasLen : Bool)
  /-- A call of `NewRingBufferConsumer`. -/
  | newConsumer (mapped : Bool)
  /-- The next step of the consumer. -/
  | consumer

namespace RingState

/-- A ring without contexts. -/
def init (rb : RingBuffer) : RingState := ⟨rb, .idle none, .idle none⟩

/-- One step of the system. -/
def step (s : RingState) : RingEvent → Option (RingState × List RingOutput)
  | .writePacket data =>
    match s.producer with
    | .idle p =>
      let (producer, out) := writePacket s.ring p data
      some ({ s with producer }, out)
    | _ => some (s, [])
  | .newProducer mapped =>
    match s.producer with
    | .idle _ =>
      if s.ring.structureValid && mapped then some ({ s with producer := .newTail }, [])
      else some ({ s with producer := .idle none }, [])
    | _ => some (s, [])
  | .producer => do
    let (ring, producer, out) ← producerStep s.ring s.producer
    return ({ s with ring, producer }, out)
  | .readPacket data hasLen =>
    match s.consumer with
    | .idle c =>
      let (consumer, out) := readPacket s.ring c data hasLen
      some ({ s with consumer }, out)
    | _ => some (s, [])
  | .newConsumer mapped =>
    match s.consumer with
    | .idle _ =>
      if s.ring.structureValid && mapped then some ({ s with consumer := .newTail }, [])
      else some ({ s with consumer := .idle none }, [])
    | _ => some (s, [])
  | .consumer => do
    let (ring, consumer, out) ← consumerStep s.ring s.consumer
    return ({ s with ring, consumer }, out)

/-- The state after the events, and the results of the calls in their order. -/
def run (s : RingState) : List RingEvent → Option (RingState × List RingOutput)
  | [] => some (s, [])
  | e :: es => do
    let (s, out) ← s.step e
    let (s, outs) ← run s es
    return (s, out ++ outs)

end RingState

/-- The packets for which `WritePacket` returned `true`. -/
def accepted (outs : List RingOutput) : List Bytes :=
  outs.filterMap fun
    | .wrote data true => some data
    | _ => none

/-- The packets that `ReadPacket` returned. -/
def returned (outs : List RingOutput) : List Bytes :=
  outs.filterMap fun
    | .read true dataLen data => some (data.take dataLen.toNat)
    | _ => none

end Halo
