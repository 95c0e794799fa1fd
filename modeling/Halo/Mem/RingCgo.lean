import Halo.Mem.RingMapping

/-!
# The ring buffer in C (`cgo/ring_buffer.h`)

Both languages work on the same memory. The Go side is the model of `Halo.Mem.RingBuffer`, with the
steps of one call made one after the other; the C side is translated on its own. A pointer that is
`nil` has no cells behind it, and an access to a cell that does not exist has no result.

* `goWritePacket`, `goReadPacket`, `goMapping`: the calls of Go while nothing else happens.
* `Cgo.ringBufferProducerWritePacket`, `Cgo.ringBufferConsumerReadPacket`, `Cgo.ringBufferMapping`.
* `ring_buffers_agree`: they return the same and leave the same, for every context that has a data
  area if it has a ring.
* `nil_buffer_differs`: the check that only C makes.
-/

namespace Halo

open List

/-! ## Memory -/

section

variable {α : Type}

/-- The values of `n` cells from `q` on. -/
def loadFrom (m : Heap α) : Nat → Nat → Option (List α)
  | _, 0 => some []
  | q, n + 1 => do
    let x ← m q
    let xs ← loadFrom m (q + 1) n
    return x :: xs

/-- A buffer with the values `xs` from `k` on. -/
def setFrom (data : List α) : Nat → List α → List α
  | _, [] => data
  | k, x :: xs => setFrom (data.set k x) (k + 1) xs

/-- A store of one value after the other, of the number `k` to the cell `off k`. -/
def storeEach (off : Nat → Nat) (m : Heap α) : Nat → List α → Option (Heap α)
  | _, [] => some m
  | k, x :: xs => do
    let m ← storeAt m (off k) x
    storeEach off m (k + 1) xs

/-- A load of one value after the other, of the number `k` from the cell `off k`. -/
def loadEach (off : Nat → Nat) (m : Heap α) : Nat → Nat → Option (List α)
  | _, 0 => some []
  | k, n + 1 => do
    let x ← m (off k)
    let xs ← loadEach off m (k + 1) n
    return x :: xs

variable {off : Nat → Nat} {m : Heap α} {k q n : Nat} {xs ys data : List α}

theorem storeEach_eq_storeFrom (hoff : ∀ j < xs.length, off (k + j) = q + j) :
    storeEach off m k xs = storeFrom m q xs := by
  induction xs generalizing m k q with
  | nil => rfl
  | cons x xs ih =>
    have hfirst : off k = q := hoff 0 (Nat.zero_lt_succ _)
    have hrest : ∀ j < xs.length, off (k + 1 + j) = q + 1 + j := by
      intro j hj
      have hnext := hoff (j + 1) (Nat.succ_lt_succ hj)
      rw [Nat.add_assoc, Nat.add_comm 1 j, hnext]
      omega
    simp only [storeEach, storeFrom, hfirst]
    congr 1
    funext m'
    exact ih hrest

theorem storeEach_append :
    storeEach off m k (xs ++ ys) =
      (storeEach off m k xs).bind fun m' => storeEach off m' (k + xs.length) ys := by
  induction xs generalizing m k with
  | nil => rfl
  | cons x xs ih =>
    simp only [cons_append, storeEach, Option.bind_eq_bind, Option.bind_assoc, length_cons]
    congr 1
    funext m'
    rw [ih, Nat.add_assoc, Nat.add_comm 1]

theorem loadEach_eq_loadFrom (hoff : ∀ j < n, off (k + j) = q + j) :
    loadEach off m k n = loadFrom m q n := by
  induction n generalizing k q with
  | zero => rfl
  | succ n ih =>
    have hfirst : off k = q := hoff 0 (Nat.zero_lt_succ _)
    have hrest : ∀ j < n, off (k + 1 + j) = q + 1 + j := by
      intro j hj
      have hnext := hoff (j + 1) (Nat.succ_lt_succ hj)
      rw [Nat.add_assoc, Nat.add_comm 1 j, hnext]
      omega
    simp only [loadEach, loadFrom, hfirst, ih hrest]

theorem loadEach_add {n' : Nat} :
    loadEach off m k (n + n') = do
      let xs ← loadEach off m k n
      let ys ← loadEach off m (k + n) n'
      return xs ++ ys := by
  induction n generalizing k with
  | zero => simp [loadEach]
  | succ n ih =>
    rw [Nat.succ_add]
    simp only [loadEach, ih, Nat.add_assoc, Nat.add_comm 1]
    simp [Option.bind_assoc]

theorem length_loadFrom (h : loadFrom m q n = some xs) : xs.length = n := by
  induction n generalizing q xs with
  | zero =>
    cases h
    rfl
  | succ n ih =>
    simp only [loadFrom, Option.bind_eq_bind, Option.bind_eq_some_iff] at h
    obtain ⟨x, -, ys, hys, heq⟩ := h
    cases heq
    rw [length_cons, ih hys]

theorem setFrom_append : setFrom data k (xs ++ ys) = setFrom (setFrom data k xs)
    (k + xs.length) ys := by
  induction xs generalizing data k with
  | nil => rfl
  | cons x xs ih =>
    rw [cons_append, setFrom, ih, length_cons, setFrom, Nat.add_assoc, Nat.add_comm 1]

end

/-! ## The calls of Go -/

/-- The pointers of a call that are not `nil`: the context, and its `rb` and `buffer`. -/
structure Pointers where
  context : Bool
  rb : Bool
  buffer : Bool
  deriving DecidableEq

namespace Pointers

/-- The ring as a context reaches it. -/
def enter (q : Pointers) (rb : RingBuffer) : RingBuffer :=
  { rb with buffer := if q.buffer then rb.buffer else fun _ => none }

/-- The ring's memory after a call that found `rb` and left `rb'`. -/
def leave (q : Pointers) (rb rb' : RingBuffer) : RingBuffer :=
  { rb' with buffer := if q.buffer then rb'.buffer else rb.buffer }

/-- A context with a ring has a data area. -/
def Attached (q : Pointers) : Prop := q.context = true → q.rb = true → q.buffer = true

end Pointers

/-- Steps of the producer alone. -/
def producerRun : Nat → RingBuffer → ProducerState →
    Option (RingBuffer × ProducerState × List RingOutput)
  | 0, rb, st => some (rb, st, [])
  | n + 1, rb, st => do
    let (rb, st, out) ← producerStep rb st
    let (rb, st, outs) ← producerRun n rb st
    return (rb, st, out ++ outs)

/-- Steps of the consumer alone. -/
def consumerRun : Nat → RingBuffer → ConsumerState →
    Option (RingBuffer × ConsumerState × List RingOutput)
  | 0, rb, st => some (rb, st, [])
  | n + 1, rb, st => do
    let (rb, st, out) ← consumerStep rb st
    let (rb, st, outs) ← consumerRun n rb st
    return (rb, st, out ++ outs)

/-- A call of `WritePacket`, with all its accesses: at most two loads of `tail`, the length, the
bytes of the payload and the store of `head`. -/
def goWritePacket (q : Pointers) (rb : RingBuffer) (p : RingBufferProducer) (data : Bytes) :
    Option (RingBuffer × ProducerState × List RingOutput) :=
  if q.context && q.rb then do
    let (st, out) := writePacket (q.enter rb) (some p) data
    let (rb', st, outs) ← producerRun (data.length + 4) (q.enter rb) st
    return (q.leave rb rb', st, out ++ outs)
  else some (rb, .idle (some p), [.wrote data false])

/-- A call of `ReadPacket`, with all its accesses: at most two loads of `head`, the length, the
bytes of the payload and the store of `tail`. -/
def goReadPacket (q : Pointers) (rb : RingBuffer) (c : RingBufferConsumer) (data : Bytes)
    (hasLen : Bool) : Option (RingBuffer × ConsumerState × List RingOutput) :=
  if q.context && q.rb then do
    let (st, out) := readPacket (q.enter rb) (some c) data hasLen
    let (rb', st, outs) ← consumerRun (data.length + 4) (q.enter rb) st
    return (q.leave rb rb', st, out ++ outs)
  else some (rb, .idle (some c), [.read false 0 data])

/-- A call of `RingBufferMapping`: its checks and its two loads. -/
def goMapping (h : RingHeader) (rb : RingBuffer) (hasOffset : Bool) : MappingState :=
  mappingStep h rb (mappingStep h rb (mappingStep h rb (.start hasOffset)))

/-! ## The calls of C -/

namespace Cgo

/-- `RING_BUFFER_LAYOUT_VERSION`. -/
def layoutVersion : UInt8 := 1

/-- `RING_BUFFER_RECORD_HEADER_SIZE`: `sizeof(uint32_t)`. -/
def recordHeaderSize : UInt64 := 4

/-- `RING_BUFFER_RECORD_ALIGN`. -/
def recordAlign : UInt64 := 4

/-- `RING_BUFFER_MIN_DATA_SIZE`. -/
def minDataSize : UInt64 := recordHeaderSize + recordAlign

/-- `RING_BUFFER_MAX_DATA_SIZE`. -/
def maxDataSize : UInt64 := (1 : UInt64) <<< 62

/-- `sizeof(ring_buffer_t)`. -/
def sizeofRingBuffer : UInt64 := 128

/-- `INT64_MAX`. -/
def int64Max : UInt64 := 0x7fffffffffffffff

/-- `ring_buffer_record_size`. -/
def ringBufferRecordSize (len : UInt32) : UInt64 :=
  let totalSize := recordHeaderSize + len.toUInt64
  (totalSize + recordAlign - 1) &&& ~~~(recordAlign - 1)

/-- `ring_buffer_structure_valid`, for a ring that is not `NULL`; `buffer` is the pointer in it. -/
def ringBufferStructureValid (buffer : UInt64) (rb : RingBuffer) : Bool :=
  if buffer = 0 then false
  else if rb.size < minDataSize ∨ rb.size > maxDataSize ∨ rb.size &&& (rb.size - 1) ≠ 0 ∨
      rb.mask ≠ rb.size - 1 then false
  else true

/-- `ring_buffer_mapping`: the offset that it sets, if it returns the ring. -/
def ringBufferMapping (h : RingHeader) (rb : RingBuffer) (hasOffset : Bool) : Option Int64 := do
  if h.memory = 0 ∨ ¬ hasOffset then none
  if h.padding 8 ≠ layoutVersion then none
  if (List.range' 9 55).any (fun i => h.padding i != 0xAA) then none
  if (List.range' 96 32).any (fun i => h.padding i != 0xFF) then none
  if ¬ ringBufferStructureValid h.buffer rb then none
  let tail := rb.tail
  let head := rb.head
  if head - tail > rb.size then none
  let localAddress := h.memory + sizeofRingBuffer
  let storedAddress := h.buffer
  if localAddress ≥ storedAddress then
    let delta := localAddress - storedAddress
    if delta > int64Max then none else return delta.toInt64
  else
    let delta := storedAddress - localAddress
    if delta > int64Max then none else return (- delta.toInt64)

/-- The end of `ring_buffer_producer_write_packet`: the record, and the new `head`. -/
def writeRecord (rb : RingBuffer) (producer : RingBufferProducer) (data : Bytes) (len : UInt32) :
    Option (Bool × RingBuffer × RingBufferProducer) := do
  let head := producer.head
  let totalSize := ringBufferRecordSize len
  let pos := head &&& rb.mask
  let rb ← rb.storeLen pos.toNat len
  let dataPos := (pos + recordHeaderSize) &&& rb.mask
  let spaceAfter := rb.size - dataPos
  let mut buffer := rb.buffer
  if spaceAfter ≥ len.toUInt64 then
    buffer ← storeFrom buffer dataPos.toNat (data.take len.toNat)
  else
    buffer ← storeFrom buffer dataPos.toNat (data.take spaceAfter.toNat)
    buffer ← storeFrom buffer 0
      ((data.drop spaceAfter.toNat).take (len.toUInt64 - spaceAfter).toNat)
  let nextHead := head + totalSize
  return (true, { rb with head := nextHead, buffer }, { producer with head := nextHead })

/-- `ring_buffer_producer_write_packet`: its result, the ring and the context. The packet is a
pointer, `NULL` is `none`, and a length. -/
def ringBufferProducerWritePacket (q : Pointers) (rb : RingBuffer) (producer : RingBufferProducer)
    (data : Option Bytes) (len : UInt32) : Option (Bool × RingBuffer × RingBufferProducer) := do
  let some data := data | return (false, rb, producer)
  if !q.context || !q.rb || !q.buffer || len == 0 || len.toUInt64 > rb.size / 2 then
    return (false, rb, producer)
  let head := producer.head
  let mut producer := producer
  let mut usedSpace := head - producer.cachedTail
  if usedSpace > rb.size then
    producer := { producer with cachedTail := rb.tail }
    usedSpace := head - producer.cachedTail
    if usedSpace > rb.size then
      return (false, rb, producer)
  let totalSize := ringBufferRecordSize len
  let freeSpace := rb.size - usedSpace
  if freeSpace < totalSize then
    producer := { producer with cachedTail := rb.tail }
    usedSpace := head - producer.cachedTail
    if usedSpace > rb.size || rb.size - usedSpace < totalSize then
      return (false, rb, producer)
  writeRecord rb producer data len

/-- The end of `ring_buffer_consumer_read_packet`: the payload, and the new `tail`. -/
def readRecord (rb : RingBuffer) (consumer : RingBufferConsumer) (data : Bytes)
    (packetLen : UInt32) :
    Option (Bool × UInt32 × Bytes × RingBuffer × RingBufferConsumer) := do
  let tail := consumer.tail
  let totalSize := ringBufferRecordSize packetLen
  let pos := tail &&& rb.mask
  let dataPos := (pos + recordHeaderSize) &&& rb.mask
  let spaceAfter := rb.size - dataPos
  let mut data := data
  if spaceAfter ≥ packetLen.toUInt64 then
    let payload ← loadFrom rb.buffer dataPos.toNat packetLen.toNat
    data := setFrom data 0 payload
  else
    let first ← loadFrom rb.buffer dataPos.toNat spaceAfter.toNat
    data := setFrom data 0 first
    let second ← loadFrom rb.buffer 0 (packetLen.toUInt64 - spaceAfter).toNat
    data := setFrom data spaceAfter.toNat second
  let nextTail := tail + totalSize
  return (true, packetLen, data, { rb with tail := nextTail }, { consumer with tail := nextTail })

/-- `ring_buffer_consumer_read_packet`: its result, the length that it reports, the buffer, the ring
and the context. The buffer is a pointer, `NULL` is `none`, and a capacity; `hasLen` is that `len`
is not `NULL`. -/
def ringBufferConsumerReadPacket (q : Pointers) (rb : RingBuffer) (consumer : RingBufferConsumer)
    (data : Option Bytes) (capacity : UInt32) (hasLen : Bool) :
    Option (Bool × UInt32 × Bytes × RingBuffer × RingBufferConsumer) := do
  let unchanged := data.getD []
  if !hasLen then
    return (false, 0, unchanged, rb, consumer)
  if !q.context || !q.rb || !q.buffer then
    return (false, 0, unchanged, rb, consumer)
  let tail := consumer.tail
  let mut consumer := consumer
  let mut usedSpace := consumer.cachedHead - tail
  if usedSpace > rb.size || usedSpace < recordHeaderSize then
    consumer := { consumer with cachedHead := rb.head }
    usedSpace := consumer.cachedHead - tail
    if usedSpace > rb.size || usedSpace < recordHeaderSize then
      return (false, 0, unchanged, rb, consumer)
  let pos := tail &&& rb.mask
  let packetLen ← rb.loadLen pos.toNat
  if packetLen == 0 || packetLen.toUInt64 > rb.size / 2 then
    return (false, 0, unchanged, rb, consumer)
  let totalSize := ringBufferRecordSize packetLen
  if usedSpace < totalSize then
    consumer := { consumer with cachedHead := rb.head }
    usedSpace := consumer.cachedHead - tail
    if usedSpace > rb.size || usedSpace < totalSize then
      return (false, 0, unchanged, rb, consumer)
  let some data := data | return (false, packetLen, unchanged, rb, consumer)
  if capacity < packetLen then
    return (false, packetLen, unchanged, rb, consumer)
  readRecord rb consumer data packetLen

end Cgo

/-! ## Writing -/

section

variable {rb : RingBuffer} {p : RingBufferProducer} {c : RingBufferConsumer} {data : Bytes}

/-- A packet or a buffer as a slice, and as a pointer with a length. -/
structure Passes (data : Bytes) (ptr : Option Bytes) (len : UInt32) : Prop where
  len_eq : len.toNat = data.length
  ptr_eq : ptr = some data ∨ ptr = none ∧ data = []

/-- What a call of C leaves, as the state of a producer. -/
def wroteAs (data : Bytes) (r : Bool × RingBuffer × RingBufferProducer) :
    RingBuffer × ProducerState × List RingOutput :=
  (r.2.1, .idle (some r.2.2), [.wrote data r.1])

@[simp] theorem producerRun_idle (n : Nat) (p : Option RingBufferProducer) :
    producerRun n rb (.idle p) = some (rb, .idle p, []) := by
  induction n with
  | zero => rfl
  | succ n ih => simp [producerRun, producerStep, ih]

/-- The copy of the bytes from the number `k` on, and the store of `head`. -/
theorem producerRun_copy {xs : Bytes} {k : Nat} (n : Nat) (hk : data.drop k = xs) :
    producerRun (xs.length + 1 + n) rb (.copy p data k) =
      (storeEach (rb.dataOffset p.head (UInt32.ofNat data.length)) rb.buffer k xs).map fun buffer =>
        let nextHead := p.head + ringBufferRecordSize (UInt32.ofNat data.length)
        ({ rb with buffer, head := nextHead }, .idle (some { p with head := nextHead }),
          [.wrote data true]) := by
  induction xs generalizing rb k with
  | nil =>
    have hend : data[k]? = none := by
      rw [getElem?_eq_none_iff]
      exact drop_eq_nil_iff.mp hk
    rw [Nat.add_right_comm]
    simp [producerRun, producerStep, hend, storeEach]
  | cons x xs ih =>
    have hx : data[k]? = some x := by
      rw [← Nat.add_zero k, ← getElem?_drop, hk]
      rfl
    have hdrop : data.drop (k + 1) = xs := by
      rw [← drop_drop, hk]
      rfl
    have hfuel : (x :: xs).length + 1 + n = xs.length + 1 + n + 1 := by
      rw [length_cons]
      omega
    rw [hfuel, producerRun]
    simp only [producerStep, hx, storeEach]
    cases hstore : storeAt rb.buffer (rb.dataOffset p.head (UInt32.ofNat data.length) k) x with
    | none => rfl
    | some buffer =>
      simp only [Option.bind_eq_bind, Option.bind_some, Option.pure_def]
      rw [ih hdrop]
      simp only [Option.map_eq_bind, Option.bind_assoc]
      rfl

variable {len : UInt32} {q : Pointers}

/-- The copy of a payload in one piece or in two. -/
theorem storeEach_dataOffset {m : Heap UInt8} {cursor : UInt64} (hlen : len.toNat = data.length) :
    storeEach (rb.dataOffset cursor len) m 0 data =
      let dataPos := ((cursor &&& rb.mask) + recordHeaderSize) &&& rb.mask
      let spaceAfter := rb.size - dataPos
      if spaceAfter ≥ len.toUInt64 then storeFrom m dataPos.toNat data
      else (storeFrom m dataPos.toNat (data.take spaceAfter.toNat)).bind fun m =>
        storeFrom m 0 (data.drop spaceAfter.toNat) := by
  unfold RingBuffer.dataOffset
  dsimp only
  generalize ((cursor &&& rb.mask) + recordHeaderSize) &&& rb.mask = dataPos
  generalize rb.size - dataPos = spaceAfter
  by_cases hspace : spaceAfter ≥ len.toUInt64
  · simp only [if_pos hspace]
    exact storeEach_eq_storeFrom fun j _ => by rw [Nat.zero_add]
  · simp only [if_neg hspace]
    have hlt : spaceAfter.toNat < data.length := by
      rw [ge_iff_le, UInt64.not_le, UInt64.lt_iff_toNat_lt, UInt32.toNat_toUInt64, hlen] at hspace
      exact hspace
    have htake : (data.take spaceAfter.toNat).length = spaceAfter.toNat :=
      length_take_of_le (Nat.le_of_lt hlt)
    conv_lhs => rw [← take_append_drop spaceAfter.toNat data]
    rw [storeEach_append, htake]
    congr 1
    · refine storeEach_eq_storeFrom fun j hj => ?_
      rw [htake] at hj
      rw [Nat.zero_add, if_pos hj]
    · funext m'
      refine storeEach_eq_storeFrom fun j _ => ?_
      rw [if_neg (by omega)]
      omega

/-- The store of the length, the copy and the store of `head`. -/
theorem producerRun_storeLen (n : Nat) (hlen : len.toNat = data.length) :
    producerRun (data.length + 2 + n) rb (.storeLen p data) =
      (Cgo.writeRecord rb p data len).map (wroteAs data) := by
  obtain rfl : UInt32.ofNat data.length = len := by rw [← hlen, UInt32.ofNat_toNat]
  have hfuel : data.length + 2 + n = (data.length + 1 + n) + 1 := by omega
  have hsum : Cgo.ringBufferRecordSize (UInt32.ofNat data.length) =
      ringBufferRecordSize (UInt32.ofNat data.length) := rfl
  rw [hfuel, producerRun]
  simp only [producerStep, Cgo.writeRecord]
  cases hstore : rb.storeLen (p.head &&& rb.mask).toNat (UInt32.ofNat data.length) with
  | none => rfl
  | some rb' =>
    simp only [Option.bind_eq_bind, Option.bind_some, Option.pure_def]
    have hmask : rb'.mask = rb.mask := by
      simp only [RingBuffer.storeLen, Option.bind_eq_bind, Option.bind_eq_some_iff] at hstore
      obtain ⟨buffer, -, heq⟩ := hstore
      cases heq
      rfl
    rw [producerRun_copy n (drop_zero), storeEach_dataOffset hlen, ← hmask, hlen]
    have hheader : Cgo.recordHeaderSize = recordHeaderSize := rfl
    rw [hheader, take_length]
    dsimp only
    generalize ((p.head &&& rb'.mask) + recordHeaderSize) &&& rb'.mask = dataPos
    generalize rb'.size - dataPos = spaceAfter
    by_cases hspace : spaceAfter ≥ (UInt32.ofNat data.length).toUInt64
    · simp only [if_pos hspace, Option.map_eq_bind, Option.bind_assoc]
      rfl
    · have hle : spaceAfter ≤ (UInt32.ofNat data.length).toUInt64 :=
        UInt64.le_of_lt (UInt64.not_le.mp hspace)
      have hrest : (data.drop spaceAfter.toNat).take
          ((UInt32.ofNat data.length).toUInt64 - spaceAfter).toNat =
            data.drop spaceAfter.toNat := by
        rw [UInt64.toNat_sub_of_le _ _ hle, UInt32.toNat_toUInt64, hlen, ← length_drop,
          take_length]
      simp only [if_neg hspace, hrest, Option.map_eq_bind, Option.bind_assoc]
      rfl

theorem producerRun_step (n : Nat) {st : ProducerState} :
    producerRun (n + 1) rb st = (producerStep rb st).bind fun r =>
      (producerRun n r.1 r.2.1).map fun r' => (r'.1, r'.2.1, r.2.2 ++ r'.2.2) := by
  rw [producerRun]
  simp only [Option.map_eq_bind]
  rfl

/-- The steps of a call from the check of the space on. -/
theorem producerRun_checkSpace (n : Nat) (hlen : len.toNat = data.length) :
    producerRun (data.length + 3 + n) rb (checkSpace rb p data) =
      if rb.size - (p.head - p.cachedTail) < ringBufferRecordSize len then
        if p.head - rb.tail > rb.size ∨
            rb.size - (p.head - rb.tail) < ringBufferRecordSize len then
          some (wroteAs data (false, rb, { p with cachedTail := rb.tail }))
        else (Cgo.writeRecord rb { p with cachedTail := rb.tail } data len).map (wroteAs data)
      else (Cgo.writeRecord rb p data len).map (wroteAs data) := by
  have hlen' : UInt32.ofNat data.length = len := by rw [← hlen, UInt32.ofNat_toNat]
  unfold checkSpace
  rw [hlen']
  dsimp only
  split
  · rw [Nat.add_right_comm, producerRun_step]
    simp only [producerStep, hlen']
    split
    · simp [wroteAs]
    · have hfuel : data.length + n + 2 = data.length + 2 + n := by omega
      simp only [Option.bind_some, hfuel, producerRun_storeLen n hlen, nil_append,
        Option.map_id']
  · have hfuel : data.length + 3 + n = data.length + 2 + (n + 1) := by omega
    rw [hfuel, producerRun_storeLen _ hlen]

/-- The steps of a call whose cached tail cannot be right. -/
theorem producerRun_reloadTail :
    producerRun (data.length + 4) rb (.reloadTail p data) =
      if p.head - rb.tail > rb.size then
        some (wroteAs data (false, rb, { p with cachedTail := rb.tail }))
      else producerRun (data.length + 3 + 0) rb
        (checkSpace rb { p with cachedTail := rb.tail } data) := by
  rw [producerRun_step]
  simp only [producerStep]
  split
  · simp [wroteAs]
  · simp

/-- Without a ring both languages return. -/
theorem Pointers.guards_of_not_ring (q : Pointers) (hring : ¬ (q.context = true ∧ q.rb = true)) :
    (q.context && q.rb) = false ∧ (!q.context || !q.rb) = true := by
  have hguard : (q.context && q.rb) = false := by
    rw [← Bool.not_eq_true, Bool.and_eq_true]
    exact hring
  rw [← Bool.not_and, hguard]
  exact ⟨rfl, rfl⟩

theorem goWritePacket_eq {ptr : Option Bytes} (hq : q.Attached) (hpass : Passes data ptr len) :
    goWritePacket q rb p data =
      (Cgo.ringBufferProducerWritePacket q rb p ptr len).map (wroteAs data) := by
  obtain ⟨hlen, hptr⟩ := hpass
  have hlen' : UInt32.ofNat data.length = len := by rw [← hlen, UInt32.ofNat_toNat]
  have hmax : ¬ data.length > maxPacketSize := by
    have hlt := len.toNat_lt
    unfold maxPacketSize
    omega
  by_cases hring : q.context = true ∧ q.rb = true
  · obtain ⟨hcontext, hrb⟩ := hring
    have hbuffer := hq hcontext hrb
    have henter : q.enter rb = rb := by simp [Pointers.enter, hbuffer]
    have hleave : ∀ rb', q.leave rb rb' = rb' := by simp [Pointers.leave, hbuffer]
    simp only [goWritePacket, hcontext, hrb, henter, hleave, writePacket, Bool.and_self, if_true]
    obtain rfl | ⟨rfl, rfl⟩ := hptr
    · by_cases hzero : data.length = 0
      · have hlen0 : len = 0 := by rw [← hlen', hzero]; rfl
        simp [hzero, hlen0, Cgo.ringBufferProducerWritePacket, wroteAs]
      have hlen0 : len ≠ 0 := by
        rintro rfl
        exact hzero hlen.symm
      have hrecord : Cgo.ringBufferRecordSize len = ringBufferRecordSize len := rfl
      have hguard : (!true || !true || !true || len == 0 || decide (len.toUInt64 > rb.size / 2)) =
          decide (len.toUInt64 > rb.size / 2) := by simp [hlen0]
      simp only [hzero, hmax, or_self, if_false, hlen', Cgo.ringBufferProducerWritePacket, hcontext,
        hrb, hbuffer, hrecord, hguard, decide_eq_true_eq, Bool.or_eq_true]
      by_cases hhalf : len.toUInt64 > rb.size / 2
      · simp [hhalf, wroteAs]
      simp only [hhalf, if_false]
      by_cases hstale : p.head - p.cachedTail > rb.size
      · simp only [hstale, if_true, producerRun_reloadTail]
        by_cases hgt : p.head - rb.tail > rb.size
        · simp [hgt, wroteAs]
        · simp only [hgt, if_false, producerRun_checkSpace 0 hlen, false_or]
          simp [apply_ite (Option.map (wroteAs data))]
      · simp only [hstale, if_false]
        rw [producerRun_checkSpace 1 hlen]
        simp [apply_ite (Option.map (wroteAs data))]
    · simp [Cgo.ringBufferProducerWritePacket, wroteAs]
  · obtain ⟨hguard, hguard'⟩ := q.guards_of_not_ring hring
    simp only [goWritePacket, hguard, Cgo.ringBufferProducerWritePacket, hguard', Bool.true_or]
    cases ptr <;> rfl

/-! ## Reading -/

/-- What a call of C leaves, as the state of a consumer. -/
def readAs (r : Bool × UInt32 × Bytes × RingBuffer × RingBufferConsumer) :
    RingBuffer × ConsumerState × List RingOutput :=
  (r.2.2.2.1, .idle (some r.2.2.2.2), [.read r.1 r.2.1 r.2.2.1])

@[simp] theorem consumerRun_idle (n : Nat) (c : Option RingBufferConsumer) :
    consumerRun n rb (.idle c) = some (rb, .idle c, []) := by
  induction n with
  | zero => rfl
  | succ n ih => simp [consumerRun, consumerStep, ih]

theorem consumerRun_step (n : Nat) {st : ConsumerState} :
    consumerRun (n + 1) rb st = (consumerStep rb st).bind fun r =>
      (consumerRun n r.1 r.2.1).map fun r' => (r'.1, r'.2.1, r.2.2 ++ r'.2.2) := by
  rw [consumerRun]
  simp only [Option.map_eq_bind]
  rfl

/-- The copy of the bytes from the number `k` on, and the store of `tail`. -/
theorem consumerRun_copy {packetLen : UInt32} {j k : Nat} (n : Nat) (hk : k + j = packetLen.toNat) :
    consumerRun (j + 1 + n) rb (.copy c data packetLen k) =
      (loadEach (rb.dataOffset c.tail packetLen) rb.buffer k j).map fun xs =>
        let nextTail := c.tail + ringBufferRecordSize packetLen
        readAs (true, packetLen, setFrom data k xs, { rb with tail := nextTail },
          { c with tail := nextTail }) := by
  induction j generalizing data k with
  | zero =>
    rw [Nat.add_right_comm, consumerRun_step]
    have hend : ¬ k < packetLen.toNat := by omega
    simp [consumerStep, hend, loadEach, setFrom, readAs]
  | succ j ih =>
    have hlt : k < packetLen.toNat := by omega
    have hfuel : j + 1 + 1 + n = (j + 1 + n) + 1 := by omega
    rw [hfuel, consumerRun_step]
    simp only [consumerStep, hlt, if_true, loadEach]
    cases hload : rb.buffer (rb.dataOffset c.tail packetLen k) with
    | none => rfl
    | some b =>
      simp only [Option.bind_eq_bind, Option.bind_some, Option.pure_def]
      rw [ih (by omega)]
      simp only [Option.map_eq_bind, Option.bind_assoc]
      rfl

/-- The load of a payload in one piece or in two. -/
theorem loadEach_dataOffset {m : Heap UInt8} {cursor : UInt64} :
    loadEach (rb.dataOffset cursor len) m 0 len.toNat =
      let dataPos := ((cursor &&& rb.mask) + recordHeaderSize) &&& rb.mask
      let spaceAfter := rb.size - dataPos
      if spaceAfter ≥ len.toUInt64 then loadFrom m dataPos.toNat len.toNat
      else do
        let first ← loadFrom m dataPos.toNat spaceAfter.toNat
        let second ← loadFrom m 0 (len.toUInt64 - spaceAfter).toNat
        return first ++ second := by
  unfold RingBuffer.dataOffset
  dsimp only
  generalize ((cursor &&& rb.mask) + recordHeaderSize) &&& rb.mask = dataPos
  generalize rb.size - dataPos = spaceAfter
  by_cases hspace : spaceAfter ≥ len.toUInt64
  · simp only [if_pos hspace]
    exact loadEach_eq_loadFrom fun j _ => by rw [Nat.zero_add]
  · simp only [if_neg hspace]
    have hlt := UInt64.not_le.mp hspace
    have hsub : (len.toUInt64 - spaceAfter).toNat = len.toNat - spaceAfter.toNat := by
      rw [UInt64.toNat_sub_of_le _ _ (UInt64.le_of_lt hlt), UInt32.toNat_toUInt64]
    rw [UInt64.lt_iff_toNat_lt, UInt32.toNat_toUInt64] at hlt
    have hsplit : len.toNat = spaceAfter.toNat + (len.toNat - spaceAfter.toNat) := by omega
    have hfirst : loadEach (fun k => if k < spaceAfter.toNat then dataPos.toNat + k
        else k - spaceAfter.toNat) m 0 spaceAfter.toNat =
          loadFrom m dataPos.toNat spaceAfter.toNat :=
      loadEach_eq_loadFrom fun j hj => by rw [Nat.zero_add, if_pos hj]
    have hsecond : loadEach (fun k => if k < spaceAfter.toNat then dataPos.toNat + k
        else k - spaceAfter.toNat) m (0 + spaceAfter.toNat) (len.toNat - spaceAfter.toNat) =
          loadFrom m 0 (len.toNat - spaceAfter.toNat) :=
      loadEach_eq_loadFrom fun j _ => by
        rw [if_neg (by omega)]
        omega
    conv_lhs => rw [hsplit]
    rw [loadEach_add, hfirst, hsecond, hsub]

/-- The steps of a call from the check of the buffer's length on. -/
theorem consumerRun_checkLength {packetLen : UInt32} (n : Nat) :
    ((consumerRun (data.length + 1 + n) rb (checkLength c data packetLen).1).map fun r =>
        (r.1, r.2.1, (checkLength c data packetLen).2 ++ r.2.2)) =
      if data.length < packetLen.toNat then some (readAs (false, packetLen, data, rb, c))
      else (Cgo.readRecord rb c data packetLen).map readAs := by
  unfold checkLength
  split
  · simp [readAs]
  rename_i hge
  have hfuel : data.length + 1 + n = packetLen.toNat + 1 + (data.length - packetLen.toNat + n) := by
    omega
  rw [hfuel, consumerRun_copy _ (Nat.zero_add _), loadEach_dataOffset]
  simp only [Cgo.readRecord]
  have hheader : Cgo.recordHeaderSize = recordHeaderSize := rfl
  rw [hheader]
  generalize ((c.tail &&& rb.mask) + recordHeaderSize) &&& rb.mask = dataPos
  generalize rb.size - dataPos = spaceAfter
  by_cases hspace : spaceAfter ≥ packetLen.toUInt64
  · simp only [if_pos hspace, Option.map_eq_bind, Option.bind_eq_bind, Option.bind_assoc]
    rfl
  · simp only [if_neg hspace]
    cases hload : loadFrom rb.buffer dataPos.toNat spaceAfter.toNat with
    | none => rfl
    | some first =>
      simp only [Option.map_eq_bind, Option.bind_eq_bind, Option.bind_some, Option.bind_assoc]
      congr 1
      funext second
      -- the two pieces lie one behind the other
      have happend : setFrom data 0 (first ++ second) =
          setFrom (setFrom data 0 first) (0 + first.length) second := setFrom_append
      rw [length_loadFrom hload, Nat.zero_add] at happend
      simp only [Option.pure_def, Option.bind_some, Function.comp_apply, happend]
      rfl

/-- The steps of a call from the load of the length on. -/
theorem consumerRun_loadLen (n : Nat) :
    consumerRun (data.length + 3 + n) rb (.loadLen c data) =
      (rb.loadLen (c.tail &&& rb.mask).toNat).bind fun packetLen =>
        if packetLen = 0 ∨ packetLen.toUInt64 > rb.size / 2 then
          some (readAs (false, 0, data, rb, c))
        else if c.cachedHead - c.tail < ringBufferRecordSize packetLen then
          if rb.head - c.tail > rb.size ∨ rb.head - c.tail < ringBufferRecordSize packetLen then
            some (readAs (false, 0, data, rb, { c with cachedHead := rb.head }))
          else if data.length < packetLen.toNat then
            some (readAs (false, packetLen, data, rb, { c with cachedHead := rb.head }))
          else (Cgo.readRecord rb { c with cachedHead := rb.head } data packetLen).map readAs
        else if data.length < packetLen.toNat then some (readAs (false, packetLen, data, rb, c))
        else (Cgo.readRecord rb c data packetLen).map readAs := by
  have hfuel : data.length + 3 + n = (data.length + 2 + n) + 1 := by omega
  have hfuel' : data.length + 2 + n = (data.length + 1 + n) + 1 := by omega
  rw [hfuel, consumerRun_step]
  simp only [consumerStep, Option.bind_eq_bind, Option.bind_assoc]
  congr 1
  funext packetLen
  split
  · simp [readAs]
  split
  · rw [Option.pure_def, Option.bind_some, hfuel', consumerRun_step]
    simp only [consumerStep]
    split
    · simp [readAs]
    · simp only [Option.bind_some, nil_append, Option.map_id']
      exact consumerRun_checkLength n
  · have hfuel'' : data.length + 2 + n = data.length + 1 + (n + 1) := by omega
    rw [Option.pure_def, Option.bind_some, hfuel'']
    exact consumerRun_checkLength (n + 1)

/-- The steps of a call whose cached head shows no record. -/
theorem consumerRun_loadHead :
    consumerRun (data.length + 4) rb (.loadHead c data) =
      if rb.head - c.tail > rb.size ∨ rb.head - c.tail < recordHeaderSize then
        some (readAs (false, 0, data, rb, { c with cachedHead := rb.head }))
      else consumerRun (data.length + 3 + 0) rb
        (.loadLen { c with cachedHead := rb.head } data) := by
  rw [consumerRun_step]
  simp only [consumerStep, noRecord, Bool.or_eq_true, decide_eq_true_eq]
  split
  · simp [readAs]
  · simp

/-- `NULL` is as good as an empty buffer: a record has at least one byte. -/
theorem readPacket_null {hasLen : Bool} : Cgo.ringBufferConsumerReadPacket q rb c none 0 hasLen =
      Cgo.ringBufferConsumerReadPacket q rb c (some []) 0 hasLen := by
  have hpos : ∀ packetLen : UInt32,
    (packetLen == 0 || decide (packetLen.toUInt64 > rb.size / 2)) ≠ true →
      0 < packetLen := by
    intro packetLen hlen
    rw [ne_eq, Bool.or_eq_true, not_or, beq_iff_eq] at hlen
    exact UInt32.pos_iff_ne_zero.mpr hlen.1
  unfold Cgo.ringBufferConsumerReadPacket
  simp only [Option.getD_none, Option.getD_some]
  split
  · rfl
  split
  · rfl
  split
  · split
    · rfl
    · congr 1
      funext packetLen
      split
      · rfl
      · rename_i hlen
        simp [hpos packetLen hlen]
  · congr 1
    funext packetLen
    split
    · rfl
    · rename_i hlen
      simp [hpos packetLen hlen]

theorem goReadPacket_eq {ptr : Option Bytes} {capacity : UInt32} {hasLen : Bool}
    (hq : q.Attached) (hpass : Passes data ptr capacity) :
    goReadPacket q rb c data hasLen =
      (Cgo.ringBufferConsumerReadPacket q rb c ptr capacity hasLen).map readAs := by
  obtain ⟨hcapacity, hptr⟩ := hpass
  have hsome : Cgo.ringBufferConsumerReadPacket q rb c ptr capacity hasLen =
      Cgo.ringBufferConsumerReadPacket q rb c (some data) capacity hasLen := by
    obtain rfl | ⟨rfl, rfl⟩ := hptr
    · rfl
    · obtain rfl : capacity = 0 := UInt32.toNat_inj.mp hcapacity
      exact readPacket_null
  rw [hsome]
  by_cases hring : q.context = true ∧ q.rb = true
  · obtain ⟨hcontext, hrb⟩ := hring
    have hbuffer := hq hcontext hrb
    have henter : q.enter rb = rb := by simp [Pointers.enter, hbuffer]
    have hleave : ∀ rb', q.leave rb rb' = rb' := by simp [Pointers.leave, hbuffer]
    simp only [goReadPacket, hcontext, hrb, henter, hleave, readPacket, Bool.and_self, if_true]
    cases hasLen with
    | false => simp [Cgo.ringBufferConsumerReadPacket, readAs]
    | true =>
      have hrecord : ∀ n, Cgo.ringBufferRecordSize n = ringBufferRecordSize n := fun _ => rfl
      have hheader : Cgo.recordHeaderSize = recordHeaderSize := rfl
      simp only [if_true, Cgo.ringBufferConsumerReadPacket, hcontext, hrb, hbuffer, hrecord,
        hheader, Option.getD_some, noRecord, decide_eq_true_eq, Bool.or_eq_true]
      by_cases hstale : c.cachedHead - c.tail > rb.size ∨ c.cachedHead - c.tail < recordHeaderSize
      · simp only [hstale, if_true, consumerRun_loadHead]
        by_cases hgt : rb.head - c.tail > rb.size ∨ rb.head - c.tail < recordHeaderSize
        · simp [hgt, readAs]
        · simp only [hgt, if_false, consumerRun_loadLen 0]
          simp [apply_ite (Option.map readAs), UInt32.lt_iff_toNat_lt, hcapacity]
      · simp only [hstale, if_false]
        rw [consumerRun_loadLen 1]
        simp [apply_ite (Option.map readAs), UInt32.lt_iff_toNat_lt, hcapacity]
  · obtain ⟨hguard, hguard'⟩ := q.guards_of_not_ring hring
    simp only [goReadPacket, hguard, Cgo.ringBufferConsumerReadPacket, hguard', Bool.true_or]
    cases hasLen <;> rfl

end

/-! ## Mapping -/

theorem structureValid_eq (buffer : UInt64) (rb : RingBuffer) :
    Cgo.ringBufferStructureValid buffer rb = (!decide (buffer = 0) && rb.structureValid) := by
  unfold Cgo.ringBufferStructureValid RingBuffer.structureValid
  have hmin : Cgo.minDataSize = minDataSize := rfl
  have hmax : Cgo.maxDataSize = maxDataSize := rfl
  rw [hmin, hmax]
  by_cases hnil : buffer = 0
  · simp [hnil]
  · rw [if_neg hnil, Bool.eq_iff_iff]
    simp [hnil, and_assoc]

/-- The checks of a call of Go in their order. -/
theorem goMapping_def (h : RingHeader) (rb : RingBuffer) (hasOffset : Bool) :
    goMapping h rb hasOffset = .done
      (if h.memory = 0 ∨ ¬ hasOffset then none
      else if !h.layoutValid then none
      else if h.buffer = 0 ∨ !rb.structureValid then none
      else if rb.head - rb.tail > rb.size then none
      else h.offset) := by
  unfold goMapping
  rw [mappingStep]
  split
  · rfl
  split
  · rfl
  split
  · rfl
  simp only [mappingStep]
  split
  · rfl
  · rfl

/-- The checks of the padding in C. -/
theorem layoutValid_eq (h : RingHeader) :
    h.layoutValid = (!(h.padding 8 != Cgo.layoutVersion) &&
      !(List.range' 9 55).any (fun i => h.padding i != 0xAA) &&
      !(List.range' 96 32).any (fun i => h.padding i != 0xFF)) := by
  simp only [not_any_eq_all_not, bne, Bool.not_not]
  rfl

theorem goMapping_eq (h : RingHeader) (rb : RingBuffer) (hasOffset : Bool) :
    goMapping h rb hasOffset = .done (Cgo.ringBufferMapping h rb hasOffset) := by
  have hmax : Cgo.int64Max = (~~~ (0 : UInt64)) >>> 1 := rfl
  have hheader : Cgo.sizeofRingBuffer = ringHeaderSize := rfl
  rw [goMapping_def, layoutValid_eq]
  unfold Cgo.ringBufferMapping RingHeader.offset
  rw [structureValid_eq, hmax, hheader]
  generalize (List.range' 9 55).any (fun i => h.padding i != 0xAA) = first
  generalize (List.range' 96 32).any (fun i => h.padding i != 0xFF) = last
  congr 1
  by_cases hnil : h.memory = 0 ∨ ¬ hasOffset
  · rw [if_pos hnil, if_pos hnil]
    rfl
  rw [if_neg hnil, if_neg hnil]
  by_cases hversion : h.padding 8 = Cgo.layoutVersion
  · cases first
    · cases last
      · by_cases hbuffer : h.buffer = 0
        · simp [hversion, hbuffer]
        · cases hvalid : rb.structureValid
          · simp [hversion]
          · by_cases hcursors : rb.head - rb.tail > rb.size
            · simp [hversion, hcursors]
            · simp only [hversion, hcursors, hbuffer]
              simp
      · simp [hversion]
    · simp [hversion]
  · simp [hversion]

/-! ## Both languages -/

/-- The two languages agree on every ring: the writing of every packet and the reading into every
buffer that both can express, in every context that has a data area if it has a ring, and the
mapping of every memory. -/
theorem ring_buffers_agree (rb : RingBuffer) :
    (∀ (q : Pointers) (p : RingBufferProducer) (data : Bytes) (ptr : Option Bytes) (len : UInt32),
      q.Attached → Passes data ptr len →
        goWritePacket q rb p data =
          (Cgo.ringBufferProducerWritePacket q rb p ptr len).map (wroteAs data)) ∧
    (∀ (q : Pointers) (c : RingBufferConsumer) (data : Bytes) (ptr : Option Bytes)
        (capacity : UInt32) (hasLen : Bool), q.Attached → Passes data ptr capacity →
      goReadPacket q rb c data hasLen =
        (Cgo.ringBufferConsumerReadPacket q rb c ptr capacity hasLen).map readAs) ∧
    ∀ (h : RingHeader) (hasOffset : Bool),
      goMapping h rb hasOffset = .done (Cgo.ringBufferMapping h rb hasOffset) :=
  ⟨fun _ _ _ _ _ hq hpass => goWritePacket_eq hq hpass,
    fun _ _ _ _ _ _ hq hpass => goReadPacket_eq hq hpass, fun h => goMapping_eq h rb⟩

/-- A context with a ring and without a data area: `WritePacket` and `ReadPacket` access the memory
at `nil`, and the calls of C return `false`. -/
theorem nil_buffer_differs :
    (goWritePacket ⟨true, true, false⟩ smallRing ⟨0, 0⟩ [1]).isSome = false ∧
    (Cgo.ringBufferProducerWritePacket ⟨true, true, false⟩ smallRing ⟨0, 0⟩ (some [1]) 1).map
      (fun r => r.1) = some false ∧
    (goReadPacket ⟨true, true, false⟩ { smallRing with head := 8 } ⟨0, 0⟩ [0] true).isSome = false ∧
    (Cgo.ringBufferConsumerReadPacket ⟨true, true, false⟩ { smallRing with head := 8 } ⟨0, 0⟩
      (some [0]) 1 true).map (fun r => r.1) = some false := by
  decide +kernel

/-- A packet that goes around the end of the data area, written by C and read by Go. -/
theorem ring_buffers_agree_wrapped :
    Passes [1, 2, 3, 4, 5, 6] (some [1, 2, 3, 4, 5, 6]) 6 ∧
    ((Cgo.ringBufferProducerWritePacket ⟨true, true, true⟩ { smallRing with head := 8, tail := 8 }
      ⟨8, 8⟩ (some [1, 2, 3, 4, 5, 6]) 6).bind fun r =>
        (goReadPacket ⟨true, true, true⟩ r.2.1 ⟨8, 8⟩ [0, 0, 0, 0, 0, 0] true).map
          fun r => returned r.2.2) = some [[1, 2, 3, 4, 5, 6]] ∧
    goWritePacket ⟨true, true, true⟩ { smallRing with head := 8, tail := 8 } ⟨8, 8⟩
        [1, 2, 3, 4, 5, 6] =
      (Cgo.ringBufferProducerWritePacket ⟨true, true, true⟩ { smallRing with head := 8, tail := 8 }
        ⟨8, 8⟩ (some [1, 2, 3, 4, 5, 6]) 6).map (wroteAs [1, 2, 3, 4, 5, 6]) :=
  have hpass : Passes [1, 2, 3, 4, 5, 6] (some [1, 2, 3, 4, 5, 6]) 6 := ⟨rfl, .inl rfl⟩
  ⟨hpass, by decide +kernel,
    (ring_buffers_agree _).1 _ _ _ _ _ (fun _ _ => rfl) hpass⟩

end Halo
