import Halo.Mem.RingFifo

/-!
# Mapping a ring that is in use (`RingBufferMapping`)

A process that finds a ring in shared memory checks it before it uses it: the layout version, the
padding, the fixed fields, and the two cursors. The cursors are loaded one after the other, and the
two sides of the ring may go on in between.

* `RingHeader`: the parts of the ring's memory that no call of the two sides changes.
* `mappingStep`: `RingBufferMapping`, one load of a cursor in a step.
* `AttachState.step`: the call together with the producer and the consumer.
* `ringRun_sync`: in every run `head` moves by the records of the packets that are accepted.
* `mapping_accepts_iff`: a call accepts the ring if and only if what was in the ring at the load of
  `tail`, together with what was published up to the load of `head`, is not more than the ring's
  size.
-/

namespace Halo

/-! ## The call -/

/-- `ringBufferLayoutVersion`. -/
def ringLayoutVersion : UInt8 := 1

/-- The parts of the ring's memory beside the cursors, the size and the data area, and where the
memory is. -/
structure RingHeader where
  /-- The address of the memory in this process; `0` is `nil`. -/
  memory : UInt64
  /-- The bytes of the header by their offset. Only the padding is read: the offsets 8 to 63 and 96
  to 127. -/
  padding : Nat → UInt8
  /-- `rb.buffer`: the address of the data area in the process that created the ring. -/
  buffer : UInt64

namespace RingHeader

/-- The checks of the layout version and of the padding. -/
def layoutValid (h : RingHeader) : Bool :=
  h.padding 8 == ringLayoutVersion && (List.range' 9 55).all (fun i => h.padding i == 0xAA) &&
    (List.range' 96 32).all (fun i => h.padding i == 0xFF)

/-- The distance of the data area from where the creator has it, unless it does not fit into an
`int64`. -/
def offset (h : RingHeader) : Option Int64 :=
  let localAddress := h.memory + ringHeaderSize
  let storedAddress := h.buffer
  if localAddress ≥ storedAddress then
    let delta := localAddress - storedAddress
    if delta > (~~~ (0 : UInt64)) >>> 1 then none else some delta.toInt64
  else
    let delta := storedAddress - localAddress
    if delta > (~~~ (0 : UInt64)) >>> 1 then none else some (- delta.toInt64)

end RingHeader

/-- Where a call of `RingBufferMapping` is. -/
inductive MappingState where
  /-- Before the checks; `hasOffset` is that `offset` is not `nil`. -/
  | start (hasOffset : Bool)
  /-- Before the load of `tail`. -/
  | loadTail
  /-- Before the load of `head`. -/
  | loadHead (tail : UInt64)
  /-- The call returns the ring and sets the offset, or it returns `nil`. -/
  | done (offset : Option Int64)
  deriving DecidableEq

/-- The next step of a call. What is checked first does not change while a ring is in use. -/
def mappingStep (h : RingHeader) (rb : RingBuffer) : MappingState → MappingState
  | .start hasOffset =>
    if h.memory = 0 ∨ ¬ hasOffset then .done none
    else if !h.layoutValid then .done none
    else if h.buffer = 0 ∨ !rb.structureValid then .done none
    else .loadTail
  | .loadTail => .loadHead rb.tail
  | .loadHead tail => if rb.head - tail > rb.size then .done none else .done h.offset
  | .done offset => .done offset

/-- A call beside the two sides of the ring. -/
structure AttachState where
  header : RingHeader
  sides : RingState
  mapping : MappingState

/-- What happens next. -/
inductive AttachEvent where
  /-- An event of the two sides. -/
  | sides (e : RingEvent)
  /-- The next step of the call. -/
  | mapping

namespace AttachState

/-- A ring without contexts, and a call that has not begun. -/
def init (h : RingHeader) (rb : RingBuffer) (hasOffset : Bool) : AttachState :=
  ⟨h, RingState.init rb, .start hasOffset⟩

/-- One step of the system. -/
def step (s : AttachState) : AttachEvent → Option (AttachState × List RingOutput)
  | .sides e => do
    let (sides, out) ← s.sides.step e
    return ({ s with sides }, out)
  | .mapping => some ({ s with mapping := mappingStep s.header s.sides.ring s.mapping }, [])

/-- The state after the events, and the results of the calls of the two sides. -/
def run (s : AttachState) : List AttachEvent → Option (AttachState × List RingOutput)
  | [] => some (s, [])
  | e :: es => do
    let (s, out) ← s.step e
    let (s, outs) ← run s es
    return (s, out ++ outs)

end AttachState

/-! ## The position of the producer -/

section

variable {rb rb' : RingBuffer} {data : Bytes} {out : List RingOutput}

/-- The producer's own position is the ring's, and a packet on its way has a length of 32 bits. -/
def ProducerSync (rb : RingBuffer) : ProducerState → Prop
  | .idle none => True
  | .idle (some p) => p.head = rb.head
  | .reloadTail p data => p.head = rb.head ∧ data.length ≤ maxPacketSize
  | .loadTail p data => p.head = rb.head ∧ data.length ≤ maxPacketSize
  | .storeLen p data => p.head = rb.head ∧ data.length ≤ maxPacketSize
  | .copy p data _ => p.head = rb.head ∧ data.length ≤ maxPacketSize
  | .newTail => True
  | .newHead _ => True

theorem ProducerSync.congr {st : ProducerState} (hs : ProducerSync rb st)
    (hhead : rb'.head = rb.head) : ProducerSync rb' st := by
  unfold ProducerSync at hs ⊢
  split at hs <;> simp_all

theorem checkSpace_sync {p : RingBufferProducer} (hp : p.head = rb.head)
    (hlen : data.length ≤ maxPacketSize) : ProducerSync rb (checkSpace rb p data) := by
  unfold checkSpace
  dsimp only
  split
  · exact ⟨hp, hlen⟩
  · exact ⟨hp, hlen⟩

theorem writePacket_sync {p : Option RingBufferProducer} (hp : ProducerSync rb (.idle p))
    (data : Bytes) :
    ProducerSync rb (writePacket rb p data).1 ∧ accepted (writePacket rb p data).2 = [] := by
  unfold writePacket
  cases p with
  | none => exact ⟨trivial, rfl⟩
  | some p =>
    dsimp only
    split
    · exact ⟨hp, rfl⟩
    rename_i hlen
    have hlen : data.length ≤ maxPacketSize := Nat.le_of_not_gt (not_or.mp hlen).2
    split
    · exact ⟨hp, rfl⟩
    split
    · exact ⟨⟨hp, hlen⟩, rfl⟩
    · exact ⟨checkSpace_sync hp hlen, rfl⟩

/-- A step moves `head` by the records of what it accepts. -/
structure MovesHead (rb rb' : RingBuffer) (out : List RingOutput) : Prop where
  head_eq : rb'.head = rb.head + UInt64.ofNat (span (accepted out))
  size_eq : rb'.size = rb.size
  mask_eq : rb'.mask = rb.mask

theorem MovesHead.of_same (hhead : rb'.head = rb.head) (hsize : rb'.size = rb.size)
    (hmask : rb'.mask = rb.mask) (hacc : accepted out = []) : MovesHead rb rb' out := by
  refine ⟨?_, hsize, hmask⟩
  rw [hacc, hhead]
  exact (UInt64.add_zero _).symm

theorem MovesHead.trans {rb'' : RingBuffer} {outs : List RingOutput} (h : MovesHead rb rb' out)
    (h' : MovesHead rb' rb'' outs) : MovesHead rb rb'' (out ++ outs) := by
  refine ⟨?_, h'.size_eq.trans h.size_eq, h'.mask_eq.trans h.mask_eq⟩
  have happend : accepted (out ++ outs) = accepted out ++ accepted outs := List.filterMap_append
  rw [h'.head_eq, h.head_eq, happend, span_append, UInt64.ofNat_add, UInt64.add_assoc]

theorem MovesHead.structureValid (h : MovesHead rb rb' out) :
    rb'.structureValid = rb.structureValid := by
  unfold RingBuffer.structureValid
  rw [h.size_eq, h.mask_eq]

theorem producerStep_sync {st st' : ProducerState} (hs : ProducerSync rb st)
    (hstep : producerStep rb st = some (rb', st', out)) :
    ProducerSync rb' st' ∧ MovesHead rb rb' out := by
  cases st with
  | idle p =>
    cases hstep
    exact ⟨hs, .of_same rfl rfl rfl rfl⟩
  | reloadTail p data =>
    simp only [producerStep] at hstep
    split at hstep
    · cases hstep
      exact ⟨hs.1, .of_same rfl rfl rfl rfl⟩
    · cases hstep
      exact ⟨checkSpace_sync hs.1 hs.2, .of_same rfl rfl rfl rfl⟩
  | loadTail p data =>
    simp only [producerStep] at hstep
    split at hstep
    · cases hstep
      exact ⟨hs.1, .of_same rfl rfl rfl rfl⟩
    · cases hstep
      exact ⟨hs, .of_same rfl rfl rfl rfl⟩
  | storeLen p data =>
    simp only [producerStep, RingBuffer.storeLen, Option.bind_eq_bind, Option.bind_eq_some_iff,
      Option.pure_def, Option.some.injEq] at hstep
    obtain ⟨_, ⟨buffer, -, rfl⟩, heq⟩ := hstep
    cases heq
    exact ⟨hs, .of_same rfl rfl rfl rfl⟩
  | copy p data k =>
    simp only [producerStep] at hstep
    split at hstep
    · simp only [Option.bind_eq_bind, Option.bind_eq_some_iff, Option.pure_def,
        Option.some.injEq] at hstep
      obtain ⟨buffer, -, heq⟩ := hstep
      cases heq
      exact ⟨hs, .of_same rfl rfl rfl rfl⟩
    · cases hstep
      refine ⟨rfl, ?_, rfl, rfl⟩
      have hspan : span (accepted [RingOutput.wrote data true]) = recordBytes data.length := rfl
      rw [hspan, ← recordSize_eq hs.2, ← hs.1]
  | newTail =>
    cases hstep
    exact ⟨trivial, .of_same rfl rfl rfl rfl⟩
  | newHead tail =>
    simp only [producerStep] at hstep
    split at hstep
    · cases hstep
      exact ⟨trivial, .of_same rfl rfl rfl rfl⟩
    · cases hstep
      exact ⟨rfl, .of_same rfl rfl rfl rfl⟩

theorem accepted_checkLength {c : RingBufferConsumer} {packetLen : UInt32} :
    accepted (checkLength c data packetLen).2 = [] := by
  unfold checkLength
  split
  · rfl
  · rfl

theorem accepted_readPacket {c : Option RingBufferConsumer} {hasLen : Bool} :
    accepted (readPacket rb c data hasLen).2 = [] := by
  unfold readPacket
  split
  · split
    · rfl
    · split
      · rfl
      · rfl
  · rfl

/-- A step of the consumer moves `tail` only. -/
theorem consumerStep_frame {st st' : ConsumerState}
    (hstep : consumerStep rb st = some (rb', st', out)) :
    rb'.head = rb.head ∧ rb'.size = rb.size ∧ rb'.mask = rb.mask ∧ accepted out = [] := by
  cases st with
  | idle c =>
    cases hstep
    exact ⟨rfl, rfl, rfl, rfl⟩
  | loadLen c data =>
    simp only [consumerStep, Option.bind_eq_bind, Option.bind_eq_some_iff] at hstep
    obtain ⟨packetLen, -, hstep⟩ := hstep
    split at hstep
    · cases hstep
      exact ⟨rfl, rfl, rfl, rfl⟩
    · split at hstep
      · cases hstep
        exact ⟨rfl, rfl, rfl, rfl⟩
      · simp only [Option.pure_def, Option.some.injEq, Prod.ext_iff] at hstep
        obtain ⟨rfl, -, rfl⟩ := hstep
        exact ⟨rfl, rfl, rfl, accepted_checkLength⟩
  | reloadHead c data packetLen =>
    simp only [consumerStep] at hstep
    split at hstep
    · cases hstep
      exact ⟨rfl, rfl, rfl, rfl⟩
    · simp only [Option.some.injEq, Prod.ext_iff] at hstep
      obtain ⟨rfl, -, rfl⟩ := hstep
      exact ⟨rfl, rfl, rfl, accepted_checkLength⟩
  | copy c data packetLen k =>
    simp only [consumerStep] at hstep
    split at hstep
    · simp only [Option.bind_eq_bind, Option.bind_eq_some_iff] at hstep
      obtain ⟨b, -, hstep⟩ := hstep
      cases hstep
      exact ⟨rfl, rfl, rfl, rfl⟩
    · cases hstep
      exact ⟨rfl, rfl, rfl, rfl⟩
  | newTail =>
    cases hstep
    exact ⟨rfl, rfl, rfl, rfl⟩
  | _ =>
    simp only [consumerStep] at hstep
    split at hstep
    · cases hstep
      exact ⟨rfl, rfl, rfl, rfl⟩
    · cases hstep
      exact ⟨rfl, rfl, rfl, rfl⟩

end

/-! ## Runs -/

section

variable {s s' : RingState} {out outs : List RingOutput}

/-- A step of the two sides. -/
theorem ringStep_sync {e : RingEvent} (hs : ProducerSync s.ring s.producer)
    (hstep : s.step e = some (s', out)) :
    ProducerSync s'.ring s'.producer ∧ MovesHead s.ring s'.ring out := by
  obtain ⟨ring, producer, consumer⟩ := s
  cases e with
  | producer =>
    simp only [RingState.step, Option.bind_eq_bind, Option.bind_eq_some_iff] at hstep
    obtain ⟨⟨ring', producer', out'⟩, hproducer, heq⟩ := hstep
    cases heq
    exact producerStep_sync hs hproducer
  | consumer =>
    simp only [RingState.step, Option.bind_eq_bind, Option.bind_eq_some_iff] at hstep
    obtain ⟨⟨ring', consumer', out'⟩, hconsumer, heq⟩ := hstep
    cases heq
    obtain ⟨hhead, hsize, hmask, hacc⟩ := consumerStep_frame hconsumer
    exact ⟨hs.congr hhead, .of_same hhead hsize hmask hacc⟩
  | writePacket data =>
    cases producer with
    | idle p =>
      cases hstep
      obtain ⟨hsync, hacc⟩ := writePacket_sync hs data
      exact ⟨hsync, .of_same rfl rfl rfl hacc⟩
    | _ =>
      cases hstep
      exact ⟨hs, .of_same rfl rfl rfl rfl⟩
  | newProducer mapped =>
    cases producer with
    | idle p =>
      dsimp only [RingState.step] at hstep
      split at hstep
      · cases hstep
        exact ⟨trivial, .of_same rfl rfl rfl rfl⟩
      · cases hstep
        exact ⟨trivial, .of_same rfl rfl rfl rfl⟩
    | _ =>
      cases hstep
      exact ⟨hs, .of_same rfl rfl rfl rfl⟩
  | readPacket data hasLen =>
    cases consumer with
    | idle c =>
      cases hstep
      exact ⟨hs, .of_same rfl rfl rfl accepted_readPacket⟩
    | _ =>
      cases hstep
      exact ⟨hs, .of_same rfl rfl rfl rfl⟩
  | newConsumer mapped =>
    cases consumer with
    | idle c =>
      dsimp only [RingState.step] at hstep
      split at hstep
      · cases hstep
        exact ⟨hs, .of_same rfl rfl rfl rfl⟩
      · cases hstep
        exact ⟨hs, .of_same rfl rfl rfl rfl⟩
    | _ =>
      cases hstep
      exact ⟨hs, .of_same rfl rfl rfl rfl⟩

/-- A run of the two sides. -/
theorem ringRun_sync {es : List RingEvent} (hs : ProducerSync s.ring s.producer)
    (hrun : s.run es = some (s', outs)) :
    ProducerSync s'.ring s'.producer ∧ MovesHead s.ring s'.ring outs := by
  induction es generalizing s outs with
  | nil =>
    cases hrun
    exact ⟨hs, .of_same rfl rfl rfl rfl⟩
  | cons e es ih =>
    simp only [RingState.run, Option.bind_eq_bind, Option.bind_eq_some_iff] at hrun
    obtain ⟨⟨s₁, out⟩, hstep, ⟨s₂, outs₂⟩, hrest, heq⟩ := hrun
    cases heq
    obtain ⟨hs₁, hmoves⟩ := ringStep_sync hs hstep
    obtain ⟨hs₂, hmoves₂⟩ := ih hs₁ hrest
    exact ⟨hs₂, hmoves.trans hmoves₂⟩

end

namespace AttachState

/-- Between two steps of a call only the two sides change. -/
theorem run_append_sides (s : AttachState) (es : List RingEvent) (es' : List AttachEvent) :
    s.run (es.map .sides ++ es') = do
      let (sides, outs) ← s.sides.run es
      let (s', outs') ← { s with sides }.run es'
      return (s', outs ++ outs') := by
  induction es generalizing s with
  | nil => simp [RingState.run]
  | cons e es ih => simp [run, step, RingState.run, ih, List.append_assoc, Option.bind_assoc]

theorem run_sides (s : AttachState) (es : List RingEvent) :
    s.run (es.map .sides) = (s.sides.run es).map fun r => ({ s with sides := r.1 }, r.2) := by
  have happend := run_append_sides s es []
  simp only [List.append_nil, run, Option.bind_eq_bind, Option.bind_some] at happend
  rw [happend, Option.map_eq_bind]
  rfl

end AttachState

/-- What a process finds that maps a ring: the memory that `RingBufferCreate` has written, at
addresses of the lower half. -/
structure RingHeader.Valid (h : RingHeader) : Prop where
  layout : h.layoutValid = true
  created : h.buffer ≠ 0
  mapped : h.memory ≠ 0
  memory_lt : h.memory.toNat + 128 < 2 ^ 63
  buffer_lt : h.buffer.toNat < 2 ^ 63

theorem RingHeader.Valid.offset_isSome {h : RingHeader} (hh : h.Valid) : h.offset.isSome := by
  have hheader : ringHeaderSize.toNat = 128 := rfl
  have hmax : ((~~~ (0 : UInt64)) >>> 1).toNat = 2 ^ 63 - 1 := rfl
  have hmemory := hh.memory_lt
  have hbuffer := hh.buffer_lt
  have hlocal : (h.memory + ringHeaderSize).toNat = h.memory.toNat + 128 := by
    rw [UInt64.toNat_add, hheader]
    omega
  unfold RingHeader.offset
  dsimp only
  split
  · rename_i hge
    rw [if_neg]
    · rfl
    rw [gt_iff_lt, UInt64.lt_iff_toNat_lt, UInt64.toNat_sub_of_le _ _ hge, hmax, hlocal]
    omega
  · rename_i hlt
    have hle := UInt64.le_of_lt (UInt64.not_le.mp hlt)
    rw [if_neg]
    · rfl
    rw [gt_iff_lt, UInt64.lt_iff_toNat_lt, UInt64.toNat_sub_of_le _ _ hle, hmax, hlocal]
    omega

namespace AttachState

variable {h : RingHeader} {rb : RingBuffer} {s₁ s₂ : AttachState} {outs₁ outs₂ : List RingOutput}

/-- The space that a call computes, by what was in the ring and what was published. -/
theorem seen_le_size_iff {rb rb' : RingBuffer} {outs : List RingOutput}
    (hmoves : MovesHead rb rb' outs) :
    rb'.head - rb.tail ≤ rb'.size ↔
      ((rb.head - rb.tail).toNat + span (accepted outs)) % 2 ^ 64 ≤ rb.size.toNat := by
  have hseen : rb'.head - rb.tail = (rb.head - rb.tail) + UInt64.ofNat (span (accepted outs)) := by
    rw [hmoves.head_eq, UInt64.sub_eq_add_neg, UInt64.sub_eq_add_neg, UInt64.add_assoc,
      UInt64.add_comm (UInt64.ofNat _), ← UInt64.add_assoc]
  rw [hseen, hmoves.size_eq, UInt64.le_iff_toNat_le, UInt64.toNat_add, UInt64.toNat_ofNat',
    Nat.add_mod_mod]

/-- A call passes the checks that come before its loads. -/
theorem mappingStep_start (hh : h.Valid) (hrb : rb.structureValid = true) :
    mappingStep h rb (.start true) = .loadTail := by
  simp [mappingStep, hh.layout, hh.created, hh.mapped, hrb]

/-- The checks of a call, and what the two sides do before and after them. -/
def checks (es es' : List RingEvent) : List AttachEvent :=
  es.map .sides ++ .mapping :: es'.map .sides

/-- The two loads of a call, and what the two sides do in between. -/
def loads (es : List RingEvent) : List AttachEvent := .mapping :: (es.map .sides ++ [.mapping])

/-- The state in which `tail` is loaded. -/
theorem checks_spec {es es' : List RingEvent} (hh : h.Valid) (hrb : rb.structureValid = true)
    (hrun : (init h rb true).run (checks es es') = some (s₁, outs₁)) :
    s₁.mapping = .loadTail ∧ s₁.header = h ∧ ProducerSync s₁.sides.ring s₁.sides.producer := by
  simp only [checks, run_append_sides, run_sides, run, step, Option.bind_eq_bind, Option.bind_some,
    Option.bind_eq_some_iff, Option.map_eq_some_iff, Option.pure_def, Option.some.injEq] at hrun
  obtain ⟨⟨sides, outs⟩, hrun, _, ⟨_, ⟨⟨sides', outs'⟩, hrun', rfl⟩, rfl⟩, heq⟩ := hrun
  cases heq
  obtain ⟨hsync, hmoves⟩ := ringRun_sync (s := RingState.init rb) trivial hrun
  refine ⟨mappingStep_start hh ?_, rfl, (ringRun_sync hsync hrun').1⟩
  exact hmoves.structureValid.trans hrb

/-- A call of `RingBufferMapping` on a valid ring, beside a producer and a consumer in any run, with
`tail` loaded in the state `s₁`: it returns the ring if and only if what is in the ring at `s₁`,
together with what is published until the load of `head`, is not more than the ring's size. -/
theorem mapping_accepts_iff {es₀ es₁ es₂ : List RingEvent} (hh : h.Valid)
    (hrb : rb.structureValid = true)
    (hrun₁ : (init h rb true).run (checks es₀ es₁) = some (s₁, outs₁))
    (hrun₂ : s₁.run (loads es₂) = some (s₂, outs₂)) :
    (∃ offset, s₂.mapping = .done (some offset)) ↔
      ((s₁.sides.ring.head - s₁.sides.ring.tail).toNat + span (accepted outs₂)) % 2 ^ 64 ≤
        s₁.sides.ring.size.toNat := by
  obtain ⟨hload, hheader, hsync⟩ := checks_spec hh hrb hrun₁
  simp only [loads, run, step, hload, mappingStep, run_append_sides, Option.bind_eq_bind,
    Option.bind_some, Option.bind_eq_some_iff, List.nil_append, Option.pure_def, Option.some.injEq,
    List.append_nil, Prod.mk.injEq] at hrun₂
  obtain ⟨_, ⟨⟨sides, outs⟩, hrun, rfl⟩, rfl, rfl⟩ := hrun₂
  obtain ⟨-, hmoves⟩ := ringRun_sync hsync hrun
  rw [← seen_le_size_iff hmoves, ← UInt64.not_lt]
  -- the address is a user's, so only the check of the cursors decides
  obtain ⟨offset, hoffset⟩ := Option.isSome_iff_exists.mp hh.offset_isSome
  dsimp only
  rw [hheader, hoffset]
  by_cases hgt : sides.ring.head - s₁.sides.ring.tail > sides.ring.size
  · rw [if_pos hgt]
    simp [hgt]
  · rw [if_neg hgt]
    simp [hgt]

/-- A ring at the address `0x20000` of its creator, mapped at `0x10000`. -/
def liveHeader : RingHeader where
  memory := 0x10000
  padding i := if i = 8 then 1 else if i < 64 then 0xAA else 0xFF
  buffer := 0x20080

theorem liveHeader_valid : liveHeader.Valid where
  layout := by decide
  created := by decide
  mapped := by decide
  memory_lt := by decide
  buffer_lt := by decide

/-- Both sides attach to a ring of 16 bytes, and the producer fills it with two packets of 4
bytes. -/
def fillRing : List RingEvent :=
  [.newProducer true, .producer, .producer, .newConsumer true, .consumer, .consumer,
    .writePacket [1, 2, 3, 4], .producer, .producer, .producer, .producer, .producer, .producer,
    .writePacket [5, 6, 7, 8], .producer, .producer, .producer, .producer, .producer,
    .producer]

/-- The consumer takes a packet and the producer puts another one in its place. -/
def replacePacket : List RingEvent :=
  [.readPacket [0, 0, 0, 0] true, .consumer, .consumer, .consumer, .consumer, .consumer, .consumer,
    .consumer, .writePacket [9, 9, 9, 9], .producer, .producer, .producer, .producer, .producer,
    .producer, .producer]

/-- At every moment the ring has at most 16 bytes in it, and the call returns `nil`: it has the
`tail` from before the read and the `head` from after the write. -/
theorem mapping_rejects_ring_in_use :
    liveHeader.Valid ∧
    (∀ k ≤ 39, ((init liveHeader smallRing true).run
        ((checks fillRing [] ++ loads replacePacket).take k)).map
          (fun r => decide (r.1.sides.ring.head - r.1.sides.ring.tail ≤ smallRing.size)) =
        some true) ∧
    ((init liveHeader smallRing true).run
        (checks fillRing [] ++ loads replacePacket)).map
          (fun r => r.1.mapping) = some (.done none) :=
  ⟨liveHeader_valid, by decide +kernel, by decide +kernel⟩

/-- With the read alone the call returns the ring. -/
theorem mapping_accepts_iff_read :
    ∃ s₁ outs₁ s₂ outs₂, (init liveHeader smallRing true).run (checks fillRing []) =
      some (s₁, outs₁) ∧ s₁.run (loads (replacePacket.take 8)) = some (s₂, outs₂) ∧
      s₂.mapping = .done (some (-65536)) ∧
      ((∃ offset, s₂.mapping = .done (some offset)) ↔
        ((s₁.sides.ring.head - s₁.sides.ring.tail).toNat + span (accepted outs₂)) % 2 ^ 64 ≤
          s₁.sides.ring.size.toNat) := by
  obtain ⟨⟨s₁, outs₁⟩, hrun₁⟩ := Option.isSome_iff_exists.mp
    (show ((init liveHeader smallRing true).run (checks fillRing [])).isSome by decide +kernel)
  have hdone : ((init liveHeader smallRing true).run (checks fillRing [])).bind (fun r =>
      (r.1.run (loads (replacePacket.take 8))).map
        fun r => r.1.mapping) = some (.done (some (-65536))) := by decide +kernel
  rw [hrun₁, Option.bind_some, Option.map_eq_some_iff] at hdone
  obtain ⟨⟨s₂, outs₂⟩, hrun₂, hmapping⟩ := hdone
  exact ⟨s₁, outs₁, s₂, outs₂, hrun₁, hrun₂, hmapping,
    mapping_accepts_iff liveHeader_valid (by decide +kernel) hrun₁ hrun₂⟩

end AttachState

end Halo
