import Halo.Mem.RingFifo

/-!
# When the ring refuses a packet

`WritePacket` looks at a cached tail first and at the shared one only when the cached one shows too
little space.

* `refused_spec`: a packet of an admissible length is refused only after a load of the shared tail,
  and the free space that this tail gives is too small for the record.
* `Empty.run`: a call that starts when the ring is empty ends with `true`, whatever the consumer
  does meanwhile.
* `ring_space_law`: both, at every state that a run reaches.

A packet of more than `ringBufferMaxPacketSize` bytes is refused at once, also by a ring that has
the space for it (`huge_packet_refused`).
-/

namespace Halo

open List

/-- The free space of the ring, computed from the producer's head and the shared tail. -/
def RingBuffer.freeSpace (rb : RingBuffer) (p : RingBufferProducer) : UInt64 :=
  rb.size - (p.head - rb.tail)

/-- The results of the calls of `WritePacket`. -/
def written (outs : List RingOutput) : List (Bytes × Bool) :=
  outs.filterMap fun
    | .wrote data ok => some (data, ok)
    | .read _ _ _ => none

/-- The event is a step of the producer inside of a call. -/
def RingEvent.isProducer : RingEvent → Bool
  | .producer => true
  | _ => false

/-- The event is a call of the producer. -/
def RingEvent.CallsProducer : RingEvent → Prop
  | .writePacket _ | .newProducer _ => True
  | _ => False

section

variable {rb : RingBuffer} {T : Nat} {data : Bytes} {pkts : List Bytes} {s s' : RingState}

@[simp] theorem written_append (outs outs' : List RingOutput) :
    written (outs ++ outs') = written outs ++ written outs' :=
  filterMap_append

theorem mem_written {ok : Bool} {outs : List RingOutput} (h : .wrote data ok ∈ outs) :
    (data, ok) ∈ written outs :=
  mem_filterMap.mpr ⟨_, h, rfl⟩

/-! ## The consumer returns no result of `WritePacket` -/

theorem written_readPacket (c : Option RingBufferConsumer) (hasLen : Bool) :
    written (readPacket rb c data hasLen).2 = [] := by
  unfold readPacket
  cases hasLen with
  | false => rfl
  | true =>
    cases c with
    | none => rfl
    | some ctx =>
      dsimp only
      rw [if_pos rfl]
      split <;> rfl

theorem written_checkLength (c : RingBufferConsumer) (data : Bytes) (packetLen : UInt32) :
    written (checkLength c data packetLen).2 = [] := by
  unfold checkLength
  split <;> rfl

theorem written_consumerStep {st : ConsumerState} {r : RingBuffer × ConsumerState × List RingOutput}
    (h : consumerStep rb st = some r) : written r.2.2 = [] := by
  cases st with
  | idle c => cases h; rfl
  | newTail => cases h; rfl
  | loadLen c data =>
    simp only [consumerStep, Option.bind_eq_bind, Option.bind_eq_some_iff] at h
    obtain ⟨packetLen, -, h⟩ := h
    split at h
    · cases h; rfl
    split at h
    · cases h; rfl
    · cases h; exact written_checkLength c data packetLen
  | reloadHead c data packetLen =>
    simp only [consumerStep] at h
    split at h
    · cases h; rfl
    · cases h; exact written_checkLength _ data packetLen
  | copy c data packetLen k =>
    simp only [consumerStep, Option.bind_eq_bind] at h
    split at h
    · obtain ⟨b, -, h⟩ := Option.bind_eq_some_iff.mp h
      cases h; rfl
    · cases h; rfl
  | _ =>
    simp only [consumerStep] at h
    split at h <;> (cases h; rfl)

/-- An event of the consumer leaves the producer where it is. -/
theorem consumerEvent_spec {e : RingEvent} {out : List RingOutput} (he : ¬ e.CallsProducer)
    (hne : e.isProducer = false) (hstep : s.step e = some (s', out)) :
    s'.producer = s.producer ∧ written out = [] := by
  obtain ⟨ring, producer, consumer⟩ := s
  cases e with
  | producer => cases hne
  | consumer =>
    simp only [RingState.step, Option.bind_eq_bind] at hstep
    obtain ⟨⟨ring', consumer', out'⟩, heq, h⟩ := Option.bind_eq_some_iff.mp hstep
    cases h
    exact ⟨rfl, written_consumerStep heq⟩
  | readPacket data hasLen =>
    cases consumer with
    | idle c => cases hstep; exact ⟨rfl, written_readPacket c hasLen⟩
    | _ => cases hstep; exact ⟨rfl, rfl⟩
  | newConsumer mapped =>
    cases consumer with
    | idle c =>
      dsimp only [RingState.step] at hstep
      split at hstep <;> (cases hstep; exact ⟨rfl, rfl⟩)
    | _ => cases hstep; exact ⟨rfl, rfl⟩
  | _ => exact absurd trivial he

/-! ## Refused packets -/

theorem len_gt_half_iff (hle : data.length ≤ maxPacketSize) :
    (UInt32.ofNat data.length).toUInt64 > rb.size / 2 ↔ rb.size.toNat / 2 < data.length := by
  have htwo : (2 : UInt64).toNat = 2 := rfl
  rw [gt_iff_lt, UInt64.lt_iff_toNat_lt, UInt32.toNat_toUInt64, toNat_len hle,
    UInt64.toNat_div, htwo]

/-- A length that no ring of this size takes. -/
theorem writePacket_inadmissible (p : Option RingBufferProducer)
    (h : data.length = 0 ∨ rb.size.toNat / 2 < data.length ∨ maxPacketSize < data.length) :
    writePacket rb p data = (.idle p, [.wrote data false]) := by
  unfold writePacket
  cases p with
  | none => rfl
  | some ctx =>
    dsimp only
    split
    · rfl
    · rename_i hlen
      rw [not_or] at hlen
      have hhalf := (h.resolve_left hlen.1).resolve_right hlen.2
      rw [if_pos ((len_gt_half_iff (Nat.le_of_not_gt hlen.2)).mpr hhalf)]

/-- A packet that fits is not refused before an access to the ring. -/
theorem writePacket_admissible (ctx : RingBufferProducer) (hf : Fits rb data) :
    (writePacket rb (some ctx) data).2 = [] ∧
      ((writePacket rb (some ctx) data).1 = .reloadTail ctx data ∨
        (writePacket rb (some ctx) data).1 = checkSpace rb ctx data) := by
  unfold writePacket
  dsimp only
  rw [if_neg (not_or.mpr ⟨Nat.ne_of_gt hf.pos, Nat.not_lt.mpr hf.le_max⟩),
    if_neg (mt (len_gt_half_iff hf.le_max).mp (Nat.not_lt.mpr hf.le_half))]
  split
  · exact ⟨rfl, .inl rfl⟩
  · exact ⟨rfl, .inr rfl⟩

/-- The space that the shared tail leaves. -/
theorem used_le_size {p : RingBufferProducer} (hc : Contains rb T pkts)
    (hp : ProducerKnows rb T (T + span pkts) 0 p) : ¬ p.head - rb.tail > rb.size := by
  have hle := hc.span_le
  obtain ⟨-, hnot⟩ := toNat_usedSpace hc.toGeometry (Nat.le_add_right T _)
    (show T + span pkts ≤ T + rb.size.toNat by omega)
  rwa [← hp.head_eq, ← hc.tail_eq] at hnot

/-- The producer refuses a packet only at the load of the shared tail. -/
theorem producerStep_refused {st : ProducerState} {r : RingBuffer × ProducerState × List RingOutput}
    (hc : Contains rb T pkts) (hp : ProducerInv rb T (T + span pkts) st)
    (hstep : producerStep rb st = some r) (hout : (data, false) ∈ written r.2.2) :
    ∃ p, st = .loadTail p data ∧ p.head - rb.tail ≤ rb.size ∧
      rb.freeSpace p < ringBufferRecordSize (UInt32.ofNat data.length) := by
  cases st with
  | newHead tail =>
    simp only [producerStep] at hstep
    split at hstep <;> (cases hstep; cases hout)
  | reloadTail p data' =>
    -- the tail that is loaded is never out of range
    rw [producerStep, if_neg (used_le_size hc hp.1)] at hstep
    cases hstep
    cases hout
  | loadTail p data' =>
    have hused := used_le_size hc hp.1
    simp only [producerStep] at hstep
    split at hstep
    · rename_i hspace
      cases hstep
      obtain ⟨rfl, -⟩ := Prod.mk.inj (mem_singleton.mp hout)
      exact ⟨p, rfl, UInt64.not_lt.mp hused, hspace.resolve_left hused⟩
    · cases hstep
      cases hout
  | storeLen p data' =>
    simp only [producerStep, Option.bind_eq_bind] at hstep
    obtain ⟨rb', -, h⟩ := Option.bind_eq_some_iff.mp hstep
    cases h
    cases hout
  | copy p data' k =>
    simp only [producerStep, Option.bind_eq_bind] at hstep
    split at hstep
    · obtain ⟨m, -, h⟩ := Option.bind_eq_some_iff.mp hstep
      cases h
      cases hout
    · cases hstep
      cases (Prod.mk.inj (mem_singleton.mp hout)).2
  | _ => cases hstep; cases hout

/-- A call that fails for a packet which fits. -/
theorem refused_spec {e : RingEvent} {out : List RingOutput} (hs : RingInv s pkts)
    (hstep : s.step e = some (s', out)) (hout : .wrote data false ∈ out)
    (hctx : s.producer ≠ .idle none) (hf : Fits s.ring data) :
    e = .producer ∧ ∃ p, s.producer = .loadTail p data ∧ p.head - s.ring.tail ≤ s.ring.size ∧
      s.ring.freeSpace p < ringBufferRecordSize (UInt32.ofNat data.length) := by
  obtain ⟨T, hc, hp, -⟩ := hs
  by_cases hcall : e.CallsProducer
  · cases e with
    | writePacket data' =>
      obtain ⟨ring, producer, consumer⟩ := s
      cases producer with
      | idle p =>
        cases p with
        | none => exact absurd rfl hctx
        | some ctx =>
          have hout : .wrote data false ∈ (writePacket ring (some ctx) data').2 := by
            cases hstep
            exact hout
          have hsame : ∀ o ∈ (writePacket ring (some ctx) data').2, o = .wrote data' false := by
            unfold writePacket
            dsimp only
            split
            · simp
            split
            · simp
            split <;> simp
          cases hsame _ hout
          rw [(writePacket_admissible ctx hf).1] at hout
          cases hout
      | _ => cases hstep; cases hout
    | newProducer mapped =>
      obtain ⟨ring, producer, consumer⟩ := s
      cases producer with
      | idle p =>
        dsimp only [RingState.step] at hstep
        split at hstep <;> (cases hstep; cases hout)
      | _ => cases hstep; cases hout
    | _ => exact absurd hcall id
  · cases hproducer : e.isProducer with
    | false =>
      have hnone := mem_written hout
      rw [(consumerEvent_spec hcall hproducer hstep).2] at hnone
      cases hnone
    | true =>
      cases e with
      | producer =>
        simp only [RingState.step, Option.bind_eq_bind] at hstep
        obtain ⟨r, heq, h⟩ := Option.bind_eq_some_iff.mp hstep
        cases h
        exact ⟨rfl, producerStep_refused hc hp heq (mem_written hout)⟩
      | _ => cases hproducer

/-! ## An empty ring -/

/-- The producer is in a call for the packet. -/
def Writing (data : Bytes) : ProducerState → Prop
  | .reloadTail _ data' | .loadTail _ data' | .storeLen _ data' | .copy _ data' _ => data' = data
  | _ => False

/-- The accesses to the ring that a call still makes, at most. -/
def ProducerState.remaining : ProducerState → Nat
  | .reloadTail _ data => data.length + 4
  | .loadTail _ data => data.length + 3
  | .storeLen _ data => data.length + 2
  | .copy _ data k => data.length - k + 1
  | _ => 0

theorem checkSpace_writing (p : RingBufferProducer) :
    Writing data (checkSpace rb p data) ∧ (checkSpace rb p data).remaining < data.length + 4 := by
  unfold checkSpace
  dsimp only
  split
  · exact ⟨rfl, Nat.lt_succ_self _⟩
  · exact ⟨rfl, by simp only [ProducerState.remaining]; omega⟩

/-- A step of a call on an empty ring goes on, or ends the call with `true`. -/
theorem producerStep_empty {st : ProducerState} {r : RingBuffer × ProducerState × List RingOutput}
    (hc : Contains rb T []) (hp : ProducerInv rb T (T + span []) st) (hw : Writing data st)
    (hstep : producerStep rb st = some r) :
    (r.2.2 = [] ∧ Writing data r.2.1 ∧ r.2.1.remaining < st.remaining) ∨
      (r.2.2 = [.wrote data true] ∧ ∃ p, r.2.1 = .idle p) := by
  cases st with
  | reloadTail p data' =>
    cases hw
    rw [producerStep, if_neg (used_le_size hc hp.1)] at hstep
    cases hstep
    exact .inl ⟨rfl, checkSpace_writing _⟩
  | loadTail p data' =>
    cases hw
    obtain ⟨hpr, hf⟩ := hp
    have hbytes := hf.recordBytes_le hc.toGeometry
    have hle : T + span [] ≤ T + rb.size.toNat := by
      rw [span_nil]
      omega
    have hlt := freeSpace_lt_iff hc.toGeometry (Nat.le_add_right T _) hle hf
    rw [← hpr.head_eq, ← hc.tail_eq, span_nil] at hlt
    rw [producerStep, if_neg] at hstep
    · cases hstep
      exact .inl ⟨rfl, rfl, Nat.lt_succ_self _⟩
    · rintro (hused | hfree)
      · exact used_le_size hc hpr hused
      · have hshort := hlt.mp hfree
        omega
  | storeLen p data' =>
    cases hw
    simp only [producerStep, Option.bind_eq_bind] at hstep
    obtain ⟨rb', -, h⟩ := Option.bind_eq_some_iff.mp hstep
    cases h
    exact .inl ⟨rfl, rfl, by simp only [ProducerState.remaining]; omega⟩
  | copy p data' k =>
    cases hw
    simp only [producerStep, Option.bind_eq_bind] at hstep
    split at hstep
    · rename_i b hb
      obtain ⟨m, -, h⟩ := Option.bind_eq_some_iff.mp hstep
      cases h
      obtain ⟨hlt, -⟩ := List.getElem?_eq_some_iff.mp hb
      exact .inl ⟨rfl, rfl, by simp only [ProducerState.remaining]; omega⟩
    · cases hstep
      exact .inr ⟨rfl, _, rfl⟩
  | _ => cases hw

/-- The call is over. -/
theorem Idle.run {p : Option RingBufferProducer} {es : List RingEvent} (hs : RingInv s pkts)
    (hidle : s.producer = .idle p) (hes : ∀ e ∈ es, ¬ e.CallsProducer) :
    ∃ s' outs, s.run es = some (s', outs) ∧ written outs = [] := by
  induction es generalizing s pkts with
  | nil => exact ⟨s, [], rfl, rfl⟩
  | cons e es ih =>
    obtain ⟨⟨s₁, out⟩, hstep, ⟨rest, -, hs₁⟩, -⟩ := ringStep_does hs e
    have hone : s₁.producer = .idle p ∧ written out = [] := by
      cases hproducer : e.isProducer with
      | false =>
        obtain ⟨hsame, hout⟩ := consumerEvent_spec (hes e mem_cons_self) hproducer hstep
        exact ⟨hsame.trans hidle, hout⟩
      | true =>
        cases e with
        | producer =>
          simp only [RingState.step, hidle, producerStep] at hstep
          cases hstep
          exact ⟨rfl, rfl⟩
        | _ => cases hproducer
    obtain ⟨s', outs, hrun, hout⟩ := ih hs₁ hone.1 fun e he => hes e (mem_cons_of_mem _ he)
    exact ⟨s', out ++ outs, by simp [RingState.run, hstep, hrun],
      by rw [written_append, hone.2, hout]; rfl⟩

/-- A call on an empty ring, with events of the consumer in between. -/
theorem Empty.run {es : List RingEvent} (hs : RingInv s []) (hw : Writing data s.producer)
    (hes : ∀ e ∈ es, ¬ e.CallsProducer)
    (hcount : s.producer.remaining ≤ es.countP RingEvent.isProducer) :
    ∃ s' outs, s.run es = some (s', outs) ∧ written outs = [(data, true)] := by
  induction es generalizing s with
  | nil =>
    -- a call has at least one more access
    exfalso
    cases hst : s.producer <;> rw [hst] at hw hcount <;>
      first | exact hw | simp [ProducerState.remaining] at hcount
  | cons e es ih =>
    have hrest : ∀ e ∈ es, ¬ e.CallsProducer := fun e he => hes e (mem_cons_of_mem _ he)
    obtain ⟨⟨s₁, out⟩, hstep, ⟨rest, hpkts, hs₁⟩, -⟩ := ringStep_does hs e
    dsimp only at hpkts hs₁
    rw [countP_cons] at hcount
    cases hproducer : e.isProducer with
    | false =>
      obtain ⟨hsame, hout⟩ := consumerEvent_spec (hes e mem_cons_self) hproducer hstep
      have hacc : accepted out = [] := by
        apply filterMap_eq_nil_iff.mpr
        intro o ho
        have := filterMap_eq_nil_iff.mp hout o ho
        cases o with
        | wrote data ok => cases this
        | read ok dataLen data => rfl
      rw [hacc, append_nil] at hpkts
      obtain ⟨-, rfl⟩ := append_eq_nil_iff.mp hpkts.symm
      rw [hproducer] at hcount
      obtain ⟨s', outs, hrun, hwritten⟩ := ih hs₁ (hsame ▸ hw) hrest (hsame ▸ hcount)
      exact ⟨s', out ++ outs, by simp [RingState.run, hstep, hrun],
        by rw [written_append, hout, hwritten]; rfl⟩
    | true =>
      cases e with
      | producer =>
        obtain ⟨T, hc, hp, -⟩ := hs
        have hstep' := hstep
        simp only [RingState.step, Option.bind_eq_bind] at hstep'
        obtain ⟨⟨rb', st', out'⟩, heq, h⟩ := Option.bind_eq_some_iff.mp hstep'
        cases h
        rcases producerStep_empty hc hp hw heq with ⟨rfl, hw', hlt⟩ | ⟨rfl, p, rfl⟩
        · obtain ⟨-, rfl⟩ := append_eq_nil_iff.mp hpkts.symm
          dsimp only [RingEvent.isProducer] at hcount
          obtain ⟨s', outs, hrun, hwritten⟩ := ih hs₁ hw' hrest (by simp at hcount hlt ⊢; omega)
          exact ⟨s', outs, by simp [RingState.run, hstep, hrun], hwritten⟩
        · obtain ⟨s', outs, hrun, hwritten⟩ := Idle.run hs₁ rfl hrest
          exact ⟨s', .wrote data true :: outs, by simp [RingState.run, hstep, hrun],
            congrArg ((data, true) :: ·) hwritten⟩
      | _ => cases hproducer

end

/-! ## The law -/

/-- At every state that a run reaches: a packet that fits is refused by a producer only if the free
space that the shared tail gives in this call is too small for its record; a length of zero, of more
than half of the ring or of more than `maxPacketSize` is always refused; and when the consumer has
returned everything, a packet that fits is accepted, with any events of the consumer during the
call. -/
theorem ring_space_law {memory : Option (Nat → UInt8)} {size : UInt64} {rb : RingBuffer}
    (hcreate : ringBufferCreate memory size = some rb) {cursor : UInt64}
    (hcursor : cursor.toNat % 4 = 0) (es : List RingEvent) :
    ∃ s outs, (RingState.init { rb with head := cursor, tail := cursor }).run es = some (s, outs) ∧
      (∀ e s' out data, s.step e = some (s', out) → .wrote data false ∈ out →
        s.producer ≠ .idle none → Fits s.ring data →
        e = .producer ∧ ∃ p, s.producer = .loadTail p data ∧ p.head - s.ring.tail ≤ s.ring.size ∧
          s.ring.freeSpace p < ringBufferRecordSize (UInt32.ofNat data.length)) ∧
      (∀ p data, s.producer = .idle p →
        data.length = 0 ∨ s.ring.size.toNat / 2 < data.length ∨ maxPacketSize < data.length →
        s.step (.writePacket data) = some (s, [.wrote data false])) ∧
      (accepted outs = returned outs → ∀ p data es', s.producer = .idle (some p) →
        Fits s.ring data →
        (∀ e ∈ es', ¬ e.CallsProducer) → data.length + 4 ≤ es'.countP RingEvent.isProducer →
        ∃ s' outs', s.run (.writePacket data :: es') = some (s', outs') ∧
          written outs' = [(data, true)]) := by
  obtain ⟨s, outs, pending, hrun, hfifo, hs⟩ := ringRun_does (ringInv_init hcreate hcursor) es
  refine ⟨s, outs, hrun, fun e s' out data hstep => refused_spec hs hstep, ?_, ?_⟩
  · intro p data hidle hlen
    obtain ⟨ring, producer, consumer⟩ := s
    obtain rfl : producer = .idle p := hidle
    simp only [RingState.step, writePacket_inadmissible p hlen]
  · intro hall p data es' hidle hf hes hcount
    rw [nil_append, hall] at hfifo
    obtain rfl : pending = [] := append_right_eq_self.mp hfifo.symm
    obtain ⟨ring, producer, consumer⟩ := s
    obtain rfl : producer = .idle (some p) := hidle
    obtain ⟨hout, hstate⟩ := writePacket_admissible p hf
    obtain ⟨⟨s₁, out⟩, hstep, ⟨rest, hpkts, hs₁⟩, -⟩ := ringStep_does hs (.writePacket data)
    have hnext : s₁ = ⟨ring, (writePacket ring (some p) data).1, consumer⟩ ∧ out = [] := by
      rw [← hout]
      cases hstep
      exact ⟨rfl, rfl⟩
    obtain ⟨rfl, rfl⟩ := hnext
    obtain ⟨-, rfl⟩ := append_eq_nil_iff.mp hpkts.symm
    have hw : Writing data (writePacket ring (some p) data).1 ∧
        (writePacket ring (some p) data).1.remaining ≤ data.length + 4 := by
      rcases hstate with heq | heq <;> rw [heq]
      · exact ⟨rfl, Nat.le_refl _⟩
      · exact ⟨(checkSpace_writing p).1, Nat.le_of_lt (checkSpace_writing p).2⟩
    obtain ⟨s', outs', hrun', hwritten⟩ := Empty.run hs₁ hw.1 hes (Nat.le_trans hw.2 hcount)
    exact ⟨s', outs', by simp [RingState.run, hstep, hrun'], hwritten⟩

/-- The last but one call of `wrappingCalls` finds an empty ring, whose cached tail is old. -/
theorem ring_space_law_wrappingCalls :
    ∃ s outs, (RingState.init { smallRing with
          head := 0xfffffffffffffff8, tail := 0xfffffffffffffff8 }).run (wrappingCalls.take 27) =
        some (s, outs) ∧
      (∀ e s' out data, s.step e = some (s', out) → .wrote data false ∈ out →
        s.producer ≠ .idle none → Fits s.ring data →
        e = .producer ∧ ∃ p, s.producer = .loadTail p data ∧ p.head - s.ring.tail ≤ s.ring.size ∧
          s.ring.freeSpace p < ringBufferRecordSize (UInt32.ofNat data.length)) ∧
      (∀ p data, s.producer = .idle p →
        data.length = 0 ∨ s.ring.size.toNat / 2 < data.length ∨ maxPacketSize < data.length →
        s.step (.writePacket data) = some (s, [.wrote data false])) ∧
      (accepted outs = returned outs → ∀ p data es', s.producer = .idle (some p) →
        Fits s.ring data →
        (∀ e ∈ es', ¬ e.CallsProducer) → data.length + 4 ≤ es'.countP RingEvent.isProducer →
        ∃ s' outs', s.run (.writePacket data :: es') = some (s', outs') ∧
          written outs' = [(data, true)]) :=
  ring_space_law (Option.some_get _).symm (by decide) (wrappingCalls.take 27)

/-- A ring of 8 GiB. -/
def hugeRing : RingBuffer :=
  (ringBufferCreate (some fun _ => 0) 8589934720).get (by decide +kernel)

/-- A packet of 4 GiB is half of the ring, and the ring is empty; it is refused because its length
is not a `uint32`. -/
theorem huge_packet_refused :
    ∃ s p data, (RingState.init hugeRing).run [.newProducer true, .producer, .producer] =
      some (s, []) ∧
      s.producer = .idle (some p) ∧ 1 ≤ data.length ∧ data.length ≤ s.ring.size.toNat / 2 ∧
      recordBytes data.length ≤ (s.ring.freeSpace p).toNat ∧
      s.step (.writePacket data) = some (s, [.wrote data false]) := by
  obtain ⟨data, hlen⟩ : ∃ data : Bytes, data.length = 2 ^ 32 :=
    ⟨List.replicate _ 0, length_replicate⟩
  refine ⟨⟨hugeRing, .idle (some ⟨0, 0⟩), .idle none⟩, ⟨0, 0⟩, data, rfl, rfl, ?_, ?_, ?_, ?_⟩
  · rw [hlen]
    decide
  · rw [hlen]
    decide +kernel
  · rw [hlen]
    decide +kernel
  · have hmax : data.length > maxPacketSize := by
      rw [hlen]
      decide
    simp only [RingState.step, writePacket_inadmissible _ (.inr (.inr hmax))]

end Halo
