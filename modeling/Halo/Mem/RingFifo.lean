import Halo.Mem.RingContents

/-!
# The ring buffer is a queue

`ProducerInv` and `ConsumerInv` say what each side knows at each place of its code. The producer's
cached tail is a position that the tail has passed; the consumer's cached head is a record boundary
that the head has passed.

* `producerStep_spec`: a step of the producer adds the packet for which it returns `true`, and
  writes only behind the last record.
* `consumerStep_spec`: a step of the consumer takes the packet it returns, which is the first one.
* `ring_fifo`: in every run the packets returned, followed by those in the ring, are the packets
  accepted.
-/

namespace Halo

open List

section

variable {rb rb' : RingBuffer} {T H k : Nat} {p data : Bytes} {pkts : List Bytes}

/-! ## The producer -/

/-- A call that did not succeed. -/
def RingOutput.Failed : RingOutput → Prop
  | .wrote _ ok => ok = false
  | .read ok _ _ => ok = false

/-- What a producer knows: its own position `H`, and a position `t` at which the tail once was and
which leaves space for `need` bytes. -/
structure ProducerKnows (rb : RingBuffer) (T H need : Nat) (p : RingBufferProducer) : Prop where
  head_eq : p.head = UInt64.ofNat H
  cached : ∃ t ≤ T, p.cachedTail = UInt64.ofNat t ∧ H + need ≤ t + rb.size.toNat

/-- What holds at each place of the producer, for the tail `T` and the head `H`. -/
def ProducerInv (rb : RingBuffer) (T H : Nat) : ProducerState → Prop
  | .idle none => True
  | .idle (some p) => ProducerKnows rb T H 0 p
  | .reloadTail p data => ProducerKnows rb T H 0 p ∧ Fits rb data
  | .loadTail p data => ProducerKnows rb T H 0 p ∧ Fits rb data
  | .storeLen p data => ProducerKnows rb T H (recordBytes data.length) p ∧ Fits rb data
  | .copy p data k => ProducerKnows rb T H (recordBytes data.length) p ∧ Fits rb data ∧
      k ≤ data.length ∧ Holds rb.buffer rb.size.toNat H (leBytes 4 data.length ++ data.take k)
  | .newTail => True
  | .newHead tail => ∃ t ≤ T, tail = UInt64.ofNat t ∧ H ≤ t + rb.size.toNat

variable {pr : RingBufferProducer} {st : ProducerState} {out : List RingOutput}
  {c : RingBufferConsumer} {s : RingState}

theorem ProducerKnows.room {need : Nat} (hp : ProducerKnows rb T H need pr) :
    H + need ≤ T + rb.size.toNat := by
  obtain ⟨t, ht, -, hle⟩ := hp.cached
  omega

/-- The space that a producer sees. -/
theorem toNat_usedSpace {t : Nat} (hg : Geometry rb) (ht : t ≤ H) (hle : H ≤ t + rb.size.toNat) :
    (UInt64.ofNat H - UInt64.ofNat t).toNat = H - t ∧
      ¬ UInt64.ofNat H - UInt64.ofNat t > rb.size := by
  have hsize := hg.size_le
  have hsub := toNat_ofNat_sub ht (show H - t < 2 ^ 64 by omega)
  refine ⟨hsub, ?_⟩
  rw [gt_iff_lt, UInt64.lt_iff_toNat_lt, hsub]
  omega

/-- The check for space, with the cached tail at `t`. -/
theorem freeSpace_lt_iff {t : Nat} (hg : Geometry rb) (ht : t ≤ H) (hle : H ≤ t + rb.size.toNat)
    (hf : Fits rb data) :
    rb.size - (UInt64.ofNat H - UInt64.ofNat t) <
        ringBufferRecordSize (UInt32.ofNat data.length) ↔
      t + rb.size.toNat < H + recordBytes data.length := by
  obtain ⟨hused, hnot⟩ := toNat_usedSpace hg ht hle
  have hbytes := hf.recordBytes_le hg
  have hsize := hg.size_le
  have hrecord : (UInt64.ofNat (recordBytes data.length)).toNat = recordBytes data.length := by
    rw [UInt64.toNat_ofNat']
    omega
  rw [recordSize_eq hf.le_max, UInt64.lt_iff_toNat_lt, hrecord,
    UInt64.toNat_sub_of_le _ _ (UInt64.not_lt.mp hnot), hused]
  omega

theorem checkSpace_inv (hg : Geometry rb) (hTH : T ≤ H) (hp : ProducerKnows rb T H 0 pr)
    (hf : Fits rb data) : ProducerInv rb T H (checkSpace rb pr data) := by
  obtain ⟨hhead, t, ht, hcached, hle⟩ := id hp
  unfold checkSpace
  dsimp only
  rw [hhead, hcached]
  split
  · exact ⟨hp, hf⟩
  · rename_i hspace
    rw [freeSpace_lt_iff hg (Nat.le_trans ht hTH) hle hf] at hspace
    exact ⟨⟨hhead, t, ht, hcached, by omega⟩, hf⟩

theorem writePacket_inv {pr : Option RingBufferProducer} (hg : Geometry rb) (hTH : T ≤ H)
    (hp : ProducerInv rb T H (.idle pr)) (data : Bytes) :
    ProducerInv rb T H (writePacket rb pr data).1 ∧ accepted (writePacket rb pr data).2 = [] ∧
      returned (writePacket rb pr data).2 = [] := by
  unfold writePacket
  cases pr with
  | none => exact ⟨trivial, rfl, rfl⟩
  | some ctx =>
    dsimp only
    split
    · exact ⟨hp, rfl, rfl⟩
    rename_i hlen
    split
    · exact ⟨hp, rfl, rfl⟩
    rename_i hhalf
    rw [not_or] at hlen
    have hf : Fits rb data := by
      refine ⟨Nat.pos_of_ne_zero hlen.1, Nat.le_of_not_gt hlen.2, ?_⟩
      have htwo : (2 : UInt64).toNat = 2 := rfl
      rw [gt_iff_lt, UInt64.lt_iff_toNat_lt, UInt32.toNat_toUInt64,
        toNat_len (Nat.le_of_not_gt hlen.2), UInt64.toNat_div, htwo] at hhalf
      exact Nat.le_of_not_lt hhalf
    split
    · exact ⟨⟨hp, hf⟩, rfl, rfl⟩
    · exact ⟨checkSpace_inv hg hTH hp hf, rfl, rfl⟩

/-- A write behind the records. -/
theorem Contains.write {l j : Nat} {m : Heap UInt8} (hc : Contains rb T pkts)
    (hw : WritesIn rb.buffer m rb.size.toNat j l) (hj : T + span pkts ≤ j)
    (hl : j + l ≤ T + rb.size.toNat) : Contains { rb with buffer := m } T pkts :=
  { hc with
    allocated := hw.allocated hc.allocated
    stored := hc.stored.frame rfl hw hj hl
    fits := fun p hp => (hc.fits p hp).congr rfl }

/-- A step of the producer: it adds what it accepts, and a call that fails leaves the ring as it
is. -/
structure ProducerDoes (rb : RingBuffer) (T : Nat) (pkts : List Bytes)
    (r : RingBuffer × ProducerState × List RingOutput) : Prop where
  contains : Contains r.1 T (pkts ++ accepted r.2.2)
  inv : ProducerInv r.1 T (T + span (pkts ++ accepted r.2.2)) r.2.1
  returned_nil : returned r.2.2 = []
  failed : ∀ o ∈ r.2.2, o.Failed → r.1 = rb

/-- A step that accepts nothing. -/
theorem ProducerDoes.of_contains
    (hc : Contains rb' T pkts) (hp : ProducerInv rb' T (T + span pkts) st)
    (hacc : accepted out = []) (hret : returned out = []) (hfail : ∀ o ∈ out, o.Failed → rb' = rb) :
    ProducerDoes rb T pkts (rb', st, out) where
  contains := by rwa [hacc, append_nil]
  inv := by rwa [hacc, append_nil]
  returned_nil := hret
  failed := hfail

/-- A step that only loads. -/
theorem ProducerDoes.of_load (hc : Contains rb T pkts)
    (hp : ProducerInv rb T (T + span pkts) st) (hacc : accepted out = [])
    (hret : returned out = []) : ProducerDoes rb T pkts (rb, st, out) :=
  .of_contains hc hp hacc hret fun _ _ _ => rfl

/-- The producer after a load of the tail. -/
theorem ProducerKnows.load {need : Nat} (hc : Contains rb T pkts)
    (hp : ProducerKnows rb T (T + span pkts) 0 pr) (hneed : span pkts + need ≤ rb.size.toNat) :
    ProducerKnows rb T (T + span pkts) need { pr with cachedTail := rb.tail } :=
  ⟨hp.head_eq, T, Nat.le_refl _, hc.tail_eq, by omega⟩

theorem reloadTail_does (hc : Contains rb T pkts)
    (hp : ProducerInv rb T (T + span pkts) (.reloadTail pr data)) :
    ∃ r, producerStep rb (.reloadTail pr data) = some r ∧ ProducerDoes rb T pkts r := by
  obtain ⟨hpr, hf⟩ := hp
  have hle := hc.span_le
  obtain ⟨-, hnot⟩ := toNat_usedSpace hc.toGeometry (Nat.le_add_right T _)
    (show T + span pkts ≤ T + rb.size.toNat by omega)
  rw [← hpr.head_eq, ← hc.tail_eq] at hnot
  exact ⟨_, if_neg hnot,
    .of_load hc (checkSpace_inv hc.toGeometry (Nat.le_add_right T _) (hpr.load hc hle) hf) rfl rfl⟩

theorem loadTail_does (hc : Contains rb T pkts)
    (hp : ProducerInv rb T (T + span pkts) (.loadTail pr data)) :
    ∃ r, producerStep rb (.loadTail pr data) = some r ∧ ProducerDoes rb T pkts r := by
  obtain ⟨hpr, hf⟩ := hp
  have hle : T + span pkts ≤ T + rb.size.toNat := by
    have := hc.span_le
    omega
  have hlt := freeSpace_lt_iff hc.toGeometry (Nat.le_add_right T _) hle hf
  obtain ⟨-, hnot⟩ := toNat_usedSpace hc.toGeometry (Nat.le_add_right T _) hle
  rw [← hpr.head_eq, ← hc.tail_eq] at hlt hnot
  by_cases hspace : T + rb.size.toNat < T + span pkts + recordBytes data.length
  · exact ⟨_, if_pos (.inr (hlt.mpr hspace)), .of_load hc (hpr.load hc hc.span_le) rfl rfl⟩
  · refine ⟨_, if_neg ?_, .of_load hc ⟨hpr.load hc (by omega), hf⟩ rfl rfl⟩
    rintro (hused | hfree)
    · exact hnot hused
    · exact hspace (hlt.mp hfree)

theorem storeLen_does (hc : Contains rb T pkts)
    (hp : ProducerInv rb T (T + span pkts) (.storeLen pr data)) :
    ∃ r, producerStep rb (.storeLen pr data) = some r ∧ ProducerDoes rb T pkts r := by
  obtain ⟨hpr, hf⟩ := hp
  have hroom := hpr.room
  have haligned : 4 ∣ T + span pkts := Nat.dvd_add hc.aligned (four_dvd_span pkts)
  have hbytes := recordBytes_bounds data.length
  have hpos := hc.size_pos
  have hfit : (T + span pkts) % rb.size.toNat + (leBytes 4 data.length).length ≤ rb.size.toNat := by
    rw [length_leBytes]
    exact (hc.aligned_mod haligned (show 0 < 4 by decide)).2
  obtain ⟨m, hstore, hw, hholds⟩ :=
    storeFrom_spec hc.allocated (show 0 < rb.size.toNat by omega) hfit
  rw [length_leBytes] at hw
  refine ⟨({ rb with buffer := m }, .copy pr data 0, []), ?_, ?_⟩
  · have hmask := hc.toNat_and_mask (T + span pkts)
    simp only [producerStep, RingBuffer.storeLen, hpr.head_eq, hmask, toNat_len hf.le_max, hstore,
      Option.bind_eq_bind, Option.bind_some]
    rfl
  · refine .of_contains (hc.write hw (Nat.le_refl _) (by omega))
      ⟨⟨hpr.head_eq, hpr.cached⟩, hf.congr rfl, Nat.zero_le _, ?_⟩ rfl rfl (by simp)
    rw [take_zero, append_nil]
    exact hholds

/-- The copy of one byte. -/
theorem copyByte_does {b : UInt8} (hc : Contains rb T pkts)
    (hp : ProducerInv rb T (T + span pkts) (.copy pr data k)) (hb : data[k]? = some b) :
    ∃ r, producerStep rb (.copy pr data k) = some r ∧ ProducerDoes rb T pkts r := by
  obtain ⟨hpr, hf, -, hholds⟩ := hp
  have hroom := hpr.room
  obtain ⟨hlt, rfl⟩ := List.getElem?_eq_some_iff.mp hb
  have hbytes := recordBytes_bounds data.length
  have hpos := hc.size_pos
  obtain ⟨m, hstore, hw, hbyte⟩ := storeAt_spec hc.allocated (show 0 < rb.size.toNat by omega)
    (T + span pkts + 4 + k) data[k]
  refine ⟨({ rb with buffer := m }, .copy pr data (k + 1), []), ?_, ?_⟩
  · have hoffset := hc.dataOffset_eq (i := T + span pkts) hf.le_max hf.le_half hlt
    simp only [producerStep, hb, hpr.head_eq, hoffset, hstore, Option.bind_eq_bind,
      Option.bind_some]
    rfl
  · refine .of_contains (hc.write hw (by omega) (by omega))
      ⟨⟨hpr.head_eq, hpr.cached⟩, hf.congr rfl, hlt, ?_⟩ rfl rfl (by simp)
    -- the bytes copied so far are in front of the new one
    have hlen : (leBytes 4 data.length ++ data.take k).length = 4 + k := by
      rw [length_append, length_leBytes, length_take]
      omega
    rw [take_succ_eq_append_getElem hlt, ← append_assoc, holds_append, hlen, ← Nat.add_assoc]
    exact ⟨hholds.frame hw (by omega) (by omega), hbyte⟩

/-- The record is complete, and `head` is published. -/
theorem publish_does (hc : Contains rb T pkts)
    (hp : ProducerInv rb T (T + span pkts) (.copy pr data k)) (hend : data[k]? = none) :
    ∃ r, producerStep rb (.copy pr data k) = some r ∧ ProducerDoes rb T pkts r := by
  obtain ⟨hpr, hf, hk, hholds⟩ := hp
  have hroom := hpr.room
  have hk : k = data.length := Nat.le_antisymm hk (getElem?_eq_none_iff.mp hend)
  rw [hk, take_length] at hholds
  have hnext : pr.head + ringBufferRecordSize (UInt32.ofNat data.length) =
      UInt64.ofNat (T + span (pkts ++ [data])) := by
    rw [hpr.head_eq, recordSize_eq hf.le_max, ← UInt64.ofNat_add]
    simp [Nat.add_assoc]
  refine ⟨({ rb with head := UInt64.ofNat (T + span (pkts ++ [data])) },
    .idle (some { pr with head := UInt64.ofNat (T + span (pkts ++ [data])) }), [.wrote data true]),
    ?_, ?_, ?_, rfl, ?_⟩
  · simp only [producerStep, hend, hnext]
  · have hstored : Stored rb T (pkts ++ [data]) := Stored.append.mpr ⟨hc.stored, hholds, trivial⟩
    exact { hc with
      head_eq := rfl
      span_le := by
        change span (pkts ++ [data]) ≤ rb.size.toNat
        simp only [span_append, span_cons, span_nil]
        omega
      stored := hstored.frame rfl ⟨id, fun _ _ => rfl⟩ (j := T + span (pkts ++ [data])) (l := 0)
        (Nat.le_refl _) (by simp only [span_append, span_cons, span_nil]; omega)
      fits := fun p hp => by
        rcases mem_append.mp hp with hp | hp
        · exact (hc.fits p hp).congr rfl
        · obtain rfl := mem_singleton.mp hp
          exact hf.congr rfl }
  · obtain ⟨t, ht, hcached, hle⟩ := hpr.cached
    refine ⟨rfl, t, ht, hcached, ?_⟩
    change T + span (pkts ++ [data]) + 0 ≤ t + rb.size.toNat
    simp only [span_append, span_cons, span_nil]
    omega
  · intro o ho hfailed
    obtain rfl := mem_singleton.mp ho
    cases hfailed

theorem copy_does (hc : Contains rb T pkts)
    (hp : ProducerInv rb T (T + span pkts) (.copy pr data k)) :
    ∃ r, producerStep rb (.copy pr data k) = some r ∧ ProducerDoes rb T pkts r := by
  cases hb : data[k]? with
  | some b => exact copyByte_does hc hp hb
  | none => exact publish_does hc hp hb

/-- A step of the producer. -/
theorem producerStep_spec (hc : Contains rb T pkts) (hp : ProducerInv rb T (T + span pkts) st) :
    ∃ r, producerStep rb st = some r ∧ ProducerDoes rb T pkts r := by
  cases st with
  | idle p => exact ⟨_, rfl, .of_load hc hp rfl rfl⟩
  | reloadTail p data => exact reloadTail_does hc hp
  | loadTail p data => exact loadTail_does hc hp
  | storeLen p data => exact storeLen_does hc hp
  | copy p data k => exact copy_does hc hp
  | newTail =>
    refine ⟨_, rfl, .of_load hc ⟨T, Nat.le_refl _, hc.tail_eq, ?_⟩ rfl rfl⟩
    have hle := hc.span_le
    omega
  | newHead tail =>
    obtain ⟨t, ht, rfl, hle⟩ := hp
    obtain ⟨-, hnot⟩ := toNat_usedSpace hc.toGeometry (show t ≤ T + span pkts by omega) hle
    rw [← hc.head_eq] at hnot
    exact ⟨_, if_neg hnot, .of_load hc ⟨hc.head_eq, t, ht, rfl, hle⟩ rfl rfl⟩

/-! ## The consumer -/

/-- What a consumer knows: its own position, and a record boundary at which the head once was. -/
structure ConsumerKnows (T : Nat) (pkts : List Bytes) (c : RingBufferConsumer) : Prop where
  tail_eq : c.tail = UInt64.ofNat T
  cached : ∃ l r, pkts = l ++ r ∧ c.cachedHead = UInt64.ofNat (T + span l)

/-- A consumer that knows of the first packet. -/
structure ConsumerSees (T : Nat) (pkts : List Bytes) (c : RingBufferConsumer) (p : Bytes) :
    Prop where
  tail_eq : c.tail = UInt64.ofNat T
  cached : ∃ l r, pkts = p :: (l ++ r) ∧ c.cachedHead = UInt64.ofNat (T + span (p :: l))

/-- What holds at each place of the consumer, for the tail `T`. -/
def ConsumerInv (T : Nat) (pkts : List Bytes) : ConsumerState → Prop
  | .idle none => True
  | .idle (some c) => ConsumerKnows T pkts c
  | .loadHead c _ => ConsumerKnows T pkts c
  | .loadLen c _ => ∃ p, ConsumerSees T pkts c p
  | .reloadHead c _ packetLen => ∃ p, ConsumerSees T pkts c p ∧ packetLen = UInt32.ofNat p.length
  | .copy c data packetLen k => ∃ p, ConsumerSees T pkts c p ∧ packetLen = UInt32.ofNat p.length ∧
      p.length ≤ data.length ∧ k ≤ p.length ∧ data.take k = p.take k
  | .newTail => True
  | .newHead tail => tail = UInt64.ofNat T

theorem ConsumerSees.knows (hs : ConsumerSees T pkts c p) : ConsumerKnows T pkts c := by
  obtain ⟨htail, l, r, rfl, hcached⟩ := hs
  exact ⟨htail, p :: l, r, rfl, hcached⟩

theorem ConsumerSees.mem (hs : ConsumerSees T pkts c p) : p ∈ pkts := by
  obtain ⟨-, l, r, rfl, -⟩ := hs
  exact mem_cons_self

/-- The used space that a consumer sees. -/
theorem Contains.toNat_span {l r : List Bytes} (hc : Contains rb T (l ++ r)) :
    (UInt64.ofNat (T + span l) - UInt64.ofNat T).toNat = span l ∧ span l ≤ rb.size.toNat := by
  have hsize := hc.size_le
  have hle := hc.span_le
  rw [span_append] at hle
  refine ⟨?_, by omega⟩
  rw [toNat_ofNat_sub (Nat.le_add_right _ _) (by omega), Nat.add_sub_cancel_left]

theorem noRecord_iff {l r : List Bytes} (hc : Contains rb T (l ++ r)) :
    noRecord rb (UInt64.ofNat (T + span l) - UInt64.ofNat T) = true ↔ l = [] := by
  obtain ⟨hsub, hle⟩ := hc.toNat_span
  have hfour : recordHeaderSize.toNat = 4 := rfl
  unfold noRecord
  rw [Bool.or_eq_true, decide_eq_true_eq, decide_eq_true_eq, gt_iff_lt, UInt64.lt_iff_toNat_lt,
    UInt64.lt_iff_toNat_lt, hsub, hfour]
  cases l with
  | nil => simp
  | cons p l =>
    have hbytes := recordBytes_bounds p.length
    rw [span_cons] at hle ⊢
    simp only [reduceCtorEq, iff_false]
    omega

/-- The consumer after a look at its cached head. -/
theorem ConsumerKnows.look (hc : Contains rb T pkts)
    (hk : ConsumerKnows T pkts c) (hrec : ¬ noRecord rb (c.cachedHead - c.tail) = true) :
    ∃ p, ConsumerSees T pkts c p := by
  obtain ⟨htail, l, r, rfl, hcached⟩ := hk
  rw [htail, hcached, noRecord_iff hc] at hrec
  cases l with
  | nil => exact absurd rfl hrec
  | cons p l => exact ⟨p, htail, l, r, rfl, hcached⟩

theorem readPacket_inv {c : Option RingBufferConsumer} (hc : Contains rb T pkts)
    (hi : ConsumerInv T pkts (.idle c)) (data : Bytes) (hasLen : Bool) :
    ConsumerInv T pkts (readPacket rb c data hasLen).1 ∧
      accepted (readPacket rb c data hasLen).2 = [] ∧
      returned (readPacket rb c data hasLen).2 = [] := by
  unfold readPacket
  cases hasLen with
  | false => exact ⟨hi, rfl, rfl⟩
  | true =>
    cases c with
    | none => exact ⟨trivial, rfl, rfl⟩
    | some ctx =>
      dsimp only
      rw [if_pos rfl]
      split
      · exact ⟨hi, rfl, rfl⟩
      · rename_i hrec
        exact ⟨ConsumerKnows.look hc hi hrec, rfl, rfl⟩

/-- A step of the consumer: it takes what it returns, and a call that fails leaves the ring as it
is. -/
structure ConsumerDoes (rb : RingBuffer) (T : Nat) (pkts : List Bytes)
    (r : RingBuffer × ConsumerState × List RingOutput) : Prop where
  takes : ∃ rest, pkts = returned r.2.2 ++ rest ∧
    Contains r.1 (T + span (returned r.2.2)) rest ∧
    ConsumerInv (T + span (returned r.2.2)) rest r.2.1
  accepted_nil : accepted r.2.2 = []
  size_eq : r.1.size = rb.size
  buffer_eq : r.1.buffer = rb.buffer
  failed : ∀ o ∈ r.2.2, o.Failed → r.1 = rb

/-- A step that only loads. -/
theorem ConsumerDoes.of_load {st : ConsumerState} (hc : Contains rb T pkts)
    (hi : ConsumerInv T pkts st) (hacc : accepted out = []) (hret : returned out = []) :
    ConsumerDoes rb T pkts (rb, st, out) where
  takes := by
    dsimp only
    rw [hret]
    exact ⟨pkts, rfl, hc, hi⟩
  accepted_nil := hacc
  size_eq := rfl
  buffer_eq := rfl
  failed _ _ _ := rfl

/-- The consumer after a load of the head. -/
theorem ConsumerKnows.load (hc : Contains rb T pkts) (htail : c.tail = UInt64.ofNat T) :
    ConsumerKnows T pkts { c with cachedHead := rb.head } :=
  ⟨htail, pkts, [], (append_nil _).symm, hc.head_eq⟩

/-- What a look at the length of the caller's buffer leads to. -/
theorem checkLength_does (hc : Contains rb T pkts) (hs : ConsumerSees T pkts c p) (data : Bytes) :
    ConsumerDoes rb T pkts (rb, checkLength c data (UInt32.ofNat p.length)) := by
  unfold checkLength
  split
  · exact .of_load hc hs.knows rfl rfl
  · rename_i hlen
    rw [toNat_len (hc.fits p hs.mem).le_max] at hlen
    exact .of_load hc ⟨p, hs, rfl, Nat.le_of_not_lt hlen, Nat.zero_le _, rfl⟩ rfl rfl

/-- The record of the first packet. -/
theorem ConsumerSees.holds (hc : Contains rb T pkts) (hs : ConsumerSees T pkts c p) :
    Holds rb.buffer rb.size.toNat T (leBytes 4 p.length ++ p) := by
  obtain ⟨-, l, r, rfl, -⟩ := hs
  exact hc.stored.1

/-- The cached head is behind the first record. -/
theorem ConsumerSees.complete (hc : Contains rb T pkts) (hs : ConsumerSees T pkts c p) :
    ¬ c.cachedHead - c.tail < ringBufferRecordSize (UInt32.ofNat p.length) := by
  have hf := hc.fits p hs.mem
  obtain ⟨htail, l, r, rfl, hcached⟩ := hs
  obtain ⟨hsub, hle⟩ := Contains.toNat_span (l := p :: l) hc
  have hsize := hc.size_le
  have hrecord : (UInt64.ofNat (recordBytes p.length)).toNat = recordBytes p.length := by
    rw [UInt64.toNat_ofNat']
    rw [span_cons] at hle
    omega
  rw [htail, hcached, recordSize_eq hf.le_max, UInt64.lt_iff_toNat_lt, hsub, hrecord, span_cons]
  omega

theorem loadLen_does (hc : Contains rb T pkts) (hs : ConsumerSees T pkts c p) (data : Bytes) :
    ∃ r, consumerStep rb (.loadLen c data) = some r ∧ ConsumerDoes rb T pkts r := by
  have hf := hc.fits p hs.mem
  have hload := hc.loadLen_eq hc.aligned hf.le_max (hs.holds hc)
  have hmask := hc.toNat_and_mask T
  have hvalid : ¬ (UInt32.ofNat p.length = 0 ∨ (UInt32.ofNat p.length).toUInt64 > rb.size / 2) := by
    have hpos := hf.pos
    have hhalf := hf.le_half
    have htwo : (2 : UInt64).toNat = 2 := rfl
    have hzero : (0 : UInt32).toNat = 0 := rfl
    rw [← UInt32.toNat_inj, gt_iff_lt, UInt64.lt_iff_toNat_lt, UInt32.toNat_toUInt64,
      toNat_len hf.le_max, UInt64.toNat_div, htwo, hzero]
    omega
  refine ⟨_, ?_, checkLength_does hc hs data⟩
  rw [← hmask, ← hs.tail_eq] at hload
  simp only [consumerStep, hload, Option.bind_eq_bind, Option.bind_some, if_neg hvalid,
    if_neg (hs.complete hc)]
  rfl

theorem reloadHead_does (hc : Contains rb T pkts) (hs : ConsumerSees T pkts c p) (data : Bytes) :
    ∃ r, consumerStep rb (.reloadHead c data (UInt32.ofNat p.length)) = some r ∧
      ConsumerDoes rb T pkts r := by
  have hs' : ConsumerSees T pkts { c with cachedHead := rb.head } p := by
    obtain ⟨htail, l, r, rfl, -⟩ := hs
    exact ⟨htail, l ++ r, [], by rw [append_nil], hc.head_eq⟩
  have hused : ¬ rb.head - c.tail > rb.size := by
    have hc' : Contains rb T (pkts ++ []) := by rwa [append_nil]
    obtain ⟨hsub, hle⟩ := hc'.toNat_span
    rw [hs.tail_eq, hc.head_eq, gt_iff_lt, UInt64.lt_iff_toNat_lt, hsub]
    omega
  refine ⟨_, if_neg ?_, checkLength_does hc hs' data⟩
  rintro (hlarge | hshort)
  · exact hused hlarge
  · exact hs'.complete hc hshort

/-- The copy of one byte. -/
theorem copyOut_does (hc : Contains rb T pkts)
    (hs : ConsumerSees T pkts c p) (hlen : p.length ≤ data.length) (hk : k < p.length)
    (htake : data.take k = p.take k) :
    ∃ r, consumerStep rb (.copy c data (UInt32.ofNat p.length) k) = some r ∧
      ConsumerDoes rb T pkts r := by
  have hf := hc.fits p hs.mem
  have hoffset := hc.dataOffset_eq (i := T) hf.le_max hf.le_half hk
  have hbyte := (holds_append.mp (hs.holds hc)).2 k p[k] (getElem?_eq_getElem hk)
  rw [length_leBytes, ← hoffset, ← hs.tail_eq] at hbyte
  refine ⟨(rb, .copy c (data.set k p[k]) (UInt32.ofNat p.length) (k + 1), []), ?_, ?_⟩
  · have hlt : k < (UInt32.ofNat p.length).toNat := by rwa [toNat_len hf.le_max]
    simp only [consumerStep, if_pos hlt, hbyte, Option.bind_eq_bind, Option.bind_some]
    rfl
  · refine .of_load hc ⟨p, hs, rfl, by rwa [length_set], hk, ?_⟩ rfl rfl
    have hk' : k < (data.set k p[k]).length := by
      rw [length_set]
      omega
    rw [take_succ_eq_append_getElem hk', take_succ_eq_append_getElem hk,
      take_set_of_le (Nat.le_refl k), htake, getElem_set_self]

/-- The packet is complete, and `tail` is published. -/
theorem takeOut_does (hc : Contains rb T pkts) (hs : ConsumerSees T pkts c p)
    (htake : data.take p.length = p) :
    ∃ r, consumerStep rb (.copy c data (UInt32.ofNat p.length) p.length) = some r ∧
      ConsumerDoes rb T pkts r := by
  have hf := hc.fits p hs.mem
  obtain ⟨htail, l, r, rfl, hcached⟩ := hs
  have hnext : c.tail + ringBufferRecordSize (UInt32.ofNat p.length) =
      UInt64.ofNat (T + recordBytes p.length) := by
    rw [htail, recordSize_eq hf.le_max, ← UInt64.ofNat_add]
  have hout : returned [.read true (UInt32.ofNat p.length) data] = [p] := by
    simp [returned, toNat_len hf.le_max, htake]
  refine ⟨({ rb with tail := UInt64.ofNat (T + recordBytes p.length) },
    .idle (some { c with tail := UInt64.ofNat (T + recordBytes p.length) }),
    [.read true (UInt32.ofNat p.length) data]), ?_, ⟨l ++ r, ?_⟩, rfl, rfl, rfl, ?_⟩
  · have hge : ¬ p.length < (UInt32.ofNat p.length).toNat := by
      rw [toNat_len hf.le_max]
      exact Nat.lt_irrefl _
    simp only [consumerStep, if_neg hge, hnext]
  · dsimp only
    rw [hout, span_cons, span_nil, Nat.add_zero]
    have hspan := hc.span_le
    rw [span_cons] at hspan
    refine ⟨rfl, ?_, rfl, l, r, rfl, ?_⟩
    · exact { hc with
        tail_eq := rfl
        head_eq := by rw [Nat.add_assoc]; exact hc.head_eq
        aligned := Nat.dvd_add hc.aligned (Nat.dvd_mul_left 4 _)
        span_le := by change span (l ++ r) ≤ rb.size.toNat; omega
        stored := hc.stored.2.frame rfl ⟨id, fun _ _ => rfl⟩ (Nat.le_refl _) (l := 0) (by omega)
        fits := fun q hq => (hc.fits q (mem_cons_of_mem _ hq)).congr rfl }
    · rw [Nat.add_assoc]
      exact hcached
  · intro o ho hfailed
    obtain rfl := mem_singleton.mp ho
    cases hfailed

/-- A step of the consumer. -/
theorem consumerStep_spec {st : ConsumerState} (hc : Contains rb T pkts)
    (hi : ConsumerInv T pkts st) :
    ∃ r, consumerStep rb st = some r ∧ ConsumerDoes rb T pkts r := by
  cases st with
  | idle c => exact ⟨_, rfl, .of_load hc hi rfl rfl⟩
  | loadHead c data =>
    have hk := ConsumerKnows.load (c := c) hc hi.tail_eq
    by_cases hrec : noRecord rb (rb.head - c.tail) = true
    · exact ⟨_, if_pos hrec, .of_load hc hk rfl rfl⟩
    · exact ⟨_, if_neg hrec, .of_load hc (hk.look hc hrec) rfl rfl⟩
  | loadLen c data =>
    obtain ⟨p, hs⟩ := hi
    exact loadLen_does hc hs data
  | reloadHead c data packetLen =>
    obtain ⟨p, hs, rfl⟩ := hi
    exact reloadHead_does hc hs data
  | copy c data packetLen k =>
    obtain ⟨p, hs, rfl, hlen, hk, htake⟩ := hi
    rcases Nat.lt_or_eq_of_le hk with hlt | rfl
    · exact copyOut_does hc hs hlen hlt htake
    · rw [take_length] at htake
      exact takeOut_does hc hs htake
  | newTail => exact ⟨_, rfl, .of_load hc hc.tail_eq rfl rfl⟩
  | newHead tail =>
    obtain rfl : tail = UInt64.ofNat T := hi
    have hc' : Contains rb T (pkts ++ []) := by rwa [append_nil]
    obtain ⟨hsub, hle⟩ := hc'.toNat_span
    have hnot : ¬ rb.head - UInt64.ofNat T > rb.size := by
      rw [hc.head_eq, gt_iff_lt, UInt64.lt_iff_toNat_lt, hsub]
      omega
    exact ⟨_, if_neg hnot, .of_load hc ⟨rfl, pkts, [], by rw [append_nil], hc.head_eq⟩ rfl rfl⟩

/-! ## Both sides -/

/-- The consumer does not notice new packets. -/
theorem ConsumerInv.append {st : ConsumerState} (hi : ConsumerInv T pkts st) (qs : List Bytes) :
    ConsumerInv T (pkts ++ qs) st := by
  have hknows : ∀ {c}, ConsumerKnows T pkts c → ConsumerKnows T (pkts ++ qs) c := by
    rintro c ⟨htail, l, r, rfl, hcached⟩
    exact ⟨htail, l, r ++ qs, by rw [append_assoc], hcached⟩
  have hsees : ∀ {c p}, ConsumerSees T pkts c p → ConsumerSees T (pkts ++ qs) c p := by
    rintro c p ⟨htail, l, r, rfl, hcached⟩
    exact ⟨htail, l, r ++ qs, by simp, hcached⟩
  cases st with
  | idle c =>
    cases c with
    | none => trivial
    | some c => exact hknows hi
  | loadHead c data => exact hknows hi
  | loadLen c data =>
    obtain ⟨p, hs⟩ := hi
    exact ⟨p, hsees hs⟩
  | reloadHead c data packetLen =>
    obtain ⟨p, hs, hlen⟩ := hi
    exact ⟨p, hsees hs, hlen⟩
  | copy c data packetLen k =>
    obtain ⟨p, hs, hrest⟩ := hi
    exact ⟨p, hsees hs, hrest⟩
  | newTail => trivial
  | newHead tail => exact hi

/-- The producer does not notice that the tail moves on. -/
theorem ProducerInv.advance {T' : Nat} (hp : ProducerInv rb T H st) (hT : T ≤ T')
    (hsize : rb'.size = rb.size) (hbuffer : rb'.buffer = rb.buffer) : ProducerInv rb' T' H st := by
  have hknows : ∀ {need pr}, ProducerKnows rb T H need pr → ProducerKnows rb' T' H need pr := by
    rintro need pr ⟨hhead, t, ht, hcached, hle⟩
    exact ⟨hhead, t, Nat.le_trans ht hT, hcached, hsize ▸ hle⟩
  cases st with
  | idle p =>
    cases p with
    | none => trivial
    | some p => exact hknows hp
  | copy p data k =>
    obtain ⟨hpr, hf, hk, hholds⟩ := hp
    refine ⟨hknows hpr, hf.congr hsize, hk, ?_⟩
    rwa [hsize, hbuffer]
  | newTail => trivial
  | newHead tail =>
    obtain ⟨t, ht, htail, hle⟩ := hp
    exact ⟨t, Nat.le_trans ht hT, htail, hsize ▸ hle⟩
  | _ => exact ⟨hknows hp.1, hp.2.congr hsize⟩

/-- The ring with its two sides, and the packets in it. -/
def RingInv (s : RingState) (pkts : List Bytes) : Prop :=
  ∃ T, Contains s.ring T pkts ∧ ProducerInv s.ring T (T + span pkts) s.producer ∧
    ConsumerInv T pkts s.consumer

/-- What a step does to the packets in the ring. -/
def StepDoes (s : RingState) (pkts : List Bytes) (r : RingState × List RingOutput) : Prop :=
  (∃ rest, pkts ++ accepted r.2 = returned r.2 ++ rest ∧ RingInv r.1 rest) ∧
    ((∃ o ∈ r.2, o.Failed) → r.1.ring = s.ring)

/-- A step that changes no packets. -/
theorem StepDoes.of_same {s' : RingState} (hs : RingInv s' pkts)
    (hring : s'.ring = s.ring) (hacc : accepted out = []) (hret : returned out = []) :
    StepDoes s pkts (s', out) := by
  refine ⟨⟨pkts, ?_, hs⟩, fun _ => hring⟩
  rw [hacc, hret, append_nil, nil_append]

theorem producer_does (hs : RingInv s pkts) :
    ∃ r, s.step .producer = some r ∧ StepDoes s pkts r := by
  obtain ⟨T, hc, hp, hi⟩ := hs
  obtain ⟨⟨ring, producer, out⟩, hstep, hdoes⟩ := producerStep_spec hc hp
  refine ⟨({ s with ring, producer }, out), by simp [RingState.step, hstep], ?_, ?_⟩
  · refine ⟨pkts ++ accepted out, ?_, T, hdoes.contains, hdoes.inv, hi.append _⟩
    have hret : returned out = [] := hdoes.returned_nil
    rw [hret, nil_append]
  · rintro ⟨o, ho, hfailed⟩
    exact hdoes.failed o ho hfailed

theorem consumer_does (hs : RingInv s pkts) :
    ∃ r, s.step .consumer = some r ∧ StepDoes s pkts r := by
  obtain ⟨T, hc, hp, hi⟩ := hs
  obtain ⟨⟨ring, consumer, out⟩, hstep, hdoes⟩ := consumerStep_spec hc hi
  obtain ⟨rest, hpkts, hc', hi'⟩ := hdoes.takes
  have hacc : accepted out = [] := hdoes.accepted_nil
  have hhead : T + span pkts = T + span (returned out) + span rest := by
    rw [hpkts, span_append, Nat.add_assoc]
  refine ⟨({ s with ring, consumer }, out), by simp [RingState.step, hstep], ?_, ?_⟩
  · refine ⟨rest, ?_, T + span (returned out), hc', ?_, hi'⟩
    · rw [hacc, append_nil]
      exact hpkts
    · rw [← hhead]
      exact hp.advance (Nat.le_add_right _ _) hdoes.size_eq hdoes.buffer_eq
  · rintro ⟨o, ho, hfailed⟩
    exact hdoes.failed o ho hfailed

/-- A step of the system. -/
theorem ringStep_does (hs : RingInv s pkts) (e : RingEvent) :
    ∃ r, s.step e = some r ∧ StepDoes s pkts r := by
  obtain ⟨T, hc, hp, hi⟩ := id hs
  have hTH : T ≤ T + span pkts := Nat.le_add_right _ _
  have hkeep : StepDoes s pkts (s, []) := .of_same hs rfl rfl rfl
  obtain ⟨ring, producer, consumer⟩ := s
  cases e with
  | producer => exact producer_does hs
  | consumer => exact consumer_does hs
  | writePacket data =>
    cases producer with
    | idle p =>
      obtain ⟨hinv, hacc, hret⟩ := writePacket_inv hc.toGeometry hTH hp data
      exact ⟨_, rfl, .of_same ⟨T, hc, hinv, hi⟩ rfl hacc hret⟩
    | _ => exact ⟨_, rfl, hkeep⟩
  | newProducer mapped =>
    cases producer with
    | idle p =>
      dsimp only [RingState.step]
      split
      · exact ⟨_, rfl, .of_same ⟨T, hc, trivial, hi⟩ rfl rfl rfl⟩
      · exact ⟨_, rfl, .of_same ⟨T, hc, trivial, hi⟩ rfl rfl rfl⟩
    | _ => exact ⟨_, rfl, hkeep⟩
  | readPacket data hasLen =>
    cases consumer with
    | idle c =>
      obtain ⟨hinv, hacc, hret⟩ := readPacket_inv hc hi data hasLen
      exact ⟨_, rfl, .of_same ⟨T, hc, hp, hinv⟩ rfl hacc hret⟩
    | _ => exact ⟨_, rfl, hkeep⟩
  | newConsumer mapped =>
    cases consumer with
    | idle c =>
      dsimp only [RingState.step]
      split
      · exact ⟨_, rfl, .of_same ⟨T, hc, hp, trivial⟩ rfl rfl rfl⟩
      · exact ⟨_, rfl, .of_same ⟨T, hc, hp, trivial⟩ rfl rfl rfl⟩
    | _ => exact ⟨_, rfl, hkeep⟩

/-- A run of the system. -/
theorem ringRun_does (hs : RingInv s pkts) (es : List RingEvent) :
    ∃ s' outs rest, s.run es = some (s', outs) ∧ pkts ++ accepted outs = returned outs ++ rest ∧
      RingInv s' rest := by
  induction es generalizing s pkts with
  | nil => exact ⟨s, [], pkts, rfl, by simp [accepted, returned], hs⟩
  | cons e es ih =>
    obtain ⟨⟨s₁, out⟩, hstep, ⟨rest₁, hpkts, hs₁⟩, -⟩ := ringStep_does hs e
    obtain ⟨s', outs, rest, hrun, hrest, hs'⟩ := ih hs₁
    refine ⟨s', out ++ outs, rest, ?_, ?_, hs'⟩
    · simp [RingState.run, hstep, hrun]
    · dsimp only at hpkts
      have hacc : accepted (out ++ outs) = accepted out ++ accepted outs := filterMap_append
      have hret : returned (out ++ outs) = returned out ++ returned outs := filterMap_append
      rw [hacc, hret, ← append_assoc, hpkts, append_assoc, hrest, append_assoc]

theorem geometry_create {memory : Option (Nat → UInt8)} {size : UInt64}
    (hcreate : ringBufferCreate memory size = some rb) : Geometry rb := by
  unfold ringBufferCreate at hcreate
  cases memory with
  | none => cases hcreate
  | some memory =>
    dsimp only at hcreate
    split at hcreate
    · cases hcreate
    rename_i htotal
    split at hcreate
    · cases hcreate
    rename_i hdata
    cases hcreate
    rw [not_or, not_not] at hdata
    obtain ⟨hmin, hpow⟩ := hdata
    have hmax : ¬ size > ringHeaderSize + maxDataSize := fun h => htotal (.inr h)
    have hlow : ¬ size < ringHeaderSize + minDataSize := fun h => htotal (.inl h)
    have hmaxNat : (ringHeaderSize + maxDataSize).toNat = 2 ^ 62 + 128 := rfl
    have hlowNat : (ringHeaderSize + minDataSize).toNat = 136 := rfl
    have hheader : ringHeaderSize.toNat = 128 := rfl
    rw [gt_iff_lt, UInt64.lt_iff_toNat_lt, hmaxNat] at hmax
    rw [UInt64.lt_iff_toNat_lt, hlowNat] at hlow
    have hsub : (size - ringHeaderSize).toNat = size.toNat - 128 := by
      rw [UInt64.toNat_sub_of_le, hheader]
      rw [UInt64.le_iff_toNat_le, hheader]
      omega
    refine ⟨?_, rfl, ?_⟩
    · dsimp only
      generalize size - ringHeaderSize = n at *
      have hone : (1 : UInt64).toNat = 1 := rfl
      have hpred : (n - 1).toNat = n.toNat - 1 := by
        rw [UInt64.toNat_sub_of_le, hone]
        rw [UInt64.le_iff_toNat_le, hone]
        omega
      have hand := congrArg UInt64.toNat hpow
      rw [UInt64.toNat_and, hpred] at hand
      obtain ⟨k, hk⟩ := exists_pow_of_and_pred (by omega) hand
      refine ⟨k, ?_, ?_, hk⟩
      · by_contra hlt
        have hle : 2 ^ k ≤ 2 ^ 2 := Nat.pow_le_pow_right (by decide) (by omega)
        omega
      · by_contra hgt
        have hle : 2 ^ 63 ≤ 2 ^ k := Nat.pow_le_pow_right (by decide) (by omega)
        omega
    · intro q hq
      exact ⟨memory q, if_pos hq⟩

/-- A new ring without contexts; the cursors may start anywhere. -/
theorem ringInv_init {memory : Option (Nat → UInt8)} {size cursor : UInt64}
    (hcreate : ringBufferCreate memory size = some rb) (hcursor : cursor.toNat % 4 = 0) :
    RingInv (RingState.init { rb with head := cursor, tail := cursor }) [] := by
  have hg := geometry_create hcreate
  have hcursor' : cursor = UInt64.ofNat cursor.toNat := UInt64.ofNat_toNat.symm
  refine ⟨cursor.toNat, ?_, trivial, trivial⟩
  exact { hg with
    tail_eq := hcursor'
    head_eq := hcursor'
    aligned := Nat.dvd_of_mod_eq_zero hcursor
    span_le := Nat.zero_le _
    stored := trivial
    fits := by simp }

/-- In every run from an empty ring, the packets that are returned, followed by the packets that are
in the ring, are the packets that were accepted. A call that fails changes nothing in the ring. -/
theorem ring_fifo {memory : Option (Nat → UInt8)} {size : UInt64}
    (hcreate : ringBufferCreate memory size = some rb) {cursor : UInt64}
    (hcursor : cursor.toNat % 4 = 0) (es : List RingEvent) :
    ∃ s outs pending T, (RingState.init { rb with head := cursor, tail := cursor }).run es =
        some (s, outs) ∧
      Contains s.ring T pending ∧ accepted outs = returned outs ++ pending ∧
      ∀ e s' out, s.step e = some (s', out) → (∃ o ∈ out, o.Failed) → s'.ring = s.ring := by
  obtain ⟨s, outs, pending, hrun, hfifo, hs⟩ := ringRun_does (ringInv_init hcreate hcursor) es
  obtain ⟨T, hc, -⟩ := id hs
  refine ⟨s, outs, pending, T, hrun, hc, hfifo, fun e s' out hstep hfailed => ?_⟩
  obtain ⟨r, hstep', -, hsame⟩ := ringStep_does hs e
  obtain rfl : (s', out) = r := Option.some_inj.mp (hstep.symm.trans hstep')
  exact hsame hfailed

end

/-- Two packets go through a ring of 16 bytes whose cursors are about to wrap around. The first read
has a buffer that is too short, and the first attempt to write the second packet finds no space. -/
def wrappingCalls : List RingEvent :=
  [.newProducer true, .producer, .producer, .newConsumer true, .consumer, .consumer,
    .writePacket [1, 2, 3, 4, 5], .producer, .producer, .producer, .producer, .producer, .producer,
    .producer, .readPacket [0, 0] true, .consumer, .consumer, .writePacket [6], .producer,
    .readPacket [0, 0, 0, 0, 0] true, .consumer, .consumer, .consumer, .consumer, .consumer,
    .consumer, .consumer, .writePacket [6], .producer, .producer, .producer, .producer]

/-- The ring of 16 bytes. -/
def smallRing : RingBuffer :=
  (ringBufferCreate (some fun _ => 0) 144).get (by decide +kernel)

theorem ring_fifo_wrappingCalls :
    ((RingState.init { smallRing with head := 0xfffffffffffffff8, tail := 0xfffffffffffffff8 }).run
      wrappingCalls).map (fun r => (accepted r.2, returned r.2)) =
        some ([[1, 2, 3, 4, 5], [6]], [[1, 2, 3, 4, 5]]) ∧
    ∃ s outs pending T, (RingState.init { smallRing with
          head := 0xfffffffffffffff8, tail := 0xfffffffffffffff8 }).run wrappingCalls =
        some (s, outs) ∧
      Contains s.ring T pending ∧ accepted outs = returned outs ++ pending ∧
      ∀ e s' out, s.step e = some (s', out) → (∃ o ∈ out, o.Failed) → s'.ring = s.ring :=
  ⟨by decide +kernel, ring_fifo (Option.some_get _).symm (by decide) wrappingCalls⟩

end Halo
