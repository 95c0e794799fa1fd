import Halo.Protocol.NatRewrite

/-!
# Translation and Ethernet padding

The Ethernet layer passes padding on, and a translation sums all of the buffer, not only the bytes
that the total length of the packet covers. So the padding gets into the checksum.

* `AgreeTo n p q`: the strings agree on the first `n` bytes; what the operations keep of it.
* `wordSum_payloadData`: the sum of a payload is that of the packet and that of its padding.
* `SameCoverage`: two buffers with the same packet whose padding has the same effect.
* `natChange_padding_iff`: exactly then translations of the two agree on the packet.
-/

namespace Halo

/-! ## Agreement on a first part -/

/-- The strings have the same first `n` bytes. -/
structure AgreeTo (n : Nat) (p q : Bytes) : Prop where
  left : n ≤ p.length
  right : n ≤ q.length
  byteAt_eq : ∀ j < n, byteAt p j = byteAt q j

namespace AgreeTo

variable {n m : Nat} {p q : Bytes}

theorem symm (h : AgreeTo n p q) : AgreeTo n q p :=
  ⟨h.right, h.left, fun j hj => (h.byteAt_eq j hj).symm⟩

theorem take_eq (h : AgreeTo n p q) (hm : m ≤ n) : p.take m = q.take m := by
  obtain ⟨hleft, hright, hbyte⟩ := h
  have hlen : (p.take m).length = (q.take m).length := by
    rw [List.length_take, List.length_take]
    omega
  apply ext_byteAt hlen
  intro j hj
  rw [List.length_take] at hj
  rw [byteAt_take (by omega), byteAt_take (by omega)]
  exact hbyte j (by omega)

theorem of_take_eq (hleft : n ≤ p.length) (h : p.take n = q.take n) : AgreeTo n p q := by
  have hlen := congrArg List.length h
  rw [List.length_take, List.length_take] at hlen
  refine ⟨hleft, by omega, fun j hj => ?_⟩
  rw [← byteAt_take hj, h, byteAt_take hj]

theorem wordAt_eq (h : AgreeTo n p q) {i : Nat} (hi : i + 1 < n) : wordAt p i = wordAt q i := by
  unfold wordAt
  rw [h.byteAt_eq i (by omega), h.byteAt_eq (i + 1) hi]

theorem set (h : AgreeTo n p q) (i : Nat) (v : UInt8) : AgreeTo n (p.set i v) (q.set i v) := by
  obtain ⟨hleft, hright, hbyte⟩ := h
  refine ⟨by simpa using hleft, by simpa using hright, fun j hj => ?_⟩
  by_cases hij : i = j
  · subst hij
    rw [byteAt_set_self (by omega), byteAt_set_self (by omega)]
  · rw [byteAt_set_ne hij, byteAt_set_ne hij]
    exact hbyte j hj

theorem setWord (h : AgreeTo n p q) (i : Nat) (w : UInt16) :
    AgreeTo n (setWord p i w) (setWord q i w) :=
  (h.set i _).set (i + 1) _

theorem setAddr (h : AgreeTo n p q) (i : Nat) (ipAddr : Ipv4Addr) :
    AgreeTo n (setAddr p i ipAddr) (setAddr q i ipAddr) :=
  (((h.set i _).set (i + 1) _).set (i + 2) _).set (i + 3) _

/-- A write behind the first part. -/
theorem setWord_left (h : AgreeTo n p q) {i : Nat} (hi : n ≤ i) (w : UInt16) :
    AgreeTo n (Halo.setWord p i w) q := by
  refine ⟨by simpa using h.left, h.right, fun j hj => ?_⟩
  rw [byteAt_setWord_ne (by omega) (by omega)]
  exact h.byteAt_eq j hj

/-- The header checksum reads the header only. -/
theorem reCalcIpv4CheckSum (h : AgreeTo n p q) (hn : 20 ≤ n) :
    AgreeTo n (reCalcIpv4CheckSum true p) (reCalcIpv4CheckSum true q) := by
  have hp := h.left
  have hq := h.right
  unfold Halo.reCalcIpv4CheckSum
  rw [if_neg (by omega), if_neg (by decide), if_neg (by omega), if_neg (by decide),
    (h.setWord 10 0).take_eq hn]
  exact (h.setWord 10 0).setWord 10 _

end AgreeTo

/-! ## The sum of a payload -/

/-- What the checksum of the payload covers; the ICMP checksum has no pseudo header. -/
def payloadData (proto : UInt8) (pkt : Bytes) : Bytes :=
  if proto = iphProtoIcmp then pkt.drop 20
  else (pkt.take 20).drop 12 ++ [0x00, proto] ++ be16 (wordAt pkt 2 - 20) ++ pkt.drop 20

theorem reCalcPayloadCheckSum_eq {proto : UInt8} {pkt : Bytes}
    (hproto : proto = iphProtoIcmp ∨ proto = iphProtoTcp ∨ proto = iphProtoUdp) :
    reCalcPayloadCheckSum true proto pkt =
      if pkt.length < sumIndex proto + 2 then pkt
      else setWord pkt (sumIndex proto)
        (getCheckSum (payloadData proto (setWord pkt (sumIndex proto) 0))) := by
  unfold reCalcPayloadCheckSum sumIndex payloadData
  rcases hproto with rfl | rfl | rfl
  · simp [reCalcIcmpCheckSum, setWord_setWord]
  · simp [iphProtoTcp, iphProtoIcmp, reCalcTcpCheckSum, reCalcTransportCheckSum, setWord_setWord]
  · simp [iphProtoUdp, iphProtoTcp, iphProtoIcmp, reCalcUdpCheckSum, reCalcTransportCheckSum,
      setWord_setWord]

/-- The sum of the bytes from the index `k` on, at their places. -/
def sumFrom (k : Nat) (pkt : Bytes) : Nat := wordSum (List.replicate k 0 ++ pkt.drop k)

/-- Zeros in front of a string are no part of its sum, if they fill words. -/
theorem wordSum_zeros_append {k : Nat} (heven : k % 2 = 0) (p : Bytes) :
    wordSum (List.replicate k 0 ++ p) = wordSum p := by
  have hzero :=
    (wordSum_eq_zero_iff (List.replicate k 0)).mpr fun b hb => List.eq_of_mem_replicate hb
  rw [wordSum_append _ _ (by simpa using heven), hzero, Nat.zero_add]

/-- With the same header, the sums differ as those of the bytes behind it. -/
theorem wordSum_payloadData_congr (proto : UInt8) {p q : Bytes} (hp : 20 ≤ p.length)
    (h : q.take 20 = p.take 20) :
    wordSum (payloadData proto q) + wordSum (p.drop 20) =
      wordSum (payloadData proto p) + wordSum (q.drop 20) := by
  unfold payloadData
  split
  · exact Nat.add_comm _ _
  · have hhead : ((p.take 20).drop 12 ++ [0x00, proto] ++ be16 (wordAt p 2 - 20)).length % 2 =
        0 := by
      simp [be16, hp]
    rw [h, wordAt_congr h (by omega), wordSum_append _ _ hhead, wordSum_append _ _ hhead]
    omega

/-- The sum of a payload in two parts. -/
theorem wordSum_payloadData {proto : UInt8} {pkt : Bytes} {k : Nat} (hk : 20 ≤ k)
    (hlen : k ≤ pkt.length) :
    wordSum (payloadData proto pkt) = wordSum (payloadData proto (pkt.take k)) + sumFrom k pkt := by
  obtain ⟨m, rfl⟩ : ∃ m, k = 20 + m := ⟨k - 20, by omega⟩
  have hdrop : wordSum (pkt.drop 20) =
      wordSum ((pkt.take (20 + m)).drop 20) + sumFrom (20 + m) pkt := by
    rw [wordSum_take_add (pkt.drop 20) m, List.drop_take, Nat.add_sub_cancel_left, List.drop_drop,
      sumFrom, List.replicate_add, List.append_assoc, wordSum_zeros_append (k := 20) rfl]
  have hsum := wordSum_payloadData_congr proto (p := pkt) (q := pkt.take (20 + m)) (by omega)
    (by rw [List.take_take, min_eq_left hk])
  omega

/-- A write of a word of the payload. -/
theorem wordSum_payloadData_setWord (proto : UInt8) (pkt : Bytes) {i : Nat} (w : UInt16)
    (hi : 20 ≤ i) (heven : i % 2 = 0) (hlen : i + 1 < pkt.length) :
    wordSum (payloadData proto (setWord pkt i w)) + (wordAt pkt i).toNat =
      wordSum (payloadData proto pkt) + w.toNat := by
  obtain ⟨m, rfl⟩ : ∃ m, i = 20 + m := ⟨i - 20, by omega⟩
  have hdrop := wordSum_setWord (pkt.drop 20) m w (by omega) (by rw [List.length_drop]; omega)
  have hsum := wordSum_payloadData_congr proto (p := pkt) (q := setWord pkt (20 + m) w) (by omega)
    (take_setWord_of_le hi)
  rw [wordAt_drop] at hdrop
  rw [drop_setWord] at hsum
  omega

/-! ## Two buffers with the same packet -/

/-- Two buffers with the same packet and maybe different padding. -/
structure SamePacket (p q : Bytes) : Prop where
  left : Ipv4Header p
  right : Ipv4Header q
  agree : AgreeTo (wordAt p 2).toNat p q

/-- The packet that a translation writes before the checksum of its payload. -/
def natWritten (addrIndex portIndex : Nat) (pkt : Bytes) (ipAddr : Ipv4Addr)
    (port : UInt16) : Bytes :=
  setWord (reCalcIpv4CheckSum true (setAddr pkt addrIndex ipAddr))
    (natPortIndex (byteAt pkt 9) portIndex) port

/-- The packet that is summed. -/
def zeroed (addrIndex portIndex : Nat) (pkt : Bytes) (ipAddr : Ipv4Addr) (port : UInt16) : Bytes :=
  setWord (natWritten addrIndex portIndex pkt ipAddr port) (sumIndex (byteAt pkt 9)) 0

/-- The end of the part that a translation writes. -/
def writtenEnd (proto : UInt8) : Nat := if proto = iphProtoIcmp then 26 else sumIndex proto + 2

/-- The index from which on a byte of the buffer is neither in the packet nor written. -/
def paddingIndex (pkt : Bytes) : Nat := max (wordAt pkt 2).toNat (writtenEnd (byteAt pkt 9))

theorem writtenEnd_cases (proto : UInt8) (portIndex : Nat) :
    natPortIndex proto portIndex = 24 ∧ sumIndex proto = 22 ∧ writtenEnd proto = 26 ∨
      natPortIndex proto portIndex = portIndex ∧
        (sumIndex proto = 36 ∧ writtenEnd proto = 38 ∨
          sumIndex proto = 26 ∧ writtenEnd proto = 28) := by
  unfold natPortIndex sumIndex writtenEnd sumIndex
  by_cases hicmp : proto = iphProtoIcmp
  · exact .inl ⟨if_pos hicmp, if_pos hicmp, if_pos hicmp⟩
  · simp only [if_neg hicmp]
    by_cases htcp : proto = iphProtoTcp
    · simp [htcp]
    · simp [htcp]

namespace SamePacket

variable {p q : Bytes}

theorem total_eq (h : SamePacket p q) : wordAt q 2 = wordAt p 2 :=
  (h.agree.wordAt_eq (Nat.lt_of_lt_of_le (by omega) h.left.total_ge)).symm

theorem proto_eq (h : SamePacket p q) : byteAt q 9 = byteAt p 9 :=
  (h.agree.byteAt_eq 9 (Nat.lt_of_lt_of_le (by omega) h.left.total_ge)).symm

theorem symm (h : SamePacket p q) : SamePacket q p :=
  ⟨h.right, h.left, by rw [h.total_eq]; exact h.agree.symm⟩

theorem paddingIndex_eq (h : SamePacket p q) : paddingIndex q = paddingIndex p := by
  unfold paddingIndex
  rw [h.total_eq, h.proto_eq]

end SamePacket

section

variable {addrIndex portIndex : Nat} {p q : Bytes} (ipAddr : Ipv4Addr) (port : UInt16)

@[simp] theorem length_natWritten :
    (natWritten addrIndex portIndex p ipAddr port).length = p.length := by
  rw [natWritten, length_setWord, (reCalcIpv4CheckSum_agreeOff _ _).length_eq, length_setAddr]

theorem length_natChange (haddr : 12 ≤ addrIndex) (hp : Ipv4Header p) :
    (natChange addrIndex portIndex true p ipAddr port).length = p.length := by
  by_cases hlen : 26 ≤ p.length
  · exact (natChange_agreeOff portIndex true ipAddr port hlen haddr hp.proto).length_eq
  · rw [natChange, if_pos (by omega)]

@[simp] theorem length_zeroed : (zeroed addrIndex portIndex p ipAddr port).length = p.length := by
  rw [zeroed, length_setWord, length_natWritten]

/-- A translation as a write of the checksum. -/
theorem natChange_eq_setWord (portIndex : Nat) (hp : Ipv4Header p) (hlen : 26 ≤ p.length)
    (haddr : 12 ≤ addrIndex) :
    natChange addrIndex portIndex true p ipAddr port =
      if p.length < sumIndex (byteAt p 9) + 2 then natWritten addrIndex portIndex p ipAddr port
      else setWord (natWritten addrIndex portIndex p ipAddr port) (sumIndex (byteAt p 9))
        (getCheckSum (payloadData (byteAt p 9) (zeroed addrIndex portIndex p ipAddr port))) := by
  rw [natChange_eq portIndex true ipAddr port hlen haddr hp.proto,
    reCalcPayloadCheckSum_eq hp.proto, ← natWritten, length_natWritten, zeroed]

/-- Behind the header, only the port is written. -/
theorem byteAt_natWritten (haddr' : addrIndex ≤ 16) (hport : portIndex ≤ 22) (hp : 26 ≤ p.length)
    {j : Nat} (hj : 20 ≤ j) : byteAt (natWritten addrIndex portIndex p ipAddr port) j =
      if j = natPortIndex (byteAt p 9) portIndex then (port >>> 8).toUInt8
      else if j = natPortIndex (byteAt p 9) portIndex + 1 then port.toUInt8 else byteAt p j := by
  have hcases := writtenEnd_cases (byteAt p 9) portIndex
  have hheader := (AgreeOff.setAddr p addrIndex ipAddr).trans (reCalcIpv4CheckSum_agreeOff true _)
  rw [natWritten, byteAt_setWord (by rw [hheader.length_eq]; omega), hheader.byteAt_eq j]
  simp only [Set.mem_union, Set.mem_insert_iff, Set.mem_singleton_iff, Set.mem_Ico]
  omega

theorem natWritten_agreeTo (addrIndex portIndex : Nat) (ipAddr : Ipv4Addr) (port : UInt16)
    (h : SamePacket p q) :
    AgreeTo (wordAt p 2).toNat (natWritten addrIndex portIndex p ipAddr port)
      (natWritten addrIndex portIndex q ipAddr port) := by
  unfold natWritten
  rw [h.proto_eq]
  exact ((h.agree.setAddr addrIndex ipAddr).reCalcIpv4CheckSum h.left.total_ge).setWord _ port

section

variable (addrIndex portIndex) (haddr' : addrIndex ≤ 16) (hport : portIndex ≤ 22)
  (h : SamePacket p q)
  (hp : 26 ≤ p.length) (hq : 26 ≤ q.length) (hsum : sumIndex (byteAt p 9) < (wordAt p 2).toNat)
  (hp' : sumIndex (byteAt p 9) + 2 ≤ p.length) (hq' : sumIndex (byteAt p 9) + 2 ≤ q.length)

include haddr' hport h hp hq hsum hp' hq'

/-- With the checksum zeroed, the buffers agree up to their padding: between the end of the packet
and the padding are only bytes that are written. -/
theorem zeroed_agreeTo : AgreeTo (paddingIndex p) (zeroed addrIndex portIndex p ipAddr port)
    (zeroed addrIndex portIndex q ipAddr port) := by
  have hcases := writtenEnd_cases (byteAt p 9) portIndex
  have hleft := h.agree.left
  have hright := h.agree.right
  have hge := h.left.total_ge
  refine ⟨by rw [length_zeroed, paddingIndex]; omega, by rw [length_zeroed, paddingIndex]; omega,
    fun j hj => ?_⟩
  rw [paddingIndex] at hj
  unfold zeroed
  rw [h.proto_eq]
  by_cases hj' : j < 20
  · have hwritten := natWritten_agreeTo addrIndex portIndex ipAddr port h
    exact (hwritten.setWord _ 0).byteAt_eq j (by omega)
  · have hj' : 20 ≤ j := by omega
    rw [byteAt_setWord (by rw [length_natWritten]; omega),
      byteAt_setWord (by rw [length_natWritten]; omega),
        byteAt_natWritten ipAddr port haddr' hport hp hj',
      byteAt_natWritten ipAddr port haddr' hport hq hj', h.proto_eq]
    split_ifs <;> first | rfl | exact h.agree.byteAt_eq j (by omega)

/-- The sum of the packet that is not padding, for the port zero. -/
def packetSum (addrIndex portIndex : Nat) (pkt : Bytes) (ipAddr : Ipv4Addr) : Nat :=
  wordSum (payloadData (byteAt pkt 9)
    ((setWord (natWritten addrIndex portIndex pkt ipAddr 0) (sumIndex (byteAt pkt 9)) 0).take
      (paddingIndex pkt)))

theorem packetSum_congr :
    packetSum addrIndex portIndex q ipAddr = packetSum addrIndex portIndex p ipAddr := by
  have hzeroed := zeroed_agreeTo addrIndex portIndex ipAddr 0 haddr' hport h hp hq hsum hp' hq'
  unfold packetSum
  rw [← zeroed, ← zeroed, h.proto_eq, h.paddingIndex_eq, hzeroed.take_eq le_rfl]

end

/-- The checksum that a translation sets. -/
theorem natChange_wordAt_sum (hheader : Ipv4Header p) (hlen : 26 ≤ p.length)
    (haddr : 12 ≤ addrIndex) (haddr' : addrIndex ≤ 16) (hport : portIndex = 20 ∨ portIndex = 22)
    (hlen' : sumIndex (byteAt p 9) + 2 ≤ p.length) :
    (wordAt (natChange addrIndex portIndex true p ipAddr port) (sumIndex (byteAt p 9))).toNat =
      65535 - onesNorm (packetSum addrIndex portIndex p ipAddr + port.toNat +
        sumFrom (paddingIndex p) p) := by
  have hcases := writtenEnd_cases (byteAt p 9) portIndex
  have htotal := hheader.total_le
  have htotal' := hheader.total_ge
  have hle := hheader.length_le
  have hk : 26 ≤ paddingIndex p ∧ paddingIndex p ≤ p.length ∧
      sumIndex (byteAt p 9) + 2 ≤ paddingIndex p ∧
      natPortIndex (byteAt p 9) portIndex + 2 ≤ paddingIndex p := by
    unfold paddingIndex
    omega
  -- the port is one more word of the sum
  have hvisible : wordSum (payloadData (byteAt p 9)
      ((zeroed addrIndex portIndex p ipAddr port).take (paddingIndex p))) =
        packetSum addrIndex portIndex p ipAddr + port.toNat := by
    have hzport : zeroed addrIndex portIndex p ipAddr port =
      setWord (zeroed addrIndex portIndex p ipAddr 0)
        (natPortIndex (byteAt p 9) portIndex) port := by
      rw [zeroed, zeroed, setWord_comm (by omega), natWritten, natWritten, setWord_setWord]
    have hsum := wordSum_payloadData_setWord (byteAt p 9)
      ((zeroed addrIndex portIndex p ipAddr 0).take (paddingIndex p))
      (i := natPortIndex (byteAt p 9) portIndex) port (by omega) (by omega)
      (by rw [List.length_take, length_zeroed]; omega)
    have hzero : wordAt ((zeroed addrIndex portIndex p ipAddr 0).take (paddingIndex p))
        (natPortIndex (byteAt p 9) portIndex) = 0 := by
      rw [wordAt_take (by omega), zeroed, natWritten, setWord_comm (by omega), wordAt_setWord_self]
      rw [length_setWord, (reCalcIpv4CheckSum_agreeOff _ _).length_eq, length_setAddr]
      omega
    rw [hzero, UInt16.toNat_zero, Nat.add_zero, ← take_setWord, ← hzport] at hsum
    exact hsum
  -- the padding is not written
  have hpadding : (zeroed addrIndex portIndex p ipAddr port).drop (paddingIndex p) =
      p.drop (paddingIndex p) := by
    apply ext_byteAt (by simp)
    intro j _
    rw [byteAt_drop, byteAt_drop, zeroed, byteAt_setWord_ne (by omega) (by omega),
      byteAt_natWritten ipAddr port haddr' (by omega) hlen (by omega), if_neg (by omega),
        if_neg (by omega)]
  have hdatalen : (payloadData (byteAt p 9) (zeroed addrIndex portIndex p ipAddr port)).length ≤
      131072 := by
    unfold payloadData
    split <;> simp [be16] <;> omega
  rw [natChange_eq_setWord ipAddr port portIndex hheader hlen haddr, if_neg (by omega),
    wordAt_setWord_self (by rw [length_natWritten]; omega), getCheckSum_toNat hdatalen,
    wordSum_payloadData (k := paddingIndex p) (by omega) (by simp; omega), hvisible,
      sumFrom, hpadding,
    sumFrom]

end

/-! ## When padding has no effect -/

/-- All bytes of an ICMP message but the checksum and the identifier are zero. -/
def BlankMessage (pkt : Bytes) : Prop :=
  byteAt pkt 9 = iphProtoIcmp ∧
    ∀ j, 20 ≤ j → j < (wordAt pkt 2).toNat → (j < 22 ∨ 26 ≤ j) → byteAt pkt j = 0

/-- The padding of two buffers with the same packet has the same effect on a translation. -/
structure SameCoverage (p q : Bytes) : Prop where
  /-- Both buffers are long enough for a translation, or none is. -/
  length_iff : 26 ≤ p.length ↔ 26 ≤ q.length
  /-- Where the checksum begins in the packet, both buffers are long enough for it, or none is. -/
  sum_iff : 26 ≤ p.length → sumIndex (byteAt p 9) < (wordAt p 2).toNat →
    (sumIndex (byteAt p 9) + 2 ≤ p.length ↔ sumIndex (byteAt p 9) + 2 ≤ q.length)
  /-- Where it is computed, the sums of the padding differ by a multiple of `65535`. -/
  padding_eq : 26 ≤ p.length → sumIndex (byteAt p 9) < (wordAt p 2).toNat →
    sumIndex (byteAt p 9) + 2 ≤ p.length →
    sumFrom (paddingIndex p) p % 65535 = sumFrom (paddingIndex p) q % 65535
  /-- A sum that is zero otherwise tells a zero padding from another. -/
  blank_iff : 26 ≤ p.length → sumIndex (byteAt p 9) < (wordAt p 2).toNat → BlankMessage p →
    (sumFrom (paddingIndex p) p = 0 ↔ sumFrom (paddingIndex p) q = 0)

section

variable {addrIndex portIndex : Nat} {p q : Bytes} (ipAddr : Ipv4Addr) (port : UInt16)

/-- The part of the sum that is not padding is zero for blank messages only. -/
theorem packetSum_eq_zero_iff (portIndex : Nat) (hheader : Ipv4Header p) (hlen : 26 ≤ p.length)
    (haddr' : addrIndex ≤ 16) (hport : portIndex ≤ 22)
    (hsum : sumIndex (byteAt p 9) < (wordAt p 2).toNat) :
    packetSum addrIndex portIndex p ipAddr = 0 ↔ BlankMessage p := by
  have hcases := writtenEnd_cases (byteAt p 9) portIndex
  have htotal := hheader.total_le
  unfold packetSum BlankMessage
  by_cases hicmp : byteAt p 9 = iphProtoIcmp
  · have hindex : sumIndex (byteAt p 9) = 22 := if_pos hicmp
    have hindex' : natPortIndex (byteAt p 9) portIndex = 24 := if_pos hicmp
    have hk : paddingIndex p = max (wordAt p 2).toNat 26 := by
      rw [paddingIndex, writtenEnd, if_pos hicmp]
    -- the checksum and the identifier are zero, and the other bytes are those of the packet
    have hbyte : ∀ j, 20 ≤ j → byteAt (setWord (natWritten addrIndex portIndex p ipAddr 0)
        (sumIndex (byteAt p 9)) 0) j = if 22 ≤ j ∧ j < 26 then 0 else byteAt p j := by
      intro j hj
      rw [byteAt_setWord (by rw [length_natWritten]; omega),
        byteAt_natWritten ipAddr 0 haddr' hport hlen hj]
      split_ifs <;> first | rfl | omega
    rw [payloadData, if_pos hicmp, wordSum_eq_zero_iff, forall_mem_iff_byteAt (· = 0),
      List.length_drop, List.length_take, length_setWord, length_natWritten]
    constructor
    · intro h
      refine ⟨hicmp, fun j hj hjT hj' => ?_⟩
      have := h (j - 20) (by omega)
      rwa [byteAt_drop, Nat.add_sub_cancel' hj, byteAt_take (by omega), hbyte j hj,
        if_neg (by omega)] at this
    · rintro ⟨-, h⟩ j hj
      rw [byteAt_drop, byteAt_take (by omega), hbyte _ (by omega)]
      split_ifs
      · rfl
      · exact h _ (by omega) (by omega) (by omega)
  · -- the pseudo header has the protocol
    refine iff_of_false (fun h => ?_) fun h => hicmp h.1
    rw [payloadData, if_neg hicmp, wordSum_eq_zero_iff] at h
    have hzero := h (byteAt p 9) (by simp)
    rcases hheader.proto with hproto | hproto | hproto <;> rw [hproto] at hzero <;>
      revert hzero <;> decide

/-- Where the padding has the same effect, translations agree on the packet. -/
theorem natChange_agreeTo (h : SamePacket p q) (hcover : SameCoverage p q)
    (haddr : 12 ≤ addrIndex) (haddr' : addrIndex ≤ 16) (hport : portIndex = 20 ∨ portIndex = 22) :
    AgreeTo (wordAt p 2).toNat (natChange addrIndex portIndex true p ipAddr port)
      (natChange addrIndex portIndex true q ipAddr port) := by
  by_cases hp : 26 ≤ p.length
  swap
  · rw [natChange, if_pos (by omega), natChange, if_pos (by have := hcover.length_iff; omega)]
    exact h.agree
  have hq := hcover.length_iff.mp hp
  have hwritten := natWritten_agreeTo addrIndex portIndex ipAddr port h
  have hpEq := natChange_eq_setWord ipAddr port portIndex h.left hp haddr
  have hqEq := natChange_eq_setWord ipAddr port portIndex h.right hq haddr
  rw [h.proto_eq] at hqEq
  -- a checksum behind the packet is not seen
  by_cases hsum : sumIndex (byteAt p 9) < (wordAt p 2).toNat
  swap
  · rw [hpEq, hqEq]
    split_ifs
    · exact hwritten
    · exact (hwritten.symm.setWord_left (by omega) _).symm
    · exact hwritten.setWord_left (by omega) _
    · exact ((hwritten.setWord_left (by omega) _).symm.setWord_left (by omega) _).symm
  by_cases hplen : sumIndex (byteAt p 9) + 2 ≤ p.length
  swap
  · have hqlen := (not_congr (hcover.sum_iff hp hsum)).mp hplen
    rw [hpEq, hqEq, if_pos (by omega), if_pos (by omega)]
    exact hwritten
  have hqlen := (hcover.sum_iff hp hsum).mp hplen
  -- the same checksum is written
  have hchecksum : (wordAt (natChange addrIndex portIndex true p ipAddr port)
      (sumIndex (byteAt p 9))) = wordAt (natChange addrIndex portIndex true q ipAddr port)
      (sumIndex (byteAt p 9)) := by
    have hpSum := natChange_wordAt_sum ipAddr port h.left hp haddr haddr' hport hplen
    have hqSum := natChange_wordAt_sum ipAddr port h.right hq haddr haddr' hport
      (by rw [h.proto_eq]; exact hqlen)
    have hpacket :=
      packetSum_congr addrIndex portIndex ipAddr haddr' (by omega) h hp hq hsum hplen hqlen
    rw [h.proto_eq, h.paddingIndex_eq, hpacket] at hqSum
    rw [← UInt16.toNat_inj, hpSum, hqSum]
    congr 1
    have hzero := packetSum_eq_zero_iff ipAddr portIndex h.left hp haddr' (by omega) hsum
    have hblank := hcover.blank_iff hp hsum
    have hpadding := hcover.padding_eq hp hsum hplen
    rw [onesNorm_eq_iff]
    refine ⟨by omega, ?_⟩
    by_cases hpacketZero : packetSum addrIndex portIndex p ipAddr = 0
    · have := hblank (hzero.mp hpacketZero)
      omega
    · omega
  rw [if_neg (by omega)] at hpEq hqEq
  rw [hpEq, hqEq, wordAt_setWord_self (by rw [length_natWritten]; omega),
    wordAt_setWord_self (by rw [length_natWritten]; omega)] at hchecksum
  rw [hpEq, hqEq, hchecksum]
  exact hwritten.setWord _ _

end

/-! ## When padding has an effect -/

section

variable {p q : Bytes}

theorem byteAt_toNat_eq_wordAt (p : Bytes) (i : Nat) :
    (byteAt p i).toNat = (wordAt p i).toNat / 256 := by
  have hlow := (byteAt p (i + 1)).toNat_lt
  rw [wordAt, ofBe16_toNat]
  omega

/-- The high byte of the checksum that `NatChangeSrc` sets. -/
theorem natChangeSrc_highByte (ipAddr : Ipv4Addr) (port : UInt16) (hheader : Ipv4Header p)
    (hlen : 26 ≤ p.length) (hlen' : sumIndex (byteAt p 9) + 2 ≤ p.length) :
    (byteAt (natChangeSrc true p ipAddr port) (sumIndex (byteAt p 9))).toNat =
      (65535 - onesNorm (packetSum 12 20 p ipAddr + sumFrom (paddingIndex p) p + port.toNat)) /
        256 := by
  have hsum : (wordAt (natChange 12 20 true p ipAddr port) (sumIndex (byteAt p 9))).toNat = _ :=
    natChange_wordAt_sum ipAddr port hheader hlen (by omega) (by omega) (.inl rfl) hlen'
  rw [byteAt_toNat_eq_wordAt, natChangeSrc, hsum, Nat.add_right_comm]

section

variable (h : SamePacket p q) (hagree : ∀ ipAddr port, AgreeTo (wordAt p 2).toNat
  (natChangeSrc true p ipAddr port) (natChangeSrc true q ipAddr port))

include h hagree

/-- A buffer that is too short is not changed, but a longer one gets the address. -/
theorem length_of_agreeTo (hq : 26 ≤ q.length) : 26 ≤ p.length := by
  by_contra hp
  have htotal := h.left.total_ge
  have haddr : addrAt (natChange 12 20 true q #v[byteAt p 12 + 1, 0, 0, 0] 0) 12 = _ :=
    natChange_addrAt _ 0 true hq (Nat.le_refl 12) (by omega) (Nat.le_refl 20) h.right.proto
  have hget : byteAt (natChange 12 20 true q #v[byteAt p 12 + 1, 0, 0, 0] 0) 12 = byteAt p 12 + 1 :=
    congrArg (·[0]) haddr
  have hbyte := (hagree #v[byteAt p 12 + 1, 0, 0, 0] 0).byteAt_eq 12 (by omega)
  rw [natChangeSrc, hget, natChange, if_pos (by omega)] at hbyte
  simp at hbyte

variable (hp : 26 ≤ p.length) (hq : 26 ≤ q.length)
  (hsum : sumIndex (byteAt p 9) < (wordAt p 2).toNat) (hq' : sumIndex (byteAt p 9) + 2 ≤ q.length)

include hq hsum hq'

/-- The high byte of the checksum in the longer buffer. -/
theorem highByte_of_agreeTo (port : UInt16) :
    (byteAt (natChangeSrc true p 0 port) (sumIndex (byteAt p 9))).toNat =
      (65535 - onesNorm (packetSum 12 20 q 0 + sumFrom (paddingIndex p) q + port.toNat)) / 256 := by
  have hbyte := natChangeSrc_highByte 0 port h.right hq (by rw [h.proto_eq]; exact hq')
  rw [h.proto_eq, h.paddingIndex_eq, ← (hagree 0 port).byteAt_eq _ hsum] at hbyte
  exact hbyte

include hp

/-- Where the checksum is only partly in the packet, a buffer without padding keeps its byte, but
the one of a longer buffer depends on the port. -/
theorem sum_of_agreeTo : sumIndex (byteAt p 9) + 2 ≤ p.length := by
  by_contra hp'
  have hcases := writtenEnd_cases (byteAt p 9) 20
  have hkeep : ∀ port, byteAt (natChangeSrc true p 0 port) (sumIndex (byteAt p 9)) =
      byteAt p (sumIndex (byteAt p 9)) := by
    intro port
    rw [natChangeSrc, natChange_eq_setWord 0 port 20 h.left hp (Nat.le_refl 12),
      if_pos (by omega), byteAt_natWritten 0 port (by omega) (by omega) hp (by omega),
      if_neg (by omega), if_neg (by omega)]
  have hhigh : ∀ port : UInt16, (byteAt p (sumIndex (byteAt p 9))).toNat =
      (65535 - onesNorm (packetSum 12 20 q 0 + sumFrom (paddingIndex p) q + port.toNat)) / 256 := by
    intro port
    rw [← highByte_of_agreeTo h hagree hq hsum hq', hkeep]
  obtain ⟨port, hport⟩ := exists_onesNorm_add
    (packetSum 12 20 q 0 + sumFrom (paddingIndex p) q) (r := 1) (by omega) (by omega)
  obtain ⟨port', hport'⟩ := exists_onesNorm_add
    (packetSum 12 20 q 0 + sumFrom (paddingIndex p) q) (r := 65535) (by omega) (by omega)
  have h₁ := hhigh port
  have h₂ := hhigh port'
  omega

/-- Sums of padding that differ give different high bytes for some port. -/
theorem padding_of_agreeTo (hp' : sumIndex (byteAt p 9) + 2 ≤ p.length) :
    sumFrom (paddingIndex p) p % 65535 = sumFrom (paddingIndex p) q % 65535 ∧
      (BlankMessage p → (sumFrom (paddingIndex p) p = 0 ↔ sumFrom (paddingIndex p) q = 0)) := by
  set v := packetSum 12 20 p 0 with hv
  set x := sumFrom (paddingIndex p) p with hx
  set y := sumFrom (paddingIndex p) q with hy
  have hhigh : ∀ port : UInt16, (65535 - onesNorm (v + x + port.toNat)) / 256 =
      (65535 - onesNorm (v + y + port.toNat)) / 256 := by
    intro port
    have hbyte := highByte_of_agreeTo h hagree hq hsum hq' port
    rw [packetSum_congr 12 20 0 (by omega) (by omega) h hp hq hsum hp' hq'] at hbyte
    rw [← natChangeSrc_highByte 0 port h.left hp hp', hbyte]
  have hnorm : ∀ n, (0 < n → (onesNorm n % 65535 = n % 65535 ∧ 0 < onesNorm n)) ∧
      onesNorm n ≤ 65535 := by
    intro n
    unfold onesNorm
    split <;> omega
  have hcong : x % 65535 = y % 65535 := by
    by_contra hne
    -- one of the checksums is made zero, and the other has the difference
    obtain ⟨port, hport⟩ := exists_onesNorm_add (v + x) (r := 65535) (by omega) (by omega)
    obtain ⟨port', hport'⟩ := exists_onesNorm_add (v + y) (r := 65535) (by omega) (by omega)
    have h₁ := hhigh port
    have h₂ := hhigh port'
    rw [hport] at h₁
    rw [hport'] at h₂
    have hzero := (onesNorm_eq_max_iff _).mp hport
    have hzero' := (onesNorm_eq_max_iff _).mp hport'
    have hother := hnorm (v + y + port.toNat)
    have hother' := hnorm (v + x + port'.toNat)
    omega
  refine ⟨hcong, fun hblank => ?_⟩
  have hzero : v = 0 :=
    (packetSum_eq_zero_iff 0 20 h.left hp (by omega) (by omega) hsum).mpr hblank
  have h₀ := hhigh 0
  rw [UInt16.toNat_zero, hzero, Nat.zero_add, Nat.add_zero, Nat.zero_add, Nat.add_zero] at h₀
  unfold onesNorm at h₀
  split at h₀ <;> split at h₀ <;> omega

end

/-- For buffers with the same packet, all translations agree on the packet exactly if the padding
has the same effect. -/
theorem natChange_padding_iff {p q : Bytes} {v w : Ipv4Pkt} (hp : parseIpv4Pkt true p = .ok v)
    (hq : parseIpv4Pkt true q = .ok w)
    (hagree : p.take (wordAt p 2).toNat = q.take (wordAt p 2).toNat) :
    (∀ ipAddr port,
      (natChangeSrc true p ipAddr port).take (wordAt p 2).toNat =
        (natChangeSrc true q ipAddr port).take (wordAt p 2).toNat ∧
      (natChangeDst true p ipAddr port).take (wordAt p 2).toNat =
        (natChangeDst true q ipAddr port).take (wordAt p 2).toNat) ↔ SameCoverage p q := by
  have hpHeader := (parseIpv4Pkt_ok_iff.mp hp).1
  have hqHeader := (parseIpv4Pkt_ok_iff.mp hq).1
  have h : SamePacket p q := ⟨hpHeader, hqHeader, .of_take_eq hpHeader.total_le hagree⟩
  constructor
  · intro htake
    have hsrc : ∀ ipAddr port, AgreeTo (wordAt p 2).toNat (natChangeSrc true p ipAddr port)
        (natChangeSrc true q ipAddr port) := by
      intro ipAddr port
      refine .of_take_eq ?_ (htake ipAddr port).1
      rw [natChangeSrc, length_natChange ipAddr port (by omega) hpHeader]
      exact hpHeader.total_le
    have hsrc' : ∀ ipAddr port, AgreeTo (wordAt q 2).toNat (natChangeSrc true q ipAddr port)
        (natChangeSrc true p ipAddr port) := by
      intro ipAddr port
      rw [h.total_eq]
      exact (hsrc ipAddr port).symm
    have hlen : 26 ≤ p.length ↔ 26 ≤ q.length :=
      ⟨length_of_agreeTo h.symm hsrc', length_of_agreeTo h hsrc⟩
    have hsumIff : 26 ≤ p.length → sumIndex (byteAt p 9) < (wordAt p 2).toNat →
        (sumIndex (byteAt p 9) + 2 ≤ p.length ↔ sumIndex (byteAt p 9) + 2 ≤ q.length) := by
      intro hp26 hsum
      have hback := sum_of_agreeTo h.symm hsrc' (hlen.mp hp26) hp26
      rw [h.proto_eq, h.total_eq] at hback
      exact ⟨hback hsum, sum_of_agreeTo h hsrc hp26 (hlen.mp hp26) hsum⟩
    refine ⟨hlen, hsumIff, fun hp26 hsum hp' => ?_, fun hp26 hsum hblank => ?_⟩
    · exact (padding_of_agreeTo h hsrc hp26 (hlen.mp hp26) hsum ((hsumIff hp26 hsum).mp hp') hp').1
    · have hp' : sumIndex (byteAt p 9) + 2 ≤ p.length := by
        have hindex : sumIndex (byteAt p 9) = 22 := if_pos hblank.1
        omega
      exact (padding_of_agreeTo h hsrc hp26 (hlen.mp hp26) hsum ((hsumIff hp26 hsum).mp hp') hp').2
        hblank
  · intro hcover ipAddr port
    refine ⟨?_, ?_⟩
    · exact (natChange_agreeTo ipAddr port h hcover (Nat.le_refl 12) (by omega) (.inl rfl)).take_eq
        (Nat.le_refl _)
    · exact (natChange_agreeTo ipAddr port h hcover (by omega) (Nat.le_refl 16) (.inr rfl)).take_eq
        (Nat.le_refl _)

/-- An echo request of 28 bytes from 10.0.0.2 to 8.8.8.8. -/
def echoRequest : Bytes :=
  [69, 0, 0, 28, 0, 1, 0, 0, 64, 1, 96, 207, 10, 0, 0, 2, 8, 8, 8, 8, 8, 0, 247, 247, 0, 7, 0, 1]

/-- Padding of zeros has no effect. -/
theorem natChange_padding_iff_zeros :
    (natChangeSrc true (echoRequest ++ List.replicate 18 0) #v[192, 0, 2, 1] 40000).take 28 =
      (natChangeSrc true echoRequest #v[192, 0, 2, 1] 40000).take 28 := by
  have hcover : SameCoverage (echoRequest ++ List.replicate 18 0) echoRequest := by
    refine ⟨by decide, fun _ _ => by decide +kernel, fun _ _ _ => by decide +kernel, ?_⟩
    rintro - - ⟨-, hblank⟩
    exact absurd (hblank 20 (by decide) (by decide +kernel) (by decide)) (by decide)
  have hagree := (natChange_padding_iff (p := echoRequest ++ List.replicate 18 0) (q := echoRequest)
    (v := ipv4Fields echoRequest) (w := ipv4Fields echoRequest) (by decide +kernel)
    (by decide +kernel) (by decide +kernel)).mpr hcover
  exact (hagree #v[192, 0, 2, 1] 40000).1

/-- One nonzero byte of padding changes the translated packet, and its checksum is wrong then. -/
theorem natChangeSrc_reads_padding :
    parseIpv4Pkt true (echoRequest ++ 1 :: List.replicate 17 0) = .ok (ipv4Fields echoRequest) ∧
    parseIpv4Pkt true (echoRequest ++ 0 :: List.replicate 17 0) = .ok (ipv4Fields echoRequest) ∧
    (wordAt echoRequest 2).toNat = 28 ∧
    (echoRequest ++ 1 :: List.replicate 17 0).take 28 =
      (echoRequest ++ 0 :: List.replicate 17 0).take 28 ∧
    (natChangeSrc true (echoRequest ++ 1 :: List.replicate 17 0) #v[192, 0, 2, 1] 40000).take 28 ≠
      (natChangeSrc true (echoRequest ++ 0 :: List.replicate 17 0) #v[192, 0, 2, 1] 40000).take 28 ∧
    parseIcmpPkt (((natChangeSrc true (echoRequest ++ 1 :: List.replicate 17 0) #v[192, 0, 2, 1]
      40000).take 28).drop 20) = .error "check sum error" := by
  decide +kernel

end

end Halo
