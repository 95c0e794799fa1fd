import Halo.Protocol.Icmp
import Halo.Protocol.Ipv4
import Halo.Protocol.Tcp

/-!
# Translated packets are valid again

* `parseIpv4Pkt_ok_iff`, `parseIcmpPkt_isOk_iff`, `parseUdpPkt_isOk_iff`, `parseTcpPkt_isOk_iff`:
  what the parsers test.
* `reCalcIpv4CheckSum_verifies`, `reCalcIcmpCheckSum_verifies`, `reCalcTransportCheckSum_verifies`:
  the checksums that are set verify.
* `natChange_eq`, `natChange_agreeOff`: what a translation changes.
* `ValidPacket`: the parsers accept a packet, and its length fields cover all of it.
  `natRewrite_valid`: a translated packet is valid again.
-/

namespace Halo

/-! ## What the parsers test -/

/-- The protocol of a packet is one that NAT translates. -/
abbrev NatProto (pkt : Bytes) : Prop :=
  byteAt pkt 9 = iphProtoIcmp ∨ byteAt pkt 9 = iphProtoTcp ∨ byteAt pkt 9 = iphProtoUdp

/-- The tests of `ParseIpv4Pkt` but for the checksum. -/
@[mk_iff]
structure Ipv4Header (pkt : Bytes) : Prop where
  length_ge : 20 ≤ pkt.length
  length_le : pkt.length ≤ 1500
  version : byteAt pkt 0 = 0x45
  total_ge : 20 ≤ (wordAt pkt 2).toNat
  total_le : (wordAt pkt 2).toNat ≤ pkt.length
  fragment : (byteAt pkt 6 = 0x40 ∨ byteAt pkt 6 = 0x00) ∧ byteAt pkt 7 = 0x00
  proto : byteAt pkt 9 = iphProtoIcmp ∨ byteAt pkt 9 = iphProtoTcp ∨ byteAt pkt 9 = iphProtoUdp

/-- The fields that `ParseIpv4Pkt` returns. -/
def ipv4Fields (pkt : Bytes) : Ipv4Pkt :=
  ⟨(pkt.take (wordAt pkt 2).toNat).drop 20, byteAt pkt 9, addrAt pkt 12, addrAt pkt 16⟩

variable {checkSumEnable : Bool} {pkt p q : Bytes}

theorem parseIpv4Pkt_ok_iff {ipv4 : Ipv4Pkt} : parseIpv4Pkt checkSumEnable pkt = .ok ipv4 ↔
      Ipv4Header pkt ∧ (checkSumEnable = true → getCheckSum (pkt.take 20) = 0) ∧
        ipv4 = ipv4Fields pkt := by
  unfold parseIpv4Pkt
  constructor
  · intro h
    dsimp only at h
    iterate 6
      split at h
      · cases h
    rename_i hlen hversion htotal hfragment hproto hsum
    rw [Except.ok.injEq] at h
    push Not at hlen hversion htotal
    exact ⟨⟨by omega, by omega, hversion, by omega, by omega, by tauto, by tauto⟩, by tauto, h.symm⟩
  · rintro ⟨⟨hge, hle, hversion, htotal, htotal', hfragment, hproto⟩, hsum, rfl⟩
    rw [if_neg (by omega), if_neg (not_not.mpr hversion)]
    dsimp only
    rw [if_neg (by omega), if_neg (by tauto), if_neg (by tauto), if_neg (by tauto)]
    rfl

theorem parseIcmpPkt_isOk_iff :
    (parseIcmpPkt pkt).isOk = true ↔ 8 ≤ pkt.length ∧ pkt.length ≤ 1480 ∧
      (byteAt pkt 0 = icmpRequest ∨ byteAt pkt 0 = icmpReply ∨ byteAt pkt 0 = icmpTtl) ∧
      byteAt pkt 1 = 0x00 ∧ getCheckSum pkt = 0 := by
  unfold parseIcmpPkt
  split_ifs with hlen htype hcode hsum <;>
    simp only [Except.isOk, Except.toBool, Bool.false_eq_true, false_iff, true_iff]
  · omega
  · tauto
  · tauto
  · tauto
  · exact ⟨by omega, by omega, by tauto, not_not.mp hcode, not_not.mp hsum⟩

/-- The fields that `parseIcmpPkt` reads. -/
def icmpFields (pkt : Bytes) : IcmpPkt :=
  ⟨pkt.drop 8, byteAt pkt 0, (pkt.take 6).drop 4, wordAt pkt 6⟩

theorem parseIcmpPkt_ok_iff {icmp : IcmpPkt} :
    parseIcmpPkt pkt = .ok icmp ↔ (parseIcmpPkt pkt).isOk = true ∧ icmp = icmpFields pkt := by
  have heq : ∀ icmp', parseIcmpPkt pkt = .ok icmp' → icmp' = icmpFields pkt := by
    intro icmp' h
    unfold parseIcmpPkt at h
    split_ifs at h
    cases h
    rfl
  constructor
  · intro h
    exact ⟨by rw [h]; rfl, heq icmp h⟩
  · rintro ⟨hok, rfl⟩
    cases h : parseIcmpPkt pkt with
    | error e =>
      rw [h] at hok
      cases hok
    | ok icmp' => rw [heq icmp' h]

theorem parseUdpPkt_isOk_iff {addr : Ipv4AddrPair} :
    (parseUdpPkt checkSumEnable pkt addr).isOk = true ↔ 8 ≤ pkt.length ∧ pkt.length ≤ 1480 ∧
      8 ≤ (wordAt pkt 4).toNat ∧ (wordAt pkt 4).toNat ≤ pkt.length ∧
      (checkSumEnable = true → getCheckSum
        (pseudoHeader addr 0x11 (wordAt pkt 4) ++ pkt.take (wordAt pkt 4).toNat) = 0) := by
  unfold parseUdpPkt
  dsimp only
  split_ifs with hlen htotal hsum <;>
    simp only [Except.isOk, Except.toBool, Bool.false_eq_true, false_iff, true_iff]
  · omega
  · omega
  · tauto
  · exact ⟨by omega, by omega, by omega, by omega, by tauto⟩

theorem parseTcpPkt_isOk_iff {addr : Ipv4AddrPair} :
    (parseTcpPkt checkSumEnable pkt addr).isOk = true ↔ 20 ≤ pkt.length ∧ pkt.length ≤ 1480 ∧
      20 ≤ tcpHeaderLen pkt ∧ tcpHeaderLen pkt ≤ pkt.length ∧
      (parseTcpOptions pkt (tcpHeaderLen pkt) (tcpHeaderLen pkt) 20 0).isOk = true ∧
      (checkSumEnable = true → getCheckSum
        (pseudoHeader addr 0x06 (UInt16.ofNat pkt.length) ++ pkt) = 0) := by
  unfold parseTcpPkt
  dsimp only
  by_cases hlen : pkt.length < 20 ∨ pkt.length > 1480
  · rw [if_pos hlen]
    simp only [Except.isOk, Except.toBool, Bool.false_eq_true, false_iff]
    omega
  rw [if_neg hlen]
  by_cases hheader : tcpHeaderLen pkt < 20 ∨ tcpHeaderLen pkt > pkt.length
  · rw [if_pos hheader]
    simp only [Except.isOk, Except.toBool, Bool.false_eq_true, false_iff]
    omega
  rw [if_neg hheader]
  cases hoptions : parseTcpOptions pkt (tcpHeaderLen pkt) (tcpHeaderLen pkt) 20 0 with
  | error e => simp [Except.isOk, Except.toBool]
  | ok mss =>
    dsimp only
    split_ifs with hsum <;>
      simp only [Except.isOk, Except.toBool, Bool.false_eq_true, false_iff, true_iff]
    · tauto
    · exact ⟨by omega, by omega, by omega, by omega, trivial, by tauto⟩

/-- The options are read behind byte 20, and of the header only the flags. -/
theorem parseTcpOptions_congr {headerLen : Nat}
    (h : ∀ j, 20 ≤ j → byteAt q j = byteAt p j) (hflags : byteAt q 13 = byteAt p 13)
    {fuel offset : Nat} {mss : UInt16} (hoffset : 20 ≤ offset) :
    parseTcpOptions q headerLen fuel offset mss = parseTcpOptions p headerLen fuel offset mss := by
  induction fuel generalizing offset mss with
  | zero => rfl
  | succ fuel ih =>
    have hmss : wordAt q (offset + 2) = wordAt p (offset + 2) := by
      unfold wordAt
      rw [h _ (by omega), h _ (by omega)]
    simp only [parseTcpOptions, h offset hoffset, h (offset + 1) (by omega), hmss, hflags,
      ih (show 20 ≤ offset + 1 by omega),
        ih (show 20 ≤ offset + (byteAt p (offset + 1)).toNat by omega)]

/-! ## Checksums that verify -/

/-- The header checksum that `ReCalcIpv4CheckSum` sets verifies. -/
theorem reCalcIpv4CheckSum_verifies (h : 20 ≤ pkt.length) :
    getCheckSum ((reCalcIpv4CheckSum true pkt).take 20) = 0 := by
  unfold reCalcIpv4CheckSum
  rw [if_neg (by omega), if_neg (by decide), take_setWord]
  have hlen : ((setWord pkt 10 0).take 20).length = 20 := by simpa using h
  refine getCheckSum_setWord (by omega) rfl (by omega) ?_
  rw [wordAt_take (by omega), wordAt_setWord_self (by omega)]

/-- The checksum that `ReCalcIcmpCheckSum` sets verifies over the whole rest of the packet. -/
theorem reCalcIcmpCheckSum_verifies (h : 24 ≤ pkt.length)
    (h' : pkt.length ≤ 1500) : getCheckSum ((reCalcIcmpCheckSum pkt).drop 20) = 0 := by
  unfold reCalcIcmpCheckSum
  rw [if_neg (by omega)]
  dsimp only
  rw [drop_setWord _ 20 2]
  have hlen : ((setWord pkt 22 0).drop 20).length = pkt.length - 20 := by simp
  refine getCheckSum_setWord (by omega) rfl (by omega) ?_
  rw [wordAt_drop, wordAt_setWord_self (by omega)]

/-- The pseudo header as a slice of the packet. -/
theorem pseudoHeader_eq_slice (h : 20 ≤ pkt.length) (proto : UInt8) (totalLen : UInt16) :
    pseudoHeader ⟨addrAt pkt 12, addrAt pkt 16⟩ proto totalLen =
      (pkt.take 20).drop 12 ++ [0x00, proto] ++ be16 totalLen := by
  have hsrc : (addrAt pkt 12).toList = (pkt.drop 12).take 4 := vecAt_toList (by omega)
  have hdst : (addrAt pkt 16).toList = (pkt.drop 16).take 4 := vecAt_toList (by omega)
  have hslice : (pkt.take 20).drop 12 = (pkt.drop 12).take 4 ++ (pkt.drop 16).take 4 := by
    rw [List.drop_take, show 20 - 12 = 4 + 4 from rfl, List.take_add, List.drop_drop]
  rw [pseudoHeader, hsrc, hdst, hslice]

/-- The checksum that `ReCalcTcpCheckSum` and `ReCalcUdpCheckSum` set verifies over the pseudo
header of the packet and the whole rest of it. -/
theorem reCalcTransportCheckSum_verifies {sumAt : Nat} {proto : UInt8}
    (hsum : 20 ≤ sumAt) (heven : sumAt % 2 = 0) (hlen : sumAt + 1 < pkt.length)
    (hlen' : pkt.length ≤ 1500)
    (hq : q = reCalcTransportCheckSum sumAt proto true pkt) :
    getCheckSum (pseudoHeader ⟨addrAt q 12, addrAt q 16⟩ proto (wordAt q 2 - 20) ++ q.drop 20) =
      0 := by
  obtain ⟨k, rfl⟩ : ∃ k, sumAt = 20 + k := ⟨sumAt - 20, by omega⟩
  unfold reCalcTransportCheckSum at hq
  rw [if_neg (by omega), if_neg (by decide)] at hq
  dsimp only at hq
  set z := setWord pkt (20 + k) 0 with hz
  have hzlen : z.length = pkt.length := length_setWord pkt _ _
  -- the fields of the pseudo header are not in the word that is written
  have htake : q.take 20 = z.take 20 := by rw [hq, take_setWord_of_le hsum]
  have hfake : pseudoHeader ⟨addrAt q 12, addrAt q 16⟩ proto (wordAt q 2 - 20) =
      (z.take 20).drop 12 ++ [0x00, proto] ++ be16 (wordAt z 2 - 20) := by
    rw [pseudoHeader_eq_slice (by rw [hq, length_setWord]; omega), htake,
      wordAt_congr htake (by omega)]
  have hdata : ((z.take 20).drop 12 ++ [0x00, proto] ++ be16 (wordAt z 2 - 20)).length = 12 := by
    simp [be16]
    omega
  rw [hfake, hq, drop_setWord z 20 k, append_setWord, hdata]
  refine getCheckSum_setWord (by simp [be16]; omega) (by omega) (by simp [be16]; omega) ?_
  have hword := wordAt_append_right
    (p := (z.take 20).drop 12 ++ [0x00, proto] ++ be16 (wordAt z 2 - 20)) (q := z.drop 20) k
  rw [hdata] at hword
  rw [hword, wordAt_drop, hz, wordAt_setWord_self (by omega)]

/-! ## What a translation changes -/

/-- The index of the word that NAT takes for a port: the identifier of an ICMP message, else the
given index. -/
def natPortIndex (proto : UInt8) (portIndex : Nat) : Nat :=
  if proto = iphProtoIcmp then 24 else portIndex

/-- The index of the checksum of the payload. -/
def sumIndex (proto : UInt8) : Nat :=
  if proto = iphProtoIcmp then 22 else if proto = iphProtoTcp then 36 else 26

/-- The checksum of the payload is computed again. -/
def reCalcPayloadCheckSum (checkSumEnable : Bool) (proto : UInt8) (pkt : Bytes) : Bytes :=
  if proto = iphProtoIcmp then reCalcIcmpCheckSum pkt
  else if proto = iphProtoTcp then reCalcTcpCheckSum checkSumEnable pkt
  else reCalcUdpCheckSum checkSumEnable pkt

theorem reCalcPayloadCheckSum_agreeOff (checkSumEnable : Bool) (proto : UInt8) (pkt : Bytes) :
    AgreeOff {sumIndex proto, sumIndex proto + 1} pkt
      (reCalcPayloadCheckSum checkSumEnable proto pkt) := by
  unfold reCalcPayloadCheckSum sumIndex
  split
  · exact reCalcIcmpCheckSum_agreeOff pkt
  split
  · exact reCalcTransportCheckSum_agreeOff 36 0x06 checkSumEnable pkt
  · exact reCalcTransportCheckSum_agreeOff 26 0x11 checkSumEnable pkt

/-- The bytes that a translation may change: the header checksum, the address, the port and the
checksum of the payload. -/
def natChanged (addrIndex portIndex : Nat) (proto : UInt8) : Set Nat :=
  {10, 11} ∪ Set.Ico addrIndex (addrIndex + 4) ∪
    {natPortIndex proto portIndex, natPortIndex proto portIndex + 1} ∪
    {sumIndex proto, sumIndex proto + 1}

section

variable {addrIndex : Nat} (portIndex : Nat) (checkSumEnable : Bool) {pkt : Bytes}
  (ipAddr : Ipv4Addr) (port : UInt16)

/-- The three writes of a translation. -/
theorem natChange_eq (hlen : 26 ≤ pkt.length) (haddr : 12 ≤ addrIndex)
    (hproto : NatProto pkt) :
    natChange addrIndex portIndex checkSumEnable pkt ipAddr port =
      reCalcPayloadCheckSum checkSumEnable (byteAt pkt 9)
        (setWord (reCalcIpv4CheckSum checkSumEnable (setAddr pkt addrIndex ipAddr))
          (natPortIndex (byteAt pkt 9) portIndex) port) := by
  have hbyte : byteAt (reCalcIpv4CheckSum checkSumEnable (setAddr pkt addrIndex ipAddr)) 9 =
      byteAt pkt 9 := by
    rw [(reCalcIpv4CheckSum_agreeOff _ _).byteAt_eq 9 (by decide),
      (AgreeOff.setAddr pkt addrIndex ipAddr).byteAt_eq 9 (by rw [Set.mem_Ico]; omega)]
  unfold natChange reCalcPayloadCheckSum natPortIndex
  rw [if_neg (by omega)]
  dsimp only
  rw [hbyte]
  rcases hproto with hproto | hproto | hproto <;>
    simp [hproto, iphProtoIcmp, iphProtoTcp, iphProtoUdp]

theorem natChange_agreeOff (hlen : 26 ≤ pkt.length) (haddr : 12 ≤ addrIndex)
    (hproto : NatProto pkt) :
    AgreeOff (natChanged addrIndex portIndex (byteAt pkt 9)) pkt
      (natChange addrIndex portIndex checkSumEnable pkt ipAddr port) := by
  rw [natChange_eq portIndex checkSumEnable ipAddr port hlen haddr hproto]
  have hheader := (AgreeOff.setAddr pkt addrIndex ipAddr).trans
    (reCalcIpv4CheckSum_agreeOff checkSumEnable _)
  have hport := hheader.trans (.setWord _ (natPortIndex (byteAt pkt 9) portIndex) port)
  refine (hport.trans (reCalcPayloadCheckSum_agreeOff checkSumEnable (byteAt pkt 9) _)).mono ?_
  rw [natChanged, Set.union_comm {10, 11}]

end

/-! ## Valid packets -/

/-- The parser of the transport protocol accepts the payload of a packet for its addresses. -/
def transportOk (checkSumEnable : Bool) (ipv4 : Ipv4Pkt) : Bool :=
  if ipv4.ipHeadProto = iphProtoIcmp then (parseIcmpPkt ipv4.payload).isOk
  else if ipv4.ipHeadProto = iphProtoTcp then
    (parseTcpPkt checkSumEnable ipv4.payload ⟨ipv4.srcAddr, ipv4.dstAddr⟩).isOk
  else (parseUdpPkt checkSumEnable ipv4.payload ⟨ipv4.srcAddr, ipv4.dstAddr⟩).isOk

/-- With checksums enabled, the parsers accept the packet, and it has no trailing bytes. -/
structure ValidPacket (pkt : Bytes) : Prop where
  accepted : ∃ ipv4, parseIpv4Pkt true pkt = .ok ipv4 ∧ transportOk true ipv4 = true
  no_trailing : (wordAt pkt 2).toNat = pkt.length
  udp_length : byteAt pkt 9 = iphProtoUdp → (wordAt pkt 24).toNat = pkt.length - 20

/-- The sum over the pseudo header and the payload of a packet without trailing bytes. -/
def payloadSum (pkt : Bytes) (proto : UInt8) : UInt16 :=
  getCheckSum (pseudoHeader ⟨addrAt pkt 12, addrAt pkt 16⟩ proto (wordAt pkt 2 - 20) ++ pkt.drop 20)

/-- The tests of the transport parsers on a packet without trailing bytes, and the length of UDP. -/
@[mk_iff]
structure PayloadOk (pkt : Bytes) : Prop where
  length_ge : 28 ≤ pkt.length
  icmp : byteAt pkt 9 = iphProtoIcmp →
    (byteAt pkt 20 = icmpRequest ∨ byteAt pkt 20 = icmpReply ∨ byteAt pkt 20 = icmpTtl) ∧
      byteAt pkt 21 = 0x00 ∧ getCheckSum (pkt.drop 20) = 0
  tcp : byteAt pkt 9 = iphProtoTcp → 40 ≤ pkt.length ∧ 20 ≤ tcpHeaderLen (pkt.drop 20) ∧
    tcpHeaderLen (pkt.drop 20) ≤ pkt.length - 20 ∧
      (parseTcpOptions (pkt.drop 20) (tcpHeaderLen (pkt.drop 20)) (tcpHeaderLen (pkt.drop 20)) 20
        0).isOk = true ∧ payloadSum pkt 0x06 = 0
  udp : byteAt pkt 9 = iphProtoUdp → wordAt pkt 24 = wordAt pkt 2 - 20 ∧ payloadSum pkt 0x11 = 0

/-- The length of the payload as the machine word that the checksum code computes. -/
theorem wordAt_sub_twenty (h : Ipv4Header pkt) (hlen : (wordAt pkt 2).toNat = pkt.length) :
    (wordAt pkt 2 - 20).toNat = pkt.length - 20 ∧
      UInt16.ofNat (pkt.drop 20).length = wordAt pkt 2 - 20 := by
  have hle := h.length_le
  have hge := h.length_ge
  have hsub : (wordAt pkt 2 - 20).toNat = pkt.length - 20 := by
    rw [UInt16.toNat_sub_of_le _ _ (by rw [UInt16.le_iff_toNat_le, hlen]; exact hge), hlen]
    rfl
  refine ⟨hsub, ?_⟩
  rw [← UInt16.toNat_inj, hsub, List.length_drop, UInt16.toNat_ofNat']
  omega

/-- Without trailing bytes, the parsers get the payload `pkt.drop 20`. -/
theorem transportOk_iff (hheader : Ipv4Header pkt) (hlen : (wordAt pkt 2).toNat = pkt.length)
    (hudp : byteAt pkt 9 = iphProtoUdp → wordAt pkt 24 = wordAt pkt 2 - 20) :
    transportOk true (ipv4Fields pkt) = true ↔ PayloadOk pkt := by
  obtain ⟨hsub, hofNat⟩ := wordAt_sub_twenty hheader hlen
  have hle := hheader.length_le
  rw [payloadOk_iff, transportOk, ipv4Fields, hlen, List.take_length]
  dsimp only
  rcases hheader.proto with hproto | hproto | hproto <;> rw [hproto]
  · rw [if_pos rfl, parseIcmpPkt_isOk_iff, List.length_drop, byteAt_drop, byteAt_drop]
    constructor
    · rintro ⟨hge, -, htests⟩
      exact ⟨by omega, fun _ => htests, nofun, nofun⟩
    · rintro ⟨hge, hicmp, -⟩
      exact ⟨by omega, by omega, hicmp rfl⟩
  · rw [if_neg (by decide), if_pos rfl, parseTcpPkt_isOk_iff, hofNat, List.length_drop]
    constructor
    · rintro ⟨hge, -, hheaderLen, hheaderLen', hoptions, hverify⟩
      exact ⟨by omega, nofun, fun _ => ⟨by omega, hheaderLen, hheaderLen', hoptions, hverify rfl⟩,
        nofun⟩
    · rintro ⟨-, -, htcp, -⟩
      obtain ⟨hge, hheaderLen, hheaderLen', hoptions, hverify⟩ := htcp rfl
      exact ⟨by omega, by omega, hheaderLen, hheaderLen', hoptions, fun _ => hverify⟩
  · rw [if_neg (by decide), if_neg (by decide), parseUdpPkt_isOk_iff, List.length_drop, wordAt_drop,
      hudp hproto, hsub, List.take_of_length_le (by simp)]
    constructor
    · rintro ⟨hge, -, -, -, hverify⟩
      exact ⟨by omega, nofun, nofun, fun _ => ⟨rfl, hverify rfl⟩⟩
    · rintro ⟨hge, -, -, hudp⟩
      exact ⟨by omega, by omega, by omega, by omega, fun _ => (hudp rfl).2⟩

theorem validPacket_iff (pkt : Bytes) :
    ValidPacket pkt ↔ Ipv4Header pkt ∧ getCheckSum (pkt.take 20) = 0 ∧
      (wordAt pkt 2).toNat = pkt.length ∧ PayloadOk pkt := by
  constructor
  · rintro ⟨⟨ipv4, hparse, htransport⟩, hlen, hudp⟩
    obtain ⟨hheader, hsum, rfl⟩ := parseIpv4Pkt_ok_iff.mp hparse
    refine ⟨hheader, hsum rfl, hlen, (transportOk_iff hheader hlen fun hproto => ?_).mp htransport⟩
    rw [← UInt16.toNat_inj, hudp hproto, (wordAt_sub_twenty hheader hlen).1]
  · rintro ⟨hheader, hsum, hlen, hok⟩
    have hword := fun hproto => (hok.udp hproto).1
    refine ⟨⟨_, parseIpv4Pkt_ok_iff.mpr ⟨hheader, fun _ => hsum, rfl⟩,
      (transportOk_iff hheader hlen hword).mpr hok⟩, hlen, fun hproto => ?_⟩
    rw [hword hproto, (wordAt_sub_twenty hheader hlen).1]

/-! ## Translations keep packets valid -/

theorem Ipv4Header.congr {S : Set Nat} (h : Ipv4Header p) (hpq : AgreeOff S p q)
    (hS : ∀ j < 10, j ≠ 8 → j ∉ S) : Ipv4Header q := by
  have hbyte : ∀ j < 10, j ≠ 8 → byteAt q j = byteAt p j :=
    fun j hj hj' => hpq.byteAt_eq j (hS j hj hj')
  rw [ipv4Header_iff, hpq.length_eq, hbyte 0 (by omega) (by omega), hbyte 6 (by omega) (by omega),
    hbyte 7 (by omega) (by omega), hbyte 9 (by omega) (by omega),
    hpq.wordAt_eq (hS 2 (by omega) (by omega)) (hS 3 (by omega) (by omega))]
  exact (ipv4Header_iff p).mp h

/-- The segment header and the options do not have the ports and the checksum. -/
theorem tcp_congr {S : Set Nat} (hpq : AgreeOff S p q)
    (hS : ∀ j, 32 ≤ j → j ≠ 36 → j ≠ 37 → j ∉ S) :
    tcpHeaderLen (q.drop 20) = tcpHeaderLen (p.drop 20) ∧
      ∀ headerLen, parseTcpOptions (q.drop 20) headerLen headerLen 20 0 =
        parseTcpOptions (p.drop 20) headerLen headerLen 20 0 := by
  have hbyte : ∀ j, 12 ≤ j → j ≠ 16 → j ≠ 17 →
      byteAt (q.drop 20) j = byteAt (p.drop 20) j := by
    intro j hj hj' hj''
    rw [byteAt_drop, byteAt_drop]
    exact hpq.byteAt_eq _ (hS _ (by omega) (by omega) (by omega))
  constructor
  · unfold tcpHeaderLen
    rw [hbyte 12 (by omega) (by omega) (by omega)]
  · intro headerLen
    refine parseTcpOptions_congr (fun j hj => ?_) ?_ (Nat.le_refl 20)
    · exact hbyte j (by omega) (by omega) (by omega)
    · exact hbyte 13 (by omega) (by omega) (by omega)

section

variable {addrIndex portIndex : Nat} {pkt : Bytes} (ipAddr : Ipv4Addr) (port : UInt16)

theorem natPortIndex_cases (proto : UInt8) (portIndex : Nat) :
    natPortIndex proto portIndex = 24 ∧ sumIndex proto = 22 ∨
      natPortIndex proto portIndex = portIndex ∧ (sumIndex proto = 36 ∨ sumIndex proto = 26) := by
  unfold natPortIndex sumIndex
  by_cases hicmp : proto = iphProtoIcmp
  · exact .inl ⟨if_pos hicmp, if_pos hicmp⟩
  · rw [if_neg hicmp, if_neg hicmp]
    by_cases htcp : proto = iphProtoTcp
    · exact .inr ⟨rfl, .inl (if_pos htcp)⟩
    · exact .inr ⟨rfl, .inr (if_neg htcp)⟩

theorem mem_natChanged {proto : UInt8} {j : Nat} : j ∈ natChanged addrIndex portIndex proto ↔
    j = 10 ∨ j = 11 ∨ (addrIndex ≤ j ∧ j < addrIndex + 4) ∨ j = natPortIndex proto portIndex ∨
      j = natPortIndex proto portIndex + 1 ∨ j = sumIndex proto ∨ j = sumIndex proto + 1 := by
  simp only [natChanged, Set.mem_union, Set.mem_insert_iff, Set.mem_singleton_iff, Set.mem_Ico,
    or_assoc]

/-- A translation changes no byte in front of the header checksum, of any packet. -/
theorem natChange_agreeOff_front (checkSumEnable : Bool) (haddr : 12 ≤ addrIndex)
    (hport : 20 ≤ portIndex) :
    AgreeOff (Set.Ici 10) pkt (natChange addrIndex portIndex checkSumEnable pkt ipAddr port) := by
  by_cases hlen : pkt.length < 26
  · rw [natChange, if_pos hlen]
    exact .refl _ pkt
  by_cases hproto : NatProto pkt
  · refine (natChange_agreeOff portIndex checkSumEnable ipAddr port (by omega) haddr hproto).mono ?_
    intro j hj
    have hcases := natPortIndex_cases (byteAt pkt 9) portIndex
    rw [mem_natChanged] at hj
    rw [Set.mem_Ici]
    omega
  · have hheader :=
      (AgreeOff.setAddr pkt addrIndex ipAddr).trans (reCalcIpv4CheckSum_agreeOff checkSumEnable _)
    have hbyte := hheader.byteAt_eq 9 (by
      simp only [Set.mem_union, Set.mem_Ico, Set.mem_insert_iff, Set.mem_singleton_iff]
      omega)
    simp only [NatProto, not_or] at hproto
    unfold natChange
    dsimp only
    rw [if_neg hlen, hbyte, if_neg hproto.1, if_neg hproto.2.1, if_neg hproto.2.2]
    refine hheader.mono ?_
    intro j hj
    simp only [Set.mem_union, Set.mem_Ico, Set.mem_insert_iff, Set.mem_singleton_iff] at hj
    rw [Set.mem_Ici]
    omega

/-- Behind the address, a translation writes no byte of the header. -/
theorem natChange_header_agreeOff (checkSumEnable : Bool) (hlen : 26 ≤ pkt.length)
    (haddr : 12 ≤ addrIndex) (hport : 20 ≤ portIndex) (hproto : NatProto pkt) :
    AgreeOff (Set.Ici 20) (reCalcIpv4CheckSum checkSumEnable (setAddr pkt addrIndex ipAddr))
      (natChange addrIndex portIndex checkSumEnable pkt ipAddr port) := by
  rw [natChange_eq portIndex checkSumEnable ipAddr port hlen haddr hproto]
  refine ((AgreeOff.setWord _ _ port).trans
    (reCalcPayloadCheckSum_agreeOff checkSumEnable _ _)).mono ?_
  intro j hj
  have hcases := natPortIndex_cases (byteAt pkt 9) portIndex
  simp only [Set.mem_union, Set.mem_insert_iff, Set.mem_singleton_iff] at hj
  rw [Set.mem_Ici]
  omega

/-- The header checksum of a translated packet is valid, whole or not. -/
theorem natChange_checkSum (hlen : 26 ≤ pkt.length) (haddr : 12 ≤ addrIndex)
    (hport : 20 ≤ portIndex) (hproto : NatProto pkt) :
    getCheckSum ((natChange addrIndex portIndex true pkt ipAddr port).take 20) = 0 := by
  have htake := (natChange_header_agreeOff ipAddr port true hlen haddr hport hproto).take_drop_eq
    (m := 0) (n := 20) fun j _ hj => by rw [Set.mem_Ici]; omega
  rw [List.drop_zero, List.drop_zero] at htake
  rw [htake]
  exact reCalcIpv4CheckSum_verifies (by rw [length_setAddr]; omega)

theorem natChange_addrAt (checkSumEnable : Bool) (hlen : 26 ≤ pkt.length) (haddr : 12 ≤ addrIndex)
    (haddr' : addrIndex ≤ 16) (hport : 20 ≤ portIndex) (hproto : NatProto pkt) :
    addrAt (natChange addrIndex portIndex checkSumEnable pkt ipAddr port) addrIndex = ipAddr := by
  have hheader := natChange_header_agreeOff ipAddr port checkSumEnable hlen haddr hport hproto
  have hsum := reCalcIpv4CheckSum_agreeOff checkSumEnable (setAddr pkt addrIndex ipAddr)
  calc addrAt (natChange addrIndex portIndex checkSumEnable pkt ipAddr port) addrIndex
      = addrAt (reCalcIpv4CheckSum checkSumEnable (setAddr pkt addrIndex ipAddr)) addrIndex :=
        hheader.vecAt_eq fun k hk => by rw [Set.mem_Ici]; omega
    _ = addrAt (setAddr pkt addrIndex ipAddr) addrIndex :=
        hsum.vecAt_eq fun k hk => by
          simp only [Set.mem_insert_iff, Set.mem_singleton_iff]
          omega
    _ = ipAddr := addrAt_setAddr_self (by omega)

theorem natChange_wordAt (checkSumEnable : Bool) (hlen : 26 ≤ pkt.length) (haddr : 12 ≤ addrIndex)
    (hport : portIndex = 20 ∨ portIndex = 22) (hproto : NatProto pkt) :
    wordAt (natChange addrIndex portIndex checkSumEnable pkt ipAddr port)
      (natPortIndex (byteAt pkt 9) portIndex) = port := by
  have hcases := natPortIndex_cases (byteAt pkt 9) portIndex
  have halen : (reCalcIpv4CheckSum checkSumEnable (setAddr pkt addrIndex ipAddr)).length =
      pkt.length := by
    rw [(reCalcIpv4CheckSum_agreeOff _ _).length_eq, length_setAddr]
  have hoff : ∀ j, natPortIndex (byteAt pkt 9) portIndex ≤ j →
      j ≤ natPortIndex (byteAt pkt 9) portIndex + 1 →
      j ∉ ({sumIndex (byteAt pkt 9), sumIndex (byteAt pkt 9) + 1} : Set Nat) := by
    intro j hj hj'
    simp only [Set.mem_insert_iff, Set.mem_singleton_iff]
    omega
  rw [natChange_eq portIndex checkSumEnable ipAddr port hlen haddr hproto,
    (reCalcPayloadCheckSum_agreeOff checkSumEnable _ _).wordAt_eq (hoff _ (by omega) (by omega))
      (hoff _ (by omega) (by omega)), wordAt_setWord_self (by omega)]

theorem natChange_payloadOk (haddr : 12 ≤ addrIndex) (haddr' : addrIndex ≤ 16)
    (hport : portIndex = 20 ∨ portIndex = 22) (hheader : Ipv4Header pkt) (hok : PayloadOk pkt) :
    PayloadOk (natChange addrIndex portIndex true pkt ipAddr port) := by
  have hge := hok.length_ge
  have hle := hheader.length_le
  have hlen : 26 ≤ pkt.length := by omega
  have hagree := natChange_agreeOff portIndex true ipAddr port hlen haddr hheader.proto
  have heq := natChange_eq portIndex true ipAddr port hlen haddr hheader.proto
  have hblen : (setWord (reCalcIpv4CheckSum true (setAddr pkt addrIndex ipAddr))
      (natPortIndex (byteAt pkt 9) portIndex) port).length = pkt.length := by
    rw [length_setWord, (reCalcIpv4CheckSum_agreeOff _ _).length_eq, length_setAddr]
  have hcases := natPortIndex_cases (byteAt pkt 9) portIndex
  rw [reCalcPayloadCheckSum] at heq
  rw [payloadOk_iff, hagree.byteAt_eq 9 (by rw [mem_natChanged]; omega), hagree.length_eq]
  refine ⟨hge, fun hicmp => ?_, fun htcp => ?_, fun hudp => ?_⟩
  · obtain ⟨htype, hcode, -⟩ := hok.icmp hicmp
    rw [if_pos hicmp] at heq
    have hindex : natPortIndex (byteAt pkt 9) portIndex = 24 := if_pos hicmp
    have hsum : sumIndex (byteAt pkt 9) = 22 := if_pos hicmp
    rw [hagree.byteAt_eq 20 (by rw [mem_natChanged]; omega),
      hagree.byteAt_eq 21 (by rw [mem_natChanged]; omega)]
    refine ⟨htype, hcode, ?_⟩
    rw [heq]
    exact reCalcIcmpCheckSum_verifies (by omega) (by omega)
  · have hicmp : byteAt pkt 9 ≠ iphProtoIcmp := by rw [htcp]; decide
    obtain ⟨hge', hheaderLen, hheaderLen', hoptions, -⟩ := hok.tcp htcp
    rw [if_neg hicmp, if_pos htcp] at heq
    have hindex : natPortIndex (byteAt pkt 9) portIndex = portIndex := if_neg hicmp
    have hsum : sumIndex (byteAt pkt 9) = 36 := by rw [sumIndex, if_neg hicmp, if_pos htcp]
    obtain ⟨hlenEq, hoptionsEq⟩ := tcp_congr hagree fun j hj hj' hj'' => by
      rw [mem_natChanged]
      omega
    rw [hlenEq, hoptionsEq]
    refine ⟨hge', hheaderLen, hheaderLen', hoptions, ?_⟩
    exact reCalcTransportCheckSum_verifies (by omega) rfl (by omega) (by omega) heq
  · have hicmp : byteAt pkt 9 ≠ iphProtoIcmp := by rw [hudp]; decide
    have htcp : byteAt pkt 9 ≠ iphProtoTcp := by rw [hudp]; decide
    rw [if_neg hicmp, if_neg htcp] at heq
    have hindex : natPortIndex (byteAt pkt 9) portIndex = portIndex := if_neg hicmp
    have hsum : sumIndex (byteAt pkt 9) = 26 := by rw [sumIndex, if_neg hicmp, if_neg htcp]
    rw [hagree.wordAt_eq (by rw [mem_natChanged]; omega) (by rw [mem_natChanged]; omega),
      hagree.wordAt_eq (by rw [mem_natChanged]; omega) (by rw [mem_natChanged]; omega)]
    refine ⟨(hok.udp hudp).1, ?_⟩
    exact reCalcTransportCheckSum_verifies (by omega) rfl (by omega) (by omega) heq

theorem natChange_valid (haddr : 12 ≤ addrIndex) (haddr' : addrIndex ≤ 16)
    (hport : portIndex = 20 ∨ portIndex = 22) (h : ValidPacket pkt) :
    ValidPacket (natChange addrIndex portIndex true pkt ipAddr port) := by
  obtain ⟨hheader, -, hlen, hok⟩ := (validPacket_iff pkt).mp h
  have hge := hok.length_ge
  have hagree := natChange_agreeOff portIndex true ipAddr port
    (show 26 ≤ pkt.length by omega) haddr hheader.proto
  have hcases := natPortIndex_cases (byteAt pkt 9) portIndex
  refine (validPacket_iff _).mpr ⟨?_, ?_, ?_, ?_⟩
  · exact hheader.congr hagree fun j hj hj' => by rw [mem_natChanged]; omega
  · exact natChange_checkSum ipAddr port (by omega) haddr (by omega) hheader.proto
  · rw [hagree.wordAt_eq (by rw [mem_natChanged]; omega) (by rw [mem_natChanged]; omega), hlen,
      hagree.length_eq]
  · exact natChange_payloadOk ipAddr port haddr haddr' hport hheader hok

end

/-- A live packet after `HandleIpv4PktTtl`. -/
theorem handleIpv4PktTtl_valid (h : ValidPacket pkt)
    (halive : (handleIpv4PktTtl true pkt).2 = true) :
    ValidPacket (handleIpv4PktTtl true pkt).1 ∧
      (byteAt (handleIpv4PktTtl true pkt).1 8).toNat + 1 = (byteAt pkt 8).toNat := by
  obtain ⟨hheader, -, hlen, hok⟩ := (validPacket_iff pkt).mp h
  have hge := hok.length_ge
  have hagree := handleIpv4PktTtl_agreeOff halive
  obtain ⟨-, httl, heq⟩ := handleIpv4PktTtl_alive halive
  set q := (handleIpv4PktTtl true pkt).1 with hq
  have hmem : ∀ j, j ∈ ({8, 10, 11} : Set Nat) ↔ j = 8 ∨ j = 10 ∨ j = 11 := by
    intro j
    simp only [Set.mem_insert_iff, Set.mem_singleton_iff]
  have hproto : byteAt q 9 = byteAt pkt 9 := hagree.byteAt_eq 9 (by rw [hmem]; omega)
  have htotal : wordAt q 2 = wordAt pkt 2 :=
    hagree.wordAt_eq (by rw [hmem]; omega) (by rw [hmem]; omega)
  have hdrop : q.drop 20 = pkt.drop 20 := by
    apply ext_byteAt (by simp [hagree.length_eq])
    intro j _
    rw [byteAt_drop, byteAt_drop]
    exact hagree.byteAt_eq _ (by rw [hmem]; omega)
  have hpayload : ∀ proto, payloadSum q proto = payloadSum pkt proto := by
    intro proto
    have haddr : ∀ i, 12 ≤ i → addrAt q i = addrAt pkt i := by
      intro i hi
      exact hagree.vecAt_eq (n := 4) fun k _ => by rw [hmem]; omega
    rw [payloadSum, payloadSum, haddr 12 (by omega), haddr 16 (by omega), htotal, hdrop]
  refine ⟨(validPacket_iff q).mpr ⟨?_, ?_, ?_, ?_⟩, ?_⟩
  · exact hheader.congr hagree fun j hj hj' => by rw [hmem]; omega
  · rw [heq]
    exact reCalcIpv4CheckSum_verifies (by rw [List.length_set]; omega)
  · rw [htotal, hlen, hagree.length_eq]
  · rw [payloadOk_iff, hproto, hdrop, hagree.length_eq, hpayload, hpayload, htotal,
      hagree.byteAt_eq 20 (by rw [hmem]; omega), hagree.byteAt_eq 21 (by rw [hmem]; omega),
      hagree.wordAt_eq (by rw [hmem]; omega) (by rw [hmem]; omega)]
    exact (payloadOk_iff pkt).mp hok
  · rw [heq, (reCalcIpv4CheckSum_agreeOff true _).byteAt_eq 8 (by decide),
      byteAt_set_self (by omega)]
    have hone : (1 : UInt8).toNat = 1 := rfl
    have hlt := UInt8.lt_iff_toNat_lt.mp httl
    rw [UInt8.toNat_sub_of_le _ _ (UInt8.le_of_lt httl)]
    omega

/-- `q` is the valid packet that a translation makes of `pkt`: it has the address and the port, and
differs from `pkt` in these and in the checksums at most. -/
structure Translated (addrIndex portIndex : Nat) (pkt : Bytes) (ipAddr : Ipv4Addr) (port : UInt16)
    (q : Bytes) : Prop where
  valid : ValidPacket q
  agree : AgreeOff (natChanged addrIndex portIndex (byteAt pkt 9)) pkt q
  addr : addrAt q addrIndex = ipAddr
  port : wordAt q (natPortIndex (byteAt pkt 9) portIndex) = port

theorem natChange_translated {addrIndex portIndex : Nat} (ipAddr : Ipv4Addr)
    (port : UInt16) (haddr : 12 ≤ addrIndex) (haddr' : addrIndex ≤ 16)
    (hport : portIndex = 20 ∨ portIndex = 22) (h : ValidPacket pkt) :
    Translated addrIndex portIndex pkt ipAddr port
      (natChange addrIndex portIndex true pkt ipAddr port) := by
  obtain ⟨hheader, -, -, hok⟩ := (validPacket_iff pkt).mp h
  have hlen : 26 ≤ pkt.length := Nat.le_trans (by omega) hok.length_ge
  constructor
  · exact natChange_valid ipAddr port haddr haddr' hport h
  · exact natChange_agreeOff portIndex true ipAddr port hlen haddr hheader.proto
  · exact natChange_addrAt ipAddr port true hlen haddr haddr' (by omega) hheader.proto
  · exact natChange_wordAt ipAddr port true hlen haddr hport hheader.proto

/-- With checksums enabled, a valid packet is valid again after `NatChangeSrc`, `NatChangeDst` and,
while it is alive, `HandleIpv4PktTtl`, with the requested fields and no other change but the
checksums. -/
theorem natRewrite_valid {pkt : Bytes} (h : ValidPacket pkt) :
    (∀ ipAddr port, Translated 12 20 pkt ipAddr port (natChangeSrc true pkt ipAddr port)) ∧
      (∀ ipAddr port, Translated 16 22 pkt ipAddr port (natChangeDst true pkt ipAddr port)) ∧
      ((handleIpv4PktTtl true pkt).2 = true → ValidPacket (handleIpv4PktTtl true pkt).1 ∧
        AgreeOff {8, 10, 11} pkt (handleIpv4PktTtl true pkt).1 ∧
        (byteAt (handleIpv4PktTtl true pkt).1 8).toNat + 1 = (byteAt pkt 8).toNat) := by
  refine ⟨fun ipAddr port => ?_, fun ipAddr port => ?_, fun halive => ?_⟩
  · exact natChange_translated ipAddr port (by omega) (by omega) (.inl rfl) h
  · exact natChange_translated ipAddr port (by omega) (by omega) (.inr rfl) h
  · obtain ⟨hvalid, httl⟩ := handleIpv4PktTtl_valid h halive
    exact ⟨hvalid, handleIpv4PktTtl_agreeOff halive, httl⟩

/-- A UDP packet from 10.0.0.2 to 8.8.8.8 with three bytes of data. -/
def dnsQuery : Bytes :=
  [69, 0, 0, 31, 0, 1, 0, 0, 64, 17, 96, 188, 10, 0, 0, 2, 8, 8, 8, 8, 20, 233, 0, 53, 0, 11,
    204, 166, 1, 2, 3]

theorem natRewrite_valid_dnsQuery : ValidPacket dnsQuery ∧
    Translated 12 20 dnsQuery #v[192, 0, 2, 1] 40000
      (natChangeSrc true dnsQuery #v[192, 0, 2, 1] 40000) ∧
    ValidPacket (handleIpv4PktTtl true dnsQuery).1 := by
  have hvalid : ValidPacket dnsQuery :=
    ⟨⟨ipv4Fields dnsQuery, by decide +kernel, by decide +kernel⟩, by decide +kernel,
      by decide +kernel⟩
  obtain ⟨hsrc, -, httl⟩ := natRewrite_valid hvalid
  exact ⟨hvalid, hsrc _ _, (httl (by decide +kernel)).1⟩

end Halo
