import Halo.Protocol.Ethernet
import Halo.Protocol.NatRewrite

/-!
# Frames of built packets are parsed back

A packet goes through three builders on its way out (transport, IPv4, Ethernet) and through three
parsers on its way in.

* `parseUdpPkt_build`, `parseTcpPkt_build`, `parseIcmpPkt_build`, `parseIpv4Pkt_build`,
  `parseEthFrm_build`: each parser gives back what its builder got. The IPv4 parser drops the
  padding that the Ethernet builder added.
* `parseFrame_buildFrame`: the whole stack.
-/

namespace Halo

/-- What a builder gives, from its packet by checksum: with the checks on, it is the one that
verifies behind the pseudo header `q`. -/
theorem exists_checkSum (checkSumEnable : Bool) {p : UInt16 → Bytes} {i : Nat} {q : Bytes}
    (hset : ∀ w, setWord (p 0) i w = p w) (hzero : wordAt (p 0) i = 0)
    (heven : (q.length + i) % 2 = 0) (hi : i + 1 < (p 0).length)
    (hlen : q.length + (p 0).length ≤ 131072) :
    ∃ w, (if checkSumEnable then setWord (p 0) i (getCheckSum (q ++ p 0)) else p 0) = p w ∧
      (checkSumEnable = true → getCheckSum (q ++ p w) = 0) := by
  cases checkSumEnable with
  | false => exact ⟨0, rfl, nofun⟩
  | true =>
    refine ⟨_, hset _, fun _ => ?_⟩
    rw [← hset, append_setWord]
    refine getCheckSum_setWord ?_ heven ?_ ((wordAt_append_right i).trans hzero)
    · rwa [List.length_append]
    · rw [List.length_append]
      omega

/-! ## UDP -/

theorem parseUdpPkt_build (checkSumEnable : Bool) (packet : UdpPkt) (addr : Ipv4AddrPair)
    (h : packet.payload.length ≤ 1472) :
    ∃ pkt, buildUdpPkt checkSumEnable packet addr = .ok pkt ∧
      pkt.length = packet.payload.length + 8 ∧
      parseUdpPkt checkSumEnable pkt addr = .ok packet := by
  obtain ⟨payload, srcPort, dstPort⟩ := packet
  dsimp only at h
  set len := UInt16.ofNat (payload.length + 8) with hlen
  have hlenNat : len.toNat = payload.length + 8 := by
    rw [hlen, UInt16.toNat_ofNat']
    omega
  -- the packet with the word `w` as its checksum
  set pkt : UInt16 → Bytes := fun w =>
    be16 srcPort ++ be16 dstPort ++ be16 len ++ be16 w ++ payload with hpkt
  have hpktLen : ∀ w, (pkt w).length = payload.length + 8 := by
    intro w
    simp [hpkt, be16]
  obtain ⟨w, hbuilt, hsum⟩ := exists_checkSum checkSumEnable (p := pkt) (i := 6)
    (q := pseudoHeader addr 0x11 len) (fun _ => rfl) (ofBe16_be16 0) (by simp)
    (by rw [hpktLen]; omega) (by rw [hpktLen, length_pseudoHeader]; omega)
  refine ⟨pkt w, ?_, hpktLen w, ?_⟩
  · rw [buildUdpPkt, if_neg (by dsimp only; omega), ← hbuilt]
    rfl
  · have hword : wordAt (pkt w) 4 = len := ofBe16_be16 len
    have hsrc : wordAt (pkt w) 0 = srcPort := ofBe16_be16 srcPort
    have hdst : wordAt (pkt w) 2 = dstPort := ofBe16_be16 dstPort
    unfold parseUdpPkt
    dsimp only
    rw [if_neg (by rw [hpktLen]; omega), hword, if_neg (by rw [hpktLen]; omega),
      List.take_of_length_le (by rw [hpktLen]; omega), if_neg (fun hbad => hbad.2 (hsum hbad.1)),
      hsrc, hdst]
    rfl

/-! ## TCP -/

/-- The MSS option as the builder writes it. -/
theorem parseTcpOptions_mss {pkt : Bytes} {mss : UInt16} (hkind : byteAt pkt 20 = 2)
    (hlength : byteAt pkt 21 = 4) (hmss : wordAt pkt 22 = mss) (hne : mss ≠ 0)
    (hsyn : byteAt pkt 13 &&& tcpFlagsSyn ≠ 0) : parseTcpOptions pkt 24 24 20 0 = .ok mss := by
  have hfour : (4 : UInt8).toNat = 4 := rfl
  rw [parseTcpOptions]
  dsimp only
  rw [if_neg (by omega), hkind, if_neg (by decide), if_neg (by decide), hlength, hfour,
    if_neg (by omega), if_pos rfl, hmss, if_neg (by tauto), if_pos hsyn, parseTcpOptions,
    if_pos (Nat.le_refl 24)]

theorem parseTcpPkt_build (checkSumEnable : Bool) (packet : TcpPkt) (addr : Ipv4AddrPair)
    (hmss : packet.mss ≠ 0 → packet.flags &&& tcpFlagsSyn ≠ 0)
    (h : packet.payload.length ≤ 1480 - if packet.mss ≠ 0 then 24 else 20) :
    ∃ pkt, buildTcpPkt checkSumEnable packet addr = .ok pkt ∧ pkt.length ≤ 1480 ∧
      parseTcpPkt checkSumEnable pkt addr = .ok packet := by
  obtain ⟨payload, srcPort, dstPort, seqNum, ackNum, flags, window, mss⟩ := packet
  dsimp only at h hmss
  set headerLen := if mss ≠ 0 then 24 else 20 with hheaderLen
  set options : Bytes := if mss ≠ 0 then [2, 4] ++ be16 mss else [] with hoptions
  -- the segment with the word `w` as its checksum
  set pkt : UInt16 → Bytes := fun w =>
    be16 srcPort ++ be16 dstPort ++ be32 seqNum ++ be32 ackNum ++
      [UInt8.ofNat (headerLen / 4) <<< 4, flags] ++ be16 window ++ be16 w ++ [0x00, 0x00] ++
      options ++ payload with hpkt
  -- where the header ends, with and without the option
  obtain ⟨hge, hpktLen, hdrop, hparsed⟩ : (20 ≤ headerLen ∧ headerLen ≤ 24) ∧
      (∀ w, (pkt w).length = payload.length + headerLen) ∧ (∀ w, (pkt w).drop headerLen = payload) ∧
      ∀ w, parseTcpOptions (pkt w) headerLen headerLen 20 0 = .ok mss := by
    by_cases hne : mss ≠ 0
    · simp only [hpkt, hheaderLen, hoptions, if_pos hne]
      refine ⟨by decide, fun _ => by simp [be16, be32], fun _ => rfl, fun _ => ?_⟩
      exact parseTcpOptions_mss rfl rfl (ofBe16_be16 mss) hne (hmss hne)
    · simp only [hpkt, hheaderLen, hoptions, if_neg hne]
      refine ⟨by decide, fun _ => by simp [be16, be32], fun _ => rfl, fun _ => ?_⟩
      rw [not_not.mp hne, parseTcpOptions, if_pos (Nat.le_refl 20)]
  have hheader : ∀ w, tcpHeaderLen (pkt w) = headerLen := by
    intro w
    change ((UInt8.ofNat (headerLen / 4) <<< 4) >>> 4).toNat * 4 = headerLen
    rw [hheaderLen]
    split <;> rfl
  obtain ⟨w, hbuilt, hsum⟩ := exists_checkSum checkSumEnable (p := pkt) (i := 16)
    (q := pseudoHeader addr 0x06 (UInt16.ofNat (pkt 0).length)) (fun _ => rfl) (ofBe16_be16 0)
    (by simp) (by rw [hpktLen]; omega) (by rw [hpktLen, length_pseudoHeader]; omega)
  refine ⟨pkt w, ?_, by rw [hpktLen]; omega, ?_⟩
  · unfold buildTcpPkt
    dsimp only
    rw [if_neg (fun hbad => hmss hbad.1 hbad.2), ← hheaderLen, ← hoptions, if_neg (by omega),
      ← hbuilt]
    rfl
  · have hsrc : wordAt (pkt w) 0 = srcPort := ofBe16_be16 srcPort
    have hdst : wordAt (pkt w) 2 = dstPort := ofBe16_be16 dstPort
    have hseq : u32At (pkt w) 4 = seqNum := ofBe32_be32 seqNum
    have hack : u32At (pkt w) 8 = ackNum := ofBe32_be32 ackNum
    have hwindow : wordAt (pkt w) 14 = window := ofBe16_be16 window
    rw [hpktLen 0, ← hpktLen w] at hsum
    unfold parseTcpPkt
    dsimp only
    rw [if_neg (by rw [hpktLen]; omega), hheader, if_neg (by rw [hpktLen]; omega), hparsed]
    dsimp only
    rw [if_neg (fun hbad => hbad.2 (hsum hbad.1)), hdrop, hsrc, hdst, hseq, hack, hwindow]
    rfl

/-! ## ICMP -/

theorem parseIcmpPkt_build (packet : IcmpPkt)
    (htype : packet.icmpType = icmpRequest ∨ packet.icmpType = icmpReply ∨
      packet.icmpType = icmpTtl) (hid : packet.icmpId.length = 2)
    (h : packet.payload.length ≤ 1472) :
    ∃ pkt, buildIcmpPkt packet = .ok pkt ∧ pkt.length ≤ 1480 ∧ parseIcmpPkt pkt = .ok packet := by
  obtain ⟨payload, icmpType, icmpId, icmpSeq⟩ := packet
  dsimp only at h hid htype
  obtain ⟨id₀, id₁, rfl⟩ := List.length_eq_two.mp hid
  -- the message with the word `w` as its checksum
  set pkt : UInt16 → Bytes := fun w =>
    [icmpType, 0x00] ++ be16 w ++ [id₀, id₁] ++ be16 icmpSeq ++ payload with hpkt
  have hpktLen : ∀ w, (pkt w).length = payload.length + 8 := by
    intro w
    simp [hpkt, be16]
  obtain ⟨w, hbuilt, hsum⟩ := exists_checkSum true (p := pkt) (i := 2) (q := []) (fun _ => rfl)
    (ofBe16_be16 0) rfl (by rw [hpktLen]; omega) (by rw [hpktLen, List.length_nil]; omega)
  refine ⟨pkt w, ?_, by rw [hpktLen]; omega, ?_⟩
  · rw [buildIcmpPkt, if_neg (by dsimp only; omega), if_neg (by simp), ← hbuilt]
    rfl
  · have hseq : wordAt (pkt w) 6 = icmpSeq := ofBe16_be16 icmpSeq
    have htype' : byteAt (pkt w) 0 = icmpType := rfl
    have hcode : byteAt (pkt w) 1 = 0x00 := rfl
    rw [List.nil_append] at hsum
    unfold parseIcmpPkt
    rw [if_neg (by rw [hpktLen]; omega), htype', if_neg (by tauto), if_neg (not_not.mpr hcode),
      if_neg (not_not.mpr (hsum rfl)), hseq]
    rfl

/-! ## IPv4 -/

/-- A built packet is parsed back whatever follows it. -/
theorem parseIpv4Pkt_build (checkSumEnable : Bool) (id : UInt16) (packet : Ipv4Pkt)
    (hproto : packet.ipHeadProto = iphProtoIcmp ∨ packet.ipHeadProto = iphProtoTcp ∨
      packet.ipHeadProto = iphProtoUdp) (h : packet.payload.length ≤ 1480) :
    ∃ pkt, buildIpv4Pkt checkSumEnable id packet = .ok pkt ∧
      pkt.length = packet.payload.length + 20 ∧
      ∀ padding, pkt.length + padding.length ≤ 1500 →
        parseIpv4Pkt checkSumEnable (pkt ++ padding) = .ok packet := by
  obtain ⟨payload, proto, srcAddr, dstAddr⟩ := packet
  dsimp only at h hproto
  have hknown : ¬(proto ≠ iphProtoIcmp ∧ proto ≠ iphProtoTcp ∧ proto ≠ iphProtoUdp) := by tauto
  obtain ⟨s₀, s₁, s₂, s₃, rfl⟩ := srcAddr.exists_bytes
  obtain ⟨d₀, d₁, d₂, d₃, rfl⟩ := dstAddr.exists_bytes
  set len := UInt16.ofNat (payload.length + 20) with hlen
  have hlenNat : len.toNat = payload.length + 20 := by
    rw [hlen, UInt16.toNat_ofNat']
    omega
  -- the header with the word `w` as its checksum
  set header : UInt16 → Bytes := fun w =>
    [0x45, 0x00] ++ be16 len ++ be16 id ++ [0x00, 0x00, 0x80, proto] ++ be16 w ++
      [s₀, s₁, s₂, s₃] ++ [d₀, d₁, d₂, d₃] with hheader
  have hheaderLen : ∀ w, (header w).length = 20 := fun _ => rfl
  obtain ⟨w, hbuilt, hsum⟩ := exists_checkSum checkSumEnable (p := header) (i := 10) (q := [])
    (fun _ => rfl) (ofBe16_be16 0) rfl (by rw [hheaderLen]; omega) (by rw [hheaderLen]; simp)
  have hpktLen : (header w ++ payload).length = payload.length + 20 := by
    rw [List.length_append, hheaderLen, Nat.add_comm]
  refine ⟨header w ++ payload, ?_, hpktLen, fun padding hfit => ?_⟩
  · rw [buildIpv4Pkt, if_neg (by dsimp only; omega), ← hbuilt]
    rfl
  · set pkt := header w ++ payload ++ padding with hpkt
    have hlength : pkt.length = payload.length + 20 + padding.length := by
      rw [hpkt, List.length_append, hpktLen]
    have hword : wordAt pkt 2 = len := ofBe16_be16 len
    have htake : pkt.take 20 = header w := rfl
    have hpayload : (pkt.take len.toNat).drop 20 = payload := by
      rw [hlenNat, hpkt, List.take_left' hpktLen]
      rfl
    have hbyte : byteAt pkt 9 = proto := rfl
    have hflags : byteAt pkt 6 = 0x00 ∧ byteAt pkt 7 = 0x00 := ⟨rfl, rfl⟩
    have hversion : byteAt pkt 0 = 0x45 := rfl
    unfold parseIpv4Pkt
    dsimp only
    rw [if_neg (by omega), if_neg (not_not.mpr hversion), hword, if_neg (by omega),
      if_neg (by simp [hflags]), hbyte, if_neg hknown, htake,
      if_neg (fun hbad => hbad.2 (hsum hbad.1)), hpayload]
    rfl

/-! ## Ethernet -/

/-- A built frame is parsed back, with the padding behind its payload. -/
theorem parseEthFrm_build (packet : EthFrm) (hproto : packet.ethProto = ethProtoIpv4)
    (h : packet.payload.length ≤ 1500) :
    ∃ frm padding, buildEthFrm packet = .ok frm ∧ 60 ≤ frm.length ∧
      packet.payload.length + padding.length ≤ 1500 ∧
      parseEthFrm frm = .ok { packet with payload := packet.payload ++ padding } := by
  obtain ⟨payload, dstMac, srcMac, ethProto⟩ := packet
  dsimp only at h hproto
  subst hproto
  obtain ⟨d₀, d₁, d₂, d₃, d₄, d₅, rfl⟩ := dstMac.exists_bytes
  obtain ⟨s₀, s₁, s₂, s₃, s₄, s₅, rfl⟩ := srcMac.exists_bytes
  set frm : Bytes := [d₀, d₁, d₂, d₃, d₄, d₅] ++ [s₀, s₁, s₂, s₃, s₄, s₅] ++ be16 ethProtoIpv4 ++
    payload with hfrm
  have hfrmLen : frm.length = payload.length + 14 := by
    simp [hfrm, be16]
  set padding : Bytes := List.replicate (60 - frm.length) 0 with hpadding
  have hpaddingLen : padding.length = 60 - frm.length := List.length_replicate
  have hlength : (frm ++ padding).length = frm.length + padding.length := List.length_append
  refine ⟨frm ++ padding, padding, ?_, by omega, by dsimp only; omega, ?_⟩
  · rw [buildEthFrm, if_neg (by dsimp only; omega)]
    rfl
  · have hproto : ofBe16 (byteAt (frm ++ padding) 12) (byteAt (frm ++ padding) 13) = ethProtoIpv4 :=
      ofBe16_be16 ethProtoIpv4
    unfold parseEthFrm
    dsimp only
    rw [if_neg (by omega), hproto, if_pos (by simp)]
    rfl

/-! ## The whole stack -/

/-- A packet of one of the transport protocols. -/
inductive Transport where
  | icmp (packet : IcmpPkt)
  | tcp (packet : TcpPkt)
  | udp (packet : UdpPkt)
  deriving DecidableEq

namespace Transport

/-- The protocol number in the IPv4 header. -/
def ipHeadProto : Transport → UInt8
  | icmp _ => iphProtoIcmp
  | tcp _ => iphProtoTcp
  | udp _ => iphProtoUdp

def build (checkSumEnable : Bool) (addr : Ipv4AddrPair) : Transport → Except String Bytes
  | icmp packet => buildIcmpPkt packet
  | tcp packet => buildTcpPkt checkSumEnable packet addr
  | udp packet => buildUdpPkt checkSumEnable packet addr

/-- The parser that `RxIpv4` picks by the protocol number. -/
def parse (checkSumEnable : Bool) (ipv4 : Ipv4Pkt) : Except String Transport :=
  let addr : Ipv4AddrPair := ⟨ipv4.srcAddr, ipv4.dstAddr⟩
  if ipv4.ipHeadProto = iphProtoIcmp then icmp <$> parseIcmpPkt ipv4.payload
  else if ipv4.ipHeadProto = iphProtoTcp then
    tcp <$> parseTcpPkt checkSumEnable ipv4.payload addr
  else udp <$> parseUdpPkt checkSumEnable ipv4.payload addr

/-- The limits of the builders, and the message types that the ICMP parser knows. -/
def Fits : Transport → Prop
  | icmp packet => (packet.icmpType = icmpRequest ∨ packet.icmpType = icmpReply ∨
      packet.icmpType = icmpTtl) ∧ packet.icmpId.length = 2 ∧ packet.payload.length ≤ 1472
  | tcp packet => (packet.mss ≠ 0 → packet.flags &&& tcpFlagsSyn ≠ 0) ∧
      packet.payload.length ≤ 1480 - if packet.mss ≠ 0 then 24 else 20
  | udp packet => packet.payload.length ≤ 1472

instance : DecidablePred Fits
  | icmp _ => inferInstanceAs (Decidable (_ ∧ _ ∧ _))
  | tcp _ => inferInstanceAs (Decidable (_ ∧ _))
  | udp _ => inferInstanceAs (Decidable (_ ≤ _))

theorem parse_build (checkSumEnable : Bool) (addr : Ipv4AddrPair) {t : Transport} (h : t.Fits) :
    ∃ pkt, t.build checkSumEnable addr = .ok pkt ∧ pkt.length ≤ 1480 ∧
      parse checkSumEnable ⟨pkt, t.ipHeadProto, addr.srcAddr, addr.dstAddr⟩ = .ok t := by
  cases t with
  | icmp packet =>
    obtain ⟨htype, hid, hlen⟩ := h
    obtain ⟨pkt, hbuild, hpkt, hparse⟩ := parseIcmpPkt_build packet htype hid hlen
    refine ⟨pkt, hbuild, hpkt, ?_⟩
    simp [parse, ipHeadProto, hparse, Functor.map, Except.map]
  | tcp packet =>
    obtain ⟨hmss, hlen⟩ := h
    obtain ⟨pkt, hbuild, hpkt, hparse⟩ := parseTcpPkt_build checkSumEnable packet addr hmss hlen
    refine ⟨pkt, hbuild, hpkt, ?_⟩
    simp [parse, ipHeadProto, iphProtoIcmp, iphProtoTcp, hparse, Functor.map, Except.map]
  | udp packet =>
    obtain ⟨pkt, hbuild, hpkt, hparse⟩ := parseUdpPkt_build checkSumEnable packet addr h
    have hlen : packet.payload.length ≤ 1472 := h
    refine ⟨pkt, hbuild, by omega, ?_⟩
    simp [parse, ipHeadProto, iphProtoIcmp, iphProtoTcp, iphProtoUdp, hparse, Functor.map,
      Except.map]

end Transport

/-- What a frame is built from. -/
structure Frame where
  dstMac : MacAddr
  srcMac : MacAddr
  addr : Ipv4AddrPair
  transport : Transport
  deriving DecidableEq

/-- The three builders; `id` is the next value of the packet counter. -/
def buildFrame (checkSumEnable : Bool) (id : UInt16) (f : Frame) : Except String Bytes := do
  let segment ← f.transport.build checkSumEnable f.addr
  let pkt ← buildIpv4Pkt checkSumEnable id
    ⟨segment, f.transport.ipHeadProto, f.addr.srcAddr, f.addr.dstAddr⟩
  buildEthFrm ⟨pkt, f.dstMac, f.srcMac, ethProtoIpv4⟩

/-- The three parsers, as `RxEthernet` and `RxIpv4` call them. -/
def parseFrame (checkSumEnable : Bool) (frm : Bytes) : Except String Frame := do
  let eth ← parseEthFrm frm
  if eth.ethProto ≠ ethProtoIpv4 then .error "not an ipv4 frame"
  let ipv4 ← parseIpv4Pkt checkSumEnable eth.payload
  let transport ← Transport.parse checkSumEnable ipv4
  return ⟨eth.dstMac, eth.srcMac, ⟨ipv4.srcAddr, ipv4.dstAddr⟩, transport⟩

theorem parseFrame_buildFrame (checkSumEnable : Bool) (id : UInt16) (f : Frame)
    (h : f.transport.Fits) :
    ∃ frm, buildFrame checkSumEnable id f = .ok frm ∧ 60 ≤ frm.length ∧
      parseFrame checkSumEnable frm = .ok f := by
  obtain ⟨dstMac, srcMac, addr, transport⟩ := f
  obtain ⟨segment, hbuild, hlen, hparse⟩ := Transport.parse_build checkSumEnable addr h
  obtain ⟨pkt, hbuildIp, hlenIp, hparseIp⟩ := parseIpv4Pkt_build checkSumEnable id
    ⟨segment, transport.ipHeadProto, addr.srcAddr, addr.dstAddr⟩
    (by cases transport <;> simp [Transport.ipHeadProto]) hlen
  dsimp only at hlenIp
  obtain ⟨frm, padding, hbuildEth, hmin, hfit, hparseEth⟩ := parseEthFrm_build
    ⟨pkt, dstMac, srcMac, ethProtoIpv4⟩ rfl (by dsimp only; omega)
  refine ⟨frm, ?_, hmin, ?_⟩
  · simp only [buildFrame, hbuild, hbuildIp, bind, Except.bind]
    exact hbuildEth
  · simp [parseFrame, hparseEth, hparseIp padding hfit, hparse, bind, Except.bind, pure,
      Except.pure]

/-- A SYN segment with an MSS and one byte of payload, which is padded. -/
theorem parseFrame_buildFrame_syn :
    let f : Frame := ⟨#v[2, 0, 0, 0, 0, 2], #v[2, 0, 0, 0, 0, 1],
      ⟨#v[192, 168, 1, 2], #v[192, 168, 1, 1]⟩,
      .tcp ⟨[0x41], 40000, 80, 0xfffffff0, 0, tcpFlagsSyn, 16384, 1460⟩⟩
    f.transport.Fits ∧ ∃ frm, buildFrame true 7 f = .ok frm ∧ 60 ≤ frm.length ∧
      parseFrame true frm = .ok f :=
  ⟨by decide, parseFrame_buildFrame true 7 _ (by decide)⟩

end Halo
