import Halo.Protocol.Addr
import Halo.Protocol.CheckSum

/-!
# IPv4 packets and their translation (`protocol/ipv4.go`)

`parseIpv4Pkt` and `buildIpv4Pkt` with the error texts of the source, and the functions that change
a packet in place: `handleIpv4PktTtl`, `natChangeSrc` and `natChangeDst`, with the checksums they
compute again. `CheckSumEnable` is a parameter.

* `reCalcIpv4CheckSum_agreeOff` and its siblings: a checksum that is computed again changes its own
  two bytes only.
* `handleIpv4PktTtl_alive`, `handleIpv4PktTtl_agreeOff`: what a live packet loses.
-/

namespace Halo

/-- `IPH_PROTO_ICMP`. -/
def iphProtoIcmp : UInt8 := 1

/-- `IPH_PROTO_TCP`. -/
def iphProtoTcp : UInt8 := 6

/-- `IPH_PROTO_UDP`. -/
def iphProtoUdp : UInt8 := 17

/-- The address at an index. -/
def addrAt (pkt : Bytes) (i : Nat) : Ipv4Addr := vecAt 4 pkt i

/-- `Ipv4Pkt`. -/
structure Ipv4Pkt where
  payload : Bytes
  ipHeadProto : UInt8
  srcAddr : Ipv4Addr
  dstAddr : Ipv4Addr
  deriving DecidableEq

/-- `ParseIpv4Pkt`. -/
def parseIpv4Pkt (checkSumEnable : Bool) (pkt : Bytes) : Except String Ipv4Pkt :=
  if pkt.length < 20 ∨ pkt.length > 1500 then
    .error "ip packet len must >= 20 and <= 1500 bytes"
  else if byteAt pkt 0 ≠ 0x45 then .error "not support type of ip packet"
  else
    let totalLen := (wordAt pkt 2).toNat
    if totalLen < 20 ∨ totalLen > pkt.length then .error "invalid ip total length"
    else if (byteAt pkt 6 ≠ 0x40 ∧ byteAt pkt 6 ≠ 0x00) ∨ byteAt pkt 7 ≠ 0x00 then
      .error "not support ip frg"
    else if byteAt pkt 9 ≠ iphProtoIcmp ∧ byteAt pkt 9 ≠ iphProtoTcp ∧
        byteAt pkt 9 ≠ iphProtoUdp then
      .error "unknown ip protocol"
    else if checkSumEnable ∧ getCheckSum (pkt.take 20) ≠ 0 then .error "header check sum error"
    else .ok ⟨(pkt.take totalLen).drop 20, byteAt pkt 9, addrAt pkt 12, addrAt pkt 16⟩

/-- `BuildIpv4Pkt` into an empty buffer; `id` is the next value of the packet counter `iphId`. -/
def buildIpv4Pkt (checkSumEnable : Bool) (id : UInt16) (packet : Ipv4Pkt) : Except String Bytes :=
  if packet.payload.length > 1480 then .error "payload len must <= 1480 bytes"
  else
    let ipPktLen := UInt16.ofNat (packet.payload.length + 20)
    let header := [0x45, 0x00] ++ be16 ipPktLen ++ be16 id ++
      [0x00, 0x00, 0x80, packet.ipHeadProto, 0x00, 0x00] ++ packet.srcAddr.toList ++
      packet.dstAddr.toList
    let header := if checkSumEnable then setWord header 10 (getCheckSum header) else header
    .ok (header ++ packet.payload)

/-- `ReCalcIpv4CheckSum`. -/
def reCalcIpv4CheckSum (checkSumEnable : Bool) (pkt : Bytes) : Bytes :=
  if pkt.length < 20 then pkt
  else
    let pkt := setWord pkt 10 0
    if !checkSumEnable then pkt else setWord pkt 10 (getCheckSum (pkt.take 20))

/-- `HandleIpv4PktTtl`: the packet, and whether it is alive. -/
def handleIpv4PktTtl (checkSumEnable : Bool) (pkt : Bytes) : Bytes × Bool :=
  if pkt.length < 9 then ([], false)
  else if byteAt pkt 8 ≤ 1 then (pkt, false)
  else (reCalcIpv4CheckSum checkSumEnable (pkt.set 8 (byteAt pkt 8 - 1)), true)

/-- `ReCalcIcmpCheckSum`. -/
def reCalcIcmpCheckSum (pkt : Bytes) : Bytes :=
  if pkt.length < 24 then pkt
  else
    let pkt := setWord pkt 22 0
    setWord pkt 22 (getCheckSum (pkt.drop 20))

/-- The checksum of a transport protocol: it is at the index `sumAt`, and covers a pseudo header. -/
def reCalcTransportCheckSum (sumAt : Nat) (proto : UInt8) (checkSumEnable : Bool) (pkt : Bytes) :
    Bytes :=
  if pkt.length < sumAt + 2 then pkt
  else
    let pkt := setWord pkt sumAt 0
    if !checkSumEnable then pkt
    else
      let fakeHeader := (pkt.take 20).drop 12 ++ [0x00, proto] ++ be16 (wordAt pkt 2 - 20)
      setWord pkt sumAt (getCheckSum (fakeHeader ++ pkt.drop 20))

/-- `ReCalcTcpCheckSum`. -/
def reCalcTcpCheckSum : (checkSumEnable : Bool) → Bytes → Bytes := reCalcTransportCheckSum 36 0x06

/-- `ReCalcUdpCheckSum`. -/
def reCalcUdpCheckSum : (checkSumEnable : Bool) → Bytes → Bytes := reCalcTransportCheckSum 26 0x11

/-- `NatGetSrcDstPort`; ICMP has its identifier as both ports. -/
def natGetSrcDstPort (pkt : Bytes) : UInt16 × UInt16 :=
  if pkt.length < 26 then (0, 0)
  else if byteAt pkt 9 = iphProtoIcmp then (wordAt pkt 24, wordAt pkt 24)
  else if byteAt pkt 9 = iphProtoTcp then (wordAt pkt 20, wordAt pkt 22)
  else if byteAt pkt 9 = iphProtoUdp then (wordAt pkt 20, wordAt pkt 22)
  else (0, 0)

/-- A translation: the address at `addrIndex` and the port at `portIndex` are set. -/
def natChange (addrIndex portIndex : Nat) (checkSumEnable : Bool) (pkt : Bytes) (ipAddr : Ipv4Addr)
    (port : UInt16) : Bytes :=
  if pkt.length < 26 then pkt
  else
    let pkt := reCalcIpv4CheckSum checkSumEnable (setAddr pkt addrIndex ipAddr)
    if byteAt pkt 9 = iphProtoIcmp then reCalcIcmpCheckSum (setWord pkt 24 port)
    else if byteAt pkt 9 = iphProtoTcp then
      reCalcTcpCheckSum checkSumEnable (setWord pkt portIndex port)
    else if byteAt pkt 9 = iphProtoUdp then
      reCalcUdpCheckSum checkSumEnable (setWord pkt portIndex port)
    else pkt

/-- `NatChangeSrc`. -/
def natChangeSrc : (checkSumEnable : Bool) → Bytes → Ipv4Addr → UInt16 → Bytes := natChange 12 20

/-- `NatChangeDst`. -/
def natChangeDst : (checkSumEnable : Bool) → Bytes → Ipv4Addr → UInt16 → Bytes := natChange 16 22

/-! ## Addresses after a write -/

section

variable {pkt : Bytes} {i j : Nat} {ipAddr : Ipv4Addr}

@[simp] theorem length_setAddr (pkt : Bytes) (i : Nat) (ipAddr : Ipv4Addr) :
    (setAddr pkt i ipAddr).length = pkt.length := by
  simp [setAddr]

theorem AgreeOff.setAddr (pkt : Bytes) (i : Nat) (ipAddr : Ipv4Addr) :
    AgreeOff (Set.Ico i (i + 4)) pkt (setAddr pkt i ipAddr) := by
  refine ⟨length_setAddr pkt i ipAddr, fun j hj => ?_⟩
  rw [Set.mem_Ico] at hj
  unfold Halo.setAddr
  rw [byteAt_set_ne (by omega), byteAt_set_ne (by omega), byteAt_set_ne (by omega),
    byteAt_set_ne (by omega)]

theorem addrAt_setAddr_self (h : i + 3 < pkt.length) :
    addrAt (setAddr pkt i ipAddr) i = ipAddr := by
  apply Vector.ext
  intro k hk
  have hget : (addrAt (setAddr pkt i ipAddr) i)[k] = byteAt (setAddr pkt i ipAddr) (i + k) := by
    simp [addrAt, vecAt]
  rw [hget]
  unfold setAddr
  interval_cases k
  · rw [byteAt_set_ne (by omega), byteAt_set_ne (by omega), byteAt_set_ne (by omega)]
    exact byteAt_set_self (by omega)
  · rw [byteAt_set_ne (by omega), byteAt_set_ne (by omega), byteAt_set_self (by simp; omega)]
  · rw [byteAt_set_ne (by omega), byteAt_set_self (by simp; omega)]
  · rw [byteAt_set_self (by simp; omega)]

end

/-! ## What a checksum changes -/

theorem reCalcIpv4CheckSum_agreeOff (checkSumEnable : Bool) (pkt : Bytes) :
    AgreeOff {10, 11} pkt (reCalcIpv4CheckSum checkSumEnable pkt) := by
  unfold reCalcIpv4CheckSum
  dsimp only
  split
  · exact .refl _ pkt
  split
  · exact .setWord pkt 10 0
  · rw [setWord_setWord]
    exact .setWord pkt 10 _

theorem reCalcIcmpCheckSum_agreeOff (pkt : Bytes) :
    AgreeOff {22, 23} pkt (reCalcIcmpCheckSum pkt) := by
  unfold reCalcIcmpCheckSum
  dsimp only
  split
  · exact .refl _ pkt
  · rw [setWord_setWord]
    exact .setWord pkt 22 _

theorem reCalcTransportCheckSum_agreeOff (sumAt : Nat) (proto : UInt8) (checkSumEnable : Bool)
    (pkt : Bytes) : AgreeOff {sumAt, sumAt + 1} pkt
      (reCalcTransportCheckSum sumAt proto checkSumEnable pkt) := by
  unfold reCalcTransportCheckSum
  dsimp only
  split
  · exact .refl _ pkt
  split
  · exact .setWord pkt sumAt 0
  · rw [setWord_setWord]
    exact .setWord pkt sumAt _

/-- A live packet loses one from its time to live, and its header checksum changes. -/
theorem handleIpv4PktTtl_alive {checkSumEnable : Bool} {pkt : Bytes}
    (h : (handleIpv4PktTtl checkSumEnable pkt).2 = true) :
    9 ≤ pkt.length ∧ 1 < byteAt pkt 8 ∧ (handleIpv4PktTtl checkSumEnable pkt).1 =
      reCalcIpv4CheckSum checkSumEnable (pkt.set 8 (byteAt pkt 8 - 1)) := by
  unfold handleIpv4PktTtl at h ⊢
  split at h
  · cases h
  rename_i hlen
  rw [if_neg hlen]
  split at h
  · cases h
  rename_i httl
  rw [if_neg httl]
  exact ⟨by omega, UInt8.not_le.mp httl, rfl⟩

theorem handleIpv4PktTtl_agreeOff {checkSumEnable : Bool} {pkt : Bytes}
    (h : (handleIpv4PktTtl checkSumEnable pkt).2 = true) :
    AgreeOff {8, 10, 11} pkt (handleIpv4PktTtl checkSumEnable pkt).1 := by
  obtain ⟨-, -, heq⟩ := handleIpv4PktTtl_alive h
  rw [heq]
  exact (AgreeOff.set pkt 8 _).trans (reCalcIpv4CheckSum_agreeOff checkSumEnable _)

end Halo
