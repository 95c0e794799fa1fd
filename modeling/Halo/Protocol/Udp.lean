import Halo.Protocol.Addr
import Halo.Protocol.CheckSum

/-!
# UDP packets (`protocol/udp.go`)

`parseUdpPkt` and `buildUdpPkt` with the error texts of the source, and the pseudo header that the
checksums of UDP and TCP cover (`pseudoHeader`).
-/

namespace Halo

/-- `Ipv4AddrPair`. -/
structure Ipv4AddrPair where
  srcAddr : Ipv4Addr
  dstAddr : Ipv4Addr
  deriving DecidableEq

/-- The `fakeHeader` of the source: the addresses, the protocol and the length. -/
def pseudoHeader (addr : Ipv4AddrPair) (proto : UInt8) (totalLen : UInt16) : Bytes :=
  addr.srcAddr.toList ++ addr.dstAddr.toList ++ [0x00, proto] ++ be16 totalLen

@[simp] theorem length_pseudoHeader (addr : Ipv4AddrPair) (proto : UInt8) (totalLen : UInt16) :
    (pseudoHeader addr proto totalLen).length = 12 := by
  simp [pseudoHeader, be16]

/-- `UdpPkt`. -/
structure UdpPkt where
  payload : Bytes
  srcPort : UInt16
  dstPort : UInt16
  deriving DecidableEq

/-- `ParseUdpPkt`. -/
def parseUdpPkt (checkSumEnable : Bool) (pkt : Bytes) (addr : Ipv4AddrPair) :
    Except String UdpPkt :=
  if pkt.length < 8 ∨ pkt.length > 1480 then
    .error "udp packet len must >= 8 and <= 1480 bytes"
  else
    let totalLen := wordAt pkt 4
    if totalLen.toNat < 8 ∨ totalLen.toNat > pkt.length then .error "invalid udp total length"
    else if checkSumEnable ∧
        getCheckSum (pseudoHeader addr 0x11 totalLen ++ pkt.take totalLen.toNat) ≠ 0 then
      .error "check sum error"
    else .ok ⟨(pkt.take totalLen.toNat).drop 8, wordAt pkt 0, wordAt pkt 2⟩

/-- `BuildUdpPkt` into an empty buffer. -/
def buildUdpPkt (checkSumEnable : Bool) (packet : UdpPkt) (addr : Ipv4AddrPair) :
    Except String Bytes :=
  if packet.payload.length > 1472 then .error "payload len must <= 1472"
  else
    let udpPktLen := UInt16.ofNat (packet.payload.length + 8)
    let pkt := be16 packet.srcPort ++ be16 packet.dstPort ++ be16 udpPktLen ++ [0x00, 0x00] ++
      packet.payload
    .ok (
      if checkSumEnable then setWord pkt 6 (getCheckSum (pseudoHeader addr 0x11 udpPktLen ++ pkt))
      else pkt)

end Halo
