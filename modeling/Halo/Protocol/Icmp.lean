import Halo.Protocol.CheckSum

/-!
# ICMP messages (`protocol/icmp.go`)

`parseIcmpPkt` and `buildIcmpPkt` with the error texts of the source. The checksum of a message is
computed and verified whatever `CheckSumEnable` is.
-/

namespace Halo

/-- `ICMP_REQUEST`. -/
def icmpRequest : UInt8 := 8

/-- `ICMP_REPLY`. -/
def icmpReply : UInt8 := 0

/-- `ICMP_TTL`. -/
def icmpTtl : UInt8 := 11

/-- `IcmpPkt`. -/
structure IcmpPkt where
  payload : Bytes
  icmpType : UInt8
  icmpId : Bytes
  icmpSeq : UInt16
  deriving DecidableEq

/-- `ParseIcmpPkt`. -/
def parseIcmpPkt (pkt : Bytes) : Except String IcmpPkt :=
  if pkt.length < 8 ∨ pkt.length > 1480 then
    .error "icmp packet len must >= 8 and <= 1480 bytes"
  else if byteAt pkt 0 ≠ icmpRequest ∧ byteAt pkt 0 ≠ icmpReply ∧ byteAt pkt 0 ≠ icmpTtl then
    .error "not support type of icmp packet"
  else if byteAt pkt 1 ≠ 0x00 then .error "not support type of icmp packet"
  else if getCheckSum pkt ≠ 0 then .error "check sum error"
  else .ok ⟨pkt.drop 8, byteAt pkt 0, (pkt.take 6).drop 4, wordAt pkt 6⟩

/-- `BuildIcmpPkt` into an empty buffer. -/
def buildIcmpPkt (packet : IcmpPkt) : Except String Bytes :=
  if packet.payload.length > 1472 then .error "payload len must <= 1472"
  else if packet.icmpId.length ≠ 2 then .error "icmp id len is not 2 bytes"
  else
    let pkt := [packet.icmpType, 0x00, 0x00, 0x00] ++ packet.icmpId ++ be16 packet.icmpSeq ++
      packet.payload
    .ok (setWord pkt 2 (getCheckSum pkt))

end Halo
