import Halo.Base.Bytes
import Halo.Protocol.Addr

/-!
# Ethernet frames (`protocol/ethernet.go`)

`parseEthFrm` and `buildEthFrm`, with the error texts of the source. A parsed payload keeps the
padding of a short frame, and it fits into a frame again (`payload_length_of_parse`,
`buildEthFrm_ok`).
-/

namespace Halo

/-- `IEEE_802_3`. -/
def ieee8023 : UInt16 := 0x05dc
/-- `ETH_PROTO_IPV4`. -/
def ethProtoIpv4 : UInt16 := 0x0800
/-- `ETH_PROTO_ARP`. -/
def ethProtoArp : UInt16 := 0x0806
/-- `ETH_PROTO_IPV6`. -/
def ethProtoIpv6 : UInt16 := 0x86dd

/-- `EthFrm`. -/
structure EthFrm where
  payload : Bytes
  dstMac : MacAddr
  srcMac : MacAddr
  ethProto : UInt16
  deriving DecidableEq

/-- `ParseEthFrm`. -/
def parseEthFrm (frm : Bytes) : Except String EthFrm :=
  if frm.length < 42 ∨ frm.length > 1514 then
    .error "ethernet frame len must >= 42 and <= 1514 bytes"
  else
    let proto := ofBe16 (byteAt frm 12) (byteAt frm 13)
    if proto = ieee8023 ∨ proto = ethProtoIpv4 ∨ proto = ethProtoArp ∨ proto = ethProtoIpv6 then
      .ok ⟨frm.drop 14, vecAt 6 frm 0, vecAt 6 frm 6, proto⟩
    else .error "unknown ethernet protocol"

/-- `BuildEthFrm` into an empty buffer: a frame shorter than 60 bytes is padded with zeros. -/
def buildEthFrm (packet : EthFrm) : Except String Bytes :=
  if packet.payload.length > 1500 then .error "payload len must <= 1500 bytes"
  else
    let frm := packet.dstMac.toList ++ packet.srcMac.toList ++ be16 packet.ethProto ++
      packet.payload
    .ok (frm ++ List.replicate (60 - frm.length) 0)

/-- The payload of a parsed frame fits into a frame. -/
theorem payload_length_of_parse {frm : Bytes} {eth : EthFrm} (h : parseEthFrm frm = .ok eth) :
    eth.payload.length ≤ 1500 := by
  simp only [parseEthFrm] at h
  split at h
  · cases h
  · split at h
    · cases h
      simp only [List.length_drop]
      omega
    · cases h

/-- A payload that fits is built into a frame. -/
theorem buildEthFrm_ok {packet : EthFrm} (h : packet.payload.length ≤ 1500) :
    ∃ frm, buildEthFrm packet = .ok frm := by
  rw [buildEthFrm, if_neg (by omega)]
  exact ⟨_, rfl⟩

end Halo
