import Halo.Base.Bytes
import Halo.Base.Table
import Halo.Protocol.Addr

/-!
# DHCP messages (`protocol/dhcp.go`)

The constants and records of DHCP messages, their parser and their encoder. `parseDhcpOption` skips
unknown options and those of a wrong length and stops at a truncated one, `parseDhcpPkt` reads the
fixed part. `buildDhcpOption` writes the options in the order in which the map is iterated, which
the language does not fix: the order is a parameter.
-/

namespace Halo

/-- `DhcpClientPort`. -/
def dhcpClientPort : UInt16 := 68
/-- `DhcpServerPort`. -/
def dhcpServerPort : UInt16 := 67

namespace DhcpOptionType

/-- `DhcpOptionSubnetMask`. -/
def subnetMask : UInt8 := 1
/-- `DhcpOptionRouter`. -/
def router : UInt8 := 3
/-- `DhcpOptionDomainNameServer`. -/
def domainNameServer : UInt8 := 6
/-- `DhcpOptionHostName`. -/
def hostName : UInt8 := 12
/-- `DhcpOptionReqIpAddr`. -/
def reqIpAddr : UInt8 := 50
/-- `DhcpOptionIpAddrLeaseTime`. -/
def ipAddrLeaseTime : UInt8 := 51
/-- `DhcpOptionMsgType`. -/
def msgType : UInt8 := 53
/-- `DhcpOptionServerIdentifier`. -/
def serverIdentifier : UInt8 := 54
/-- `DhcpOptionParameterRequestList`. -/
def parameterRequestList : UInt8 := 55
/-- `DhcpOptionRenewalTimeValue`. -/
def renewalTimeValue : UInt8 := 58
/-- `DhcpOptionRebindingTimeValue`. -/
def rebindingTimeValue : UInt8 := 59
/-- `DhcpOptionClientIdentifier`. -/
def clientIdentifier : UInt8 := 61

end DhcpOptionType

namespace DhcpMsgType

/-- `DhcpOptionMsgTypeDiscover`. -/
def discover : UInt8 := 1
/-- `DhcpOptionMsgTypeOffer`. -/
def offer : UInt8 := 2
/-- `DhcpOptionMsgTypeRequest`. -/
def request : UInt8 := 3
/-- `DhcpOptionMsgTypeAck`. -/
def ack : UInt8 := 5
/-- `DhcpOptionMsgTypeNak`. -/
def nak : UInt8 := 6
/-- `DhcpOptionMsgTypeRelease`. -/
def release : UInt8 := 7

end DhcpMsgType

/-- `DhcpBootMsgTypeRequest`. -/
def dhcpBootMsgTypeRequest : UInt8 := 1
/-- `DhcpBootMsgTypeReply`. -/
def dhcpBootMsgTypeReply : UInt8 := 2

/-- `DhcpMagicCookie`. -/
def dhcpMagicCookie : Bytes := [0x63, 0x82, 0x53, 0x63]

/-- `DhcpOption`; a field that an option does not use is zero. -/
structure DhcpOption where
  type : UInt8
  msgType : UInt8 := 0
  ipAddr : Ipv4Addr := zeroIpv4Addr
  subnetMask : Ipv4Addr := zeroIpv4Addr
  serverIpAddr : Ipv4Addr := zeroIpv4Addr
  timeValue : UInt32 := 0
  hostName : Bytes := []
  macAddr : MacAddr := zeroMacAddr
  deriving DecidableEq

/-- `DhcpPkt`. -/
structure DhcpPkt where
  bootMsgType : UInt8
  transactionId : Bytes
  clientIpAddr : Ipv4Addr := zeroIpv4Addr
  yourIpAddr : Ipv4Addr := zeroIpv4Addr
  clientMacAddr : MacAddr
  optionMap : Table UInt8 DhcpOption

/-- The value that `ParseDhcpOption` stores for the option `code` with these data; `none` when the
option is unknown or has a wrong length. -/
def dhcpOptionValue (code : UInt8) (data : Bytes) : Option DhcpOption :=
  if code = DhcpOptionType.subnetMask then
    if data.length ≠ 4 then none else some { type := code, subnetMask := vecAt 4 data 0 }
  else if code = DhcpOptionType.router ∨ code = DhcpOptionType.domainNameServer then
    if data.length < 4 ∨ data.length % 4 ≠ 0 then none
    else some { type := code, ipAddr := vecAt 4 data 0 }
  else if code = DhcpOptionType.hostName then some { type := code, hostName := data }
  else if code = DhcpOptionType.reqIpAddr ∨ code = DhcpOptionType.serverIdentifier then
    if data.length ≠ 4 then none else some { type := code, ipAddr := vecAt 4 data 0 }
  else if code = DhcpOptionType.msgType then
    if data.length ≠ 1 then none else some { type := code, msgType := byteAt data 0 }
  else none

/-- The loop of `ParseDhcpOption` over the remaining bytes; each round drops at least one. -/
def parseDhcpOptionLoop : (fuel : Nat) → Bytes → Table UInt8 DhcpOption → Table UInt8 DhcpOption
  | 0, _, m => m
  | _ + 1, [], m => m
  | fuel + 1, code :: rest, m =>
    if code = 0xff then m
    else if code = 0 then parseDhcpOptionLoop fuel rest m
    else
      match rest with
      | [] => m
      | length :: rest =>
        if length.toNat > rest.length then m
        else
          let m := match dhcpOptionValue code (rest.take length.toNat) with
            | some o => m.insert code o
            | none => m
          parseDhcpOptionLoop fuel (rest.drop length.toNat) m

/-- `ParseDhcpOption`. -/
def parseDhcpOption (optionData : Bytes) : Table UInt8 DhcpOption :=
  parseDhcpOptionLoop optionData.length optionData ∅

/-- `ParseDhcpPkt`. -/
def parseDhcpPkt (pkt : Bytes) : Except String DhcpPkt :=
  if pkt.length < 240 then .error "dhcp packet len < 240 bytes"
  else if (pkt.drop 236).take 4 ≠ dhcpMagicCookie then .error "dhcp magic cookie error"
  else .ok {
    bootMsgType := byteAt pkt 0
    transactionId := (pkt.drop 4).take 4
    clientIpAddr := vecAt 4 pkt 12
    yourIpAddr := vecAt 4 pkt 16
    clientMacAddr := vecAt 6 pkt 28
    optionMap := parseDhcpOption (pkt.drop 240) }

/-- The bytes that one round of `BuildDhcpOption` appends; an option that is not supported has
none. -/
def encodeDhcpOption (o : DhcpOption) : Bytes :=
  if o.type = DhcpOptionType.subnetMask then o.type :: 4 :: o.subnetMask.toList
  else if o.type = DhcpOptionType.router then o.type :: 4 :: o.serverIpAddr.toList
  else if o.type = DhcpOptionType.domainNameServer then o.type :: 4 :: o.serverIpAddr.toList
  else if o.type = DhcpOptionType.reqIpAddr then o.type :: 4 :: o.ipAddr.toList
  else if o.type = DhcpOptionType.ipAddrLeaseTime then o.type :: 4 :: be32 o.timeValue
  else if o.type = DhcpOptionType.msgType then [o.type, 1, o.msgType]
  else if o.type = DhcpOptionType.serverIdentifier then o.type :: 4 :: o.serverIpAddr.toList
  else if o.type = DhcpOptionType.parameterRequestList then [o.type, 3, 1, 3, 6]
  else if o.type = DhcpOptionType.renewalTimeValue then o.type :: 4 :: be32 o.timeValue
  else if o.type = DhcpOptionType.rebindingTimeValue then o.type :: 4 :: be32 o.timeValue
  else if o.type = DhcpOptionType.clientIdentifier then o.type :: 7 :: 1 :: o.macAddr.toList
  else []

/-- `BuildDhcpOption`, with the entries of the map in the order of the iteration. -/
def buildDhcpOption (order : List (Σ _ : UInt8, DhcpOption)) : Bytes :=
  order.flatMap (fun e => encodeDhcpOption e.2) ++ [0xff]

/-- `BuildDhcpPkt`, with the order in which the option map is iterated. -/
def buildDhcpPkt (pkt : Bytes) (packet : DhcpPkt) (order : List (Σ _ : UInt8, DhcpOption)) :
    Except String Bytes :=
  if packet.transactionId.length ≠ 4 then .error "transaction id len is not 4 bytes"
  else
    .ok (pkt ++ [packet.bootMsgType, 0x01, 0x06, 0x00] ++ packet.transactionId ++ [0x00, 0x00] ++
      [0x80, 0x00] ++ packet.clientIpAddr.toList ++ packet.yourIpAddr.toList ++
      [0x00, 0x00, 0x00, 0x00] ++ [0x00, 0x00, 0x00, 0x00] ++ packet.clientMacAddr.toList ++
      List.replicate 10 0 ++ List.replicate 64 0 ++ List.replicate 128 0 ++ dhcpMagicCookie ++
      buildDhcpOption order)

end Halo
