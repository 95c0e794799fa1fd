import Halo.Base.Trace
import Halo.Mem.StaticString
import Halo.Protocol.Dhcp

/-!
# The DHCP server (`engine/dhcp_engine.go`)

`rxDhcp` is the server side of `NetIf.RxDhcp`: the filters and the three messages DISCOVER,
REQUEST and RELEASE. `dhcpLeaseClear` is one round of the sweeper. The fields of the interface
that the server reads are in `DhcpServer`; the hash that chooses where the address search starts is
the parameter `macHash`, since nothing but the order of the search depends on it.

A lease record is shared by the table and the code that has looked it up, and the table has it
under one key only: the records are values of the table here.

* `DhcpEvent`, `DhcpServer.step`: the runs of a server, with packets of any content, sweeps, and
  a clock. The allocator and the table may fail at any packet.
-/

namespace Halo

/-- `DhcpLeaseTime`, in seconds. -/
def dhcpLeaseTime : UInt32 := 3600
/-- `DhcpOfferTime`, in seconds. -/
def dhcpOfferTime : UInt32 := 60

/-- `DhcpLease`. -/
structure DhcpLease where
  ipAddr : Ipv4Addr
  macAddr : MacAddr
  /-- When the formal lease ends, `0` before it is acknowledged. -/
  expTime : UInt32 := 0
  hostName : StaticString64 := .replicate 64 0
  /-- When the offer ends, `0` without one. -/
  offerExpTime : UInt32 := 0
  offerTransactionId : Vector UInt8 4 := .replicate 4 0
  deriving DecidableEq

/-- The fields of `NetIf` and `Router` that the server uses. -/
structure DhcpServer where
  dhcpServerEnable : Bool
  ipAddr : Ipv4Addr
  networkMask : Ipv4Addr
  dnsServerAddr : Ipv4Addr
  dhcpLeaseTable : Table UInt32 DhcpLease
  timeNow : UInt32

/-- A message that the server hands to `TxDhcp`, with its destination address. -/
structure DhcpReply where
  packet : DhcpPkt
  dst : Ipv4Addr

/-- What the allocator does at one packet: whether there is memory for a lease, and whether the
table takes it. -/
structure DhcpAlloc where
  mallocOk : Bool
  setOk : Bool

namespace DhcpServer

variable (macHash : MacAddr → UInt64)

/-- `selfIpAddrU`. -/
def selfU (s : DhcpServer) : UInt32 := ipAddrToU s.ipAddr
/-- `networkMaskU`. -/
def maskU (s : DhcpServer) : UInt32 := ipAddrToU s.networkMask
/-- `networkU`. -/
def networkU (s : DhcpServer) : UInt32 := s.selfU &&& s.maskU
/-- `broadcastU`. -/
def broadcastU (s : DhcpServer) : UInt32 := s.networkU ||| ~~~s.maskU

/-- The address is a host address of the subnet and not the server's own. -/
def inPool (s : DhcpServer) (ipAddrU : UInt32) : Bool :=
  !(ipAddrU ≤ s.networkU || ipAddrU ≥ s.broadcastU || ipAddrU = s.selfU) &&
    ipAddrU &&& s.maskU = s.networkU

/-- The loop of DISCOVER over the leases: the record of the client to use again. A live formal
lease ends the loop; of several offers the first one visited is kept. -/
def ownLease (s : DhcpServer) (mac : MacAddr) :
    List (Σ _ : UInt32, DhcpLease) → Option (UInt32 × DhcpLease) → Option (UInt32 × DhcpLease)
  | [], found => found
  | ⟨ipAddrU, lease⟩ :: es, found =>
    if lease.macAddr ≠ mac then ownLease s mac es found
    else if lease.expTime ≤ s.timeNow ∧ lease.offerExpTime ≤ s.timeNow then ownLease s mac es found
    else if ¬ s.inPool ipAddrU then ownLease s mac es found
    else
      let found := if found.isNone ∨ lease.expTime > s.timeNow then some (ipAddrU, lease) else found
      if lease.expTime ≤ s.timeNow then ownLease s mac es found else found

/-- The address that the search examines at an offset. -/
def candidate (s : DhcpServer) (hostCount start offset : UInt64) : UInt32 :=
  (s.networkU.toUInt64 + 1 + (start + offset) % hostCount).toUInt32

/-- The search loop of DISCOVER, with the remaining rounds: a free address, and the table without
the expired record of that address. -/
def search (s : DhcpServer) (hostCount start : UInt64) :
    (k : Nat) → (offset : UInt64) → Option (UInt32 × Table UInt32 DhcpLease)
  | 0, _ => none
  | k + 1, offset =>
    let ipAddrU := s.candidate hostCount start offset
    if ipAddrU = s.selfU ∨ ipAddrU &&& s.maskU ≠ s.networkU then
      search s hostCount start k (offset + 1)
    else
      match s.dhcpLeaseTable.lookup ipAddrU with
      | none => some (ipAddrU, s.dhcpLeaseTable)
      | some lease =>
        if lease.expTime > s.timeNow ∨ lease.offerExpTime > s.timeNow then
          search s hostCount start k (offset + 1)
        else some (ipAddrU, s.dhcpLeaseTable.erase ipAddrU)

/-- The address for a client without a record of its own. -/
def chooseAddr (s : DhcpServer) (mac : MacAddr) : Option (UInt32 × Table UInt32 DhcpLease) :=
  if s.broadcastU.toUInt64 - s.networkU.toUInt64 ≤ 1 then none
  else
    let hostCount := s.broadcastU.toUInt64 - s.networkU.toUInt64 - 1
    s.search hostCount (macHash mac % hostCount) hostCount.toNat 0

/-- The options that OFFER and ACK carry. -/
def leaseOptions (s : DhcpServer) (msgType : UInt8) : Table UInt8 DhcpOption :=
  (∅ : Table UInt8 DhcpOption)
    |>.insert DhcpOptionType.msgType { type := DhcpOptionType.msgType, msgType := msgType }
    |>.insert DhcpOptionType.subnetMask
      { type := DhcpOptionType.subnetMask, subnetMask := s.networkMask }
    |>.insert DhcpOptionType.router { type := DhcpOptionType.router, serverIpAddr := s.ipAddr }
    |>.insert DhcpOptionType.domainNameServer
      { type := DhcpOptionType.domainNameServer, serverIpAddr := s.dnsServerAddr }
    |>.insert DhcpOptionType.ipAddrLeaseTime
      { type := DhcpOptionType.ipAddrLeaseTime, timeValue := dhcpLeaseTime }
    |>.insert DhcpOptionType.rebindingTimeValue
      { type := DhcpOptionType.rebindingTimeValue, timeValue := 3150 }
    |>.insert DhcpOptionType.renewalTimeValue
      { type := DhcpOptionType.renewalTimeValue, timeValue := 1800 }
    |>.insert DhcpOptionType.serverIdentifier
      { type := DhcpOptionType.serverIdentifier, serverIpAddr := s.ipAddr }

/-- The OFFER of an address. -/
def offerReply (s : DhcpServer) (packet : DhcpPkt) (clientIpAddr : Ipv4Addr) : DhcpReply where
  packet := {
    bootMsgType := dhcpBootMsgTypeReply
    transactionId := packet.transactionId
    yourIpAddr := clientIpAddr
    clientMacAddr := packet.clientMacAddr
    optionMap := s.leaseOptions DhcpMsgType.offer }
  dst := broadcastIpv4Addr

/-- The ACK of an address. -/
def ackReply (s : DhcpServer) (packet : DhcpPkt) (reqIpAddr dst : Ipv4Addr) : DhcpReply where
  packet := {
    bootMsgType := dhcpBootMsgTypeReply
    transactionId := packet.transactionId
    clientIpAddr := packet.clientIpAddr
    yourIpAddr := reqIpAddr
    clientMacAddr := packet.clientMacAddr
    optionMap := s.leaseOptions DhcpMsgType.ack }
  dst := dst

/-- The NAK of a request. -/
def nakReply (s : DhcpServer) (packet : DhcpPkt) : DhcpReply where
  packet := {
    bootMsgType := dhcpBootMsgTypeReply
    transactionId := packet.transactionId
    clientMacAddr := packet.clientMacAddr
    optionMap := (∅ : Table UInt8 DhcpOption)
      |>.insert DhcpOptionType.msgType
        { type := DhcpOptionType.msgType, msgType := DhcpMsgType.nak }
      |>.insert DhcpOptionType.serverIdentifier
        { type := DhcpOptionType.serverIdentifier, serverIpAddr := s.ipAddr } }
  dst := broadcastIpv4Addr

/-- `copy(dst[:], src)` of at most four bytes. -/
def copyId (dst : Vector UInt8 4) (src : Bytes) : Vector UInt8 4 :=
  .ofFn fun i => if i.val < src.length then byteAt src i else dst.get i

/-- The end of DISCOVER: the record of the address gets the offer. -/
def offerLease (s : DhcpServer) (packet : DhcpPkt) (table : Table UInt32 DhcpLease)
    (clientIpAddrU : UInt32) (lease : DhcpLease) : DhcpServer × List DhcpReply :=
  let lease := { lease with
    offerExpTime := s.timeNow + dhcpOfferTime
    offerTransactionId := copyId lease.offerTransactionId packet.transactionId }
  ({ s with dhcpLeaseTable := table.insert clientIpAddrU lease },
    [s.offerReply packet (uToIpAddr clientIpAddrU)])

/-- DISCOVER. -/
def discover (s : DhcpServer) (alloc : DhcpAlloc) (packet : DhcpPkt) :
    DhcpServer × List DhcpReply :=
  match s.ownLease packet.clientMacAddr s.dhcpLeaseTable.entries none with
  | some (clientIpAddrU, lease) =>
    s.offerLease packet s.dhcpLeaseTable clientIpAddrU lease
  | none =>
    match s.chooseAddr macHash packet.clientMacAddr with
    | none => (s, [])
    | some (clientIpAddrU, table) =>
      if alloc.mallocOk && alloc.setOk then
        s.offerLease packet table clientIpAddrU
          { ipAddr := uToIpAddr clientIpAddrU, macAddr := packet.clientMacAddr }
      else ({ s with dhcpLeaseTable := table }, [])

/-- How a REQUEST is answered. -/
inductive RequestAnswer where
  | ack (lease : DhcpLease)
  | nak
  | silent

/-- The checks of a REQUEST for the address `reqIpAddrU`. -/
def checkRequest (s : DhcpServer) (packet : DhcpPkt) (reqIpAddrU : UInt32) : RequestAnswer :=
  let lease? := s.dhcpLeaseTable.lookup reqIpAddrU
  if reqIpAddrU ≤ s.networkU ∨ reqIpAddrU ≥ s.broadcastU ∨ reqIpAddrU = s.selfU then .nak
  else if s.networkU ≠ reqIpAddrU &&& s.maskU then .nak
  else if (packet.optionMap.lookup DhcpOptionType.serverIdentifier).isSome then
    match lease? with
    | none => .nak
    | some lease =>
      if lease.macAddr ≠ packet.clientMacAddr ∨ lease.offerExpTime = 0 then .nak
      else if lease.offerTransactionId.toList ≠ packet.transactionId then .silent
      else if lease.offerExpTime ≤ s.timeNow ∧ lease.expTime ≤ s.timeNow then .nak
      else .ack lease
  else
    match lease?.filter fun l => l.macAddr = packet.clientMacAddr ∧ l.expTime ≠ 0 with
    | none =>
      if s.dhcpLeaseTable.entries.any fun e =>
        e.2.macAddr = packet.clientMacAddr ∧ e.2.expTime ≠ 0 then .nak
      else .silent
    | some lease => if lease.expTime ≤ s.timeNow then .nak else .ack lease

/-- The host name that a record stores; an empty name clears it. -/
def storeHostName (old : StaticString64) (packet : DhcpPkt) : StaticString64 :=
  match packet.optionMap.lookup DhcpOptionType.hostName with
  | none => .replicate 64 0
  | some o =>
    match old.set o.hostName with
    | .ok hostName => hostName
    | .error _ => .replicate 64 0

/-- The answer to a REQUEST for `reqIpAddr`. -/
def answerRequest (s : DhcpServer) (packet : DhcpPkt) (reqIpAddr dst : Ipv4Addr) :
    DhcpServer × List DhcpReply :=
  match s.checkRequest packet (ipAddrToU reqIpAddr) with
  | .silent => (s, [])
  | .nak => (s, [s.nakReply packet])
  | .ack lease =>
    let lease := { lease with
      expTime := s.timeNow + dhcpLeaseTime
      hostName := storeHostName lease.hostName packet }
    ({ s with dhcpLeaseTable := s.dhcpLeaseTable.insert (ipAddrToU reqIpAddr) lease },
      [s.ackReply packet reqIpAddr dst])

/-- REQUEST. SELECTING and INIT-REBOOT name the address in an option, renewing and rebinding in
`ciaddr`. -/
def request (s : DhcpServer) (packet : DhcpPkt) : DhcpServer × List DhcpReply :=
  let optionReqIpAddr := packet.optionMap.lookup DhcpOptionType.reqIpAddr
  if packet.clientIpAddr = zeroIpv4Addr then
    match optionReqIpAddr with
    | none => (s, [])
    | some o => s.answerRequest packet o.ipAddr broadcastIpv4Addr
  else if (packet.optionMap.lookup DhcpOptionType.serverIdentifier).isSome ∨
      optionReqIpAddr.isSome then (s, [])
  else s.answerRequest packet packet.clientIpAddr packet.clientIpAddr

/-- RELEASE. -/
def release (s : DhcpServer) (packet : DhcpPkt) : DhcpServer :=
  if packet.clientIpAddr = zeroIpv4Addr then s
  else
    match s.dhcpLeaseTable.lookup (ipAddrToU packet.clientIpAddr) with
    | none => s
    | some lease =>
      if lease.macAddr = packet.clientMacAddr ∧ lease.expTime ≠ 0 then
        { s with dhcpLeaseTable := s.dhcpLeaseTable.erase (ipAddrToU packet.clientIpAddr) }
      else s

/-- The packet that `RxDhcp` handles as a server, with its message type: the ports, the packet type
and a server identifier, if there is one, must be for this server. -/
def accept (s : DhcpServer) (udpPayload : Bytes) (udpSrcPort udpDstPort : UInt16) :
    Option (UInt8 × DhcpPkt) :=
  if ¬ (udpSrcPort = dhcpClientPort ∧ udpDstPort = dhcpServerPort) then none
  else if ¬ s.dhcpServerEnable then none
  else
    match parseDhcpPkt udpPayload with
    | .error _ => none
    | .ok packet =>
      if packet.bootMsgType ≠ dhcpBootMsgTypeRequest then none
      else
        match packet.optionMap.lookup DhcpOptionType.msgType with
        | none => none
        | some o =>
          match packet.optionMap.lookup DhcpOptionType.serverIdentifier with
          | none => some (o.msgType, packet)
          | some sid => if sid.ipAddr ≠ s.ipAddr then none else some (o.msgType, packet)

/-- The server side of `NetIf.RxDhcp`. -/
def rxDhcp (s : DhcpServer) (alloc : DhcpAlloc) (udpPayload : Bytes)
    (udpSrcPort udpDstPort : UInt16) : DhcpServer × List DhcpReply :=
  match s.accept udpPayload udpSrcPort udpDstPort with
  | none => (s, [])
  | some (msgType, packet) =>
    if msgType = DhcpMsgType.discover then s.discover macHash alloc packet
    else if msgType = DhcpMsgType.request then s.request packet
    else if msgType = DhcpMsgType.release then (s.release packet, [])
    else (s, [])

/-- One round of `DhcpLeaseClear`. -/
def dhcpLeaseClear (s : DhcpServer) : DhcpServer :=
  { s with dhcpLeaseTable :=
      s.dhcpLeaseTable.sweep fun _ l => l.expTime ≤ s.timeNow && l.offerExpTime ≤ s.timeNow }

end DhcpServer

/-- What can happen to a DHCP server. -/
inductive DhcpEvent where
  /-- A UDP payload arrives. -/
  | packet (alloc : DhcpAlloc) (udpPayload : Bytes) (udpSrcPort udpDstPort : UInt16)
  /-- One round of the sweeper. -/
  | sweep
  /-- The clock task sets the time. -/
  | clock (timeNow : UInt32)
  /-- The DNS server address changes (a WAN interface got a lease). -/
  | dns (addr : Ipv4Addr)
  /-- The iteration order of the table changes. -/
  | reorder (table : Table UInt32 DhcpLease)

/-- One event. A reordering into another map does nothing. -/
def DhcpServer.step (macHash : MacAddr → UInt64) (s : DhcpServer) :
    DhcpEvent → DhcpServer × List DhcpReply
  | .packet alloc udpPayload udpSrcPort udpDstPort =>
    s.rxDhcp macHash alloc udpPayload udpSrcPort udpDstPort
  | .sweep => (s.dhcpLeaseClear, [])
  | .clock timeNow => ({ s with timeNow := timeNow }, [])
  | .dns addr => ({ s with dnsServerAddr := addr }, [])
  | .reorder table =>
    if table.entries.Perm s.dhcpLeaseTable.entries then ({ s with dhcpLeaseTable := table }, [])
    else (s, [])

end Halo
