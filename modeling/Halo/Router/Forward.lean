import Halo.Nat.Flow
import Halo.Protocol.Icmp
import Halo.Protocol.Ethernet
import Halo.Route.Trie

/-!
# Reception and forwarding of IPv4 packets (`engine/ipv4_engine.go`, `engine/icmp_engine.go`)

`rxIpv4` and `ipv4RouteForward` on the state of a router. The source works on a packet in place;
here each stage returns the packet, and `icmpTtlDeepNat` writes the quoted packet back into the
packet that it is a slice of. An interface is named by its key in `NetIfMap`, so an output interface
that is also the input interface is read after the changes of the input stage.

* `dnat`: the inward translation, with the rule that it used (`Dnat`).
* `routeOut`: the output interface and the next hop.
* `snat`: the outward translation, with the rule that it used (`Snat`).
* `Router.step`: the events of a router. The reception of one packet is one event, and so is each
  operation on the NAT tables of an interface. `FwdOracle` has what the code outside of this model
  answers: address resolution, the packet counter and the allocator.
-/

namespace Halo

/-- The fields of `NetIf` that reception and forwarding use; those of NAT are in `nat`. -/
structure NetIf where
  macAddr : MacAddr
  natEnable : Bool
  gateway : Ipv4Addr
  hasGateway : Bool
  nat : NatIf

/-- `NatPortMappingFlow`. -/
structure NatPortMappingFlow where
  wanNetIf : String
  wanPort : UInt16
  lastAliveTime : UInt32
  deriving DecidableEq

/-- The fields of `Router` that reception and forwarding use. -/
structure Router where
  /-- `protocol.CheckSumEnable` -/
  checkSumEnable : Bool
  netIfMap : String → Option NetIf
  routeTable : RouteTable
  natPortMappingFlowTable : Table NatFlowHash NatPortMappingFlow
  /-- `Ipv4PktFwdHook`: of a packet and a direction, whether to drop the packet and what to send. -/
  ipv4PktFwdHook : Option (Bytes → Nat → Bool × Bytes)
  timeNow : UInt32

/-- What code outside of this model answers while a packet is handled. -/
structure FwdOracle where
  /-- `GetArpCache` of an interface -/
  arp : String → Ipv4Addr → Option MacAddr
  /-- the next packet identification -/
  iphId : UInt16
  /-- the allocations of `NatAddFlow` -/
  alloc : NatAlloc
  /-- `MallocType[NatPortMappingFlow]` -/
  mappingFlow : Bool
  /-- `NatPortMappingFlowTable.Set` -/
  mappingFlowSet : Bool

/-- The rule of an inward translation. -/
inductive Dnat where
  | icmpTtl (flow : NatFlow)
  | mapping (entry : NatPortMappingEntry)
  | flow (flow : NatFlow)
  deriving DecidableEq

/-- The rule of an outward translation. -/
inductive Snat where
  | mappingFlow (flow : NatPortMappingFlow)
  | mapping (entry : NatPortMappingEntry)
  | flow (flow : NatFlow)
  deriving DecidableEq

/-- What the handling of a packet hands out. -/
inductive RouterOut where
  /-- `TxEthernet` of a packet that was received, with the rules that translated it. -/
  | forwarded (inNetIf outNetIf : String) (pkt : Bytes) (dstMac : MacAddr) (dnat : Option Dnat)
      (snat : Option Snat)
  /-- `TxEthernet` of a packet that the router built. -/
  | sent (outNetIf : String) (pkt : Bytes) (dstMac : MacAddr)
  /-- A packet offered to `LoChan`. -/
  | loopback (outNetIf : String) (pkt : Bytes)
  /-- `RxUdp` -/
  | rxUdp (netIf : String) (ipv4Payload : Bytes) (ipv4SrcAddr : Ipv4Addr)
  /-- `RxUdpBroadcast` -/
  | rxUdpBroadcast (netIf : String) (ipv4Payload : Bytes) (ipv4SrcAddr ipv4DstAddr : Ipv4Addr)
  /-- `RxTcp` -/
  | rxTcp (netIf : String) (ipv4Payload : Bytes) (ipv4SrcAddr : Ipv4Addr)
  deriving DecidableEq

namespace NatIf

/-- `NetIf.IcmpTtlDeepNat`: the flow that the quoted packet belongs to, where it is known. The
quoted packet is the part of the packet from the index `28` on. -/
def icmpTtlDeepNat (s : NatIf) (checkSumEnable : Bool) (pkt : Bytes) :
    NatIf × Bytes × Option NatFlow :=
  match parseIpv4Pkt checkSumEnable pkt with
  | .error _ => (s, pkt, none)
  | .ok ipv4 =>
    if ipv4.ipHeadProto ≠ iphProtoIcmp then (s, pkt, none)
    else
      match parseIcmpPkt ipv4.payload with
      | .error _ => (s, pkt, none)
      | .ok icmp =>
        if icmp.icmpType ≠ icmpTtl then (s, pkt, none)
        else if icmp.payload.length < 28 then (s, pkt, none)
        else
          let ports := natGetSrcDstPort icmp.payload
          match s.natGetFlowByWan (addrAt icmp.payload 16) ports.2 (addrAt icmp.payload 12) ports.1
            (byteAt icmp.payload 9) with
          | (s, none) => (s, pkt, none)
          | (s, some natFlow) =>
            let lanHost := uToIpAddr natFlow.lanHostIpAddr
            let payload := natChangeSrc checkSumEnable icmp.payload lanHost natFlow.lanHostPort
            let pkt := pkt.take 28 ++ payload ++ pkt.drop (28 + payload.length)
            (s, natChangeDst checkSumEnable pkt lanHost 0, some natFlow)

/-- The inward translation of `Ipv4RouteForward`; without a rule the packet is dropped. -/
def dnat (s : NatIf) (checkSumEnable : Bool) (pkt : Bytes) (ipv4SrcAddr ipv4DstAddr : Ipv4Addr)
    (ipv4HeadProto : UInt8) : NatIf × Option (Bytes × Dnat) :=
  let ports := natGetSrcDstPort pkt
  match s.icmpTtlDeepNat checkSumEnable pkt with
  | (s, pkt, some natFlow) => (s, some (pkt, .icmpTtl natFlow))
  | (s, pkt, none) =>
    match s.checkNatPortMappingWan ports.2 ipv4HeadProto with
    | some entry =>
      (s, some (natChangeDst checkSumEnable pkt (uToIpAddr entry.lanHostIpAddr) entry.lanHostPort,
        .mapping entry))
    | none =>
      match s.natGetFlowByWan ipv4SrcAddr ports.1 ipv4DstAddr ports.2 ipv4HeadProto with
      | (s, none) => (s, none)
      | (s, some natFlow) =>
        (s, some (natChangeDst checkSumEnable pkt (uToIpAddr natFlow.lanHostIpAddr)
          natFlow.lanHostPort, .flow natFlow))

/-- The flow of an outgoing packet: one that is known, or a new one. -/
def flowFor (s : NatIf) (alloc : NatAlloc) (pkt : Bytes) (ipv4 : Ipv4Pkt) :
    NatIf × Option NatFlow :=
  let ports := natGetSrcDstPort pkt
  match s.natGetFlowByHash ipv4.dstAddr ports.2 ipv4.srcAddr ports.1 ipv4.ipHeadProto with
  | (s, some natFlow) => (s, some natFlow)
  | (s, none) => s.natAddFlow alloc ipv4.srcAddr ipv4.dstAddr ports.1 ports.2 ipv4.ipHeadProto

/-- The outward translation of `Ipv4RouteForward` on the output interface; without a port for a new
flow the packet is dropped. -/
def snat (s : NatIf) (checkSumEnable : Bool) (alloc : NatAlloc) (pkt : Bytes) (ipv4 : Ipv4Pkt)
    (mappingFlow : Option NatPortMappingFlow) : NatIf × Option (Bytes × Snat) :=
  match mappingFlow with
  | some flow =>
    (s, some (natChangeSrc checkSumEnable pkt s.ipAddr flow.wanPort, .mappingFlow flow))
  | none =>
    match s.checkNatPortMappingLan ipv4.srcAddr (natGetSrcDstPort pkt).1 ipv4.ipHeadProto with
    | some entry =>
      (s, some (natChangeSrc checkSumEnable pkt s.ipAddr entry.wanPort, .mapping entry))
    | none =>
      match s.flowFor alloc pkt ipv4 with
      | (s, none) => (s, none)
      | (s, some natFlow) =>
        (s, some (natChangeSrc checkSumEnable pkt (uToIpAddr natFlow.wanIpAddr) natFlow.wanPort,
          .flow natFlow))

end NatIf

/-- The packet as it leaves through the interface. -/
def NetIf.translateOut (outNetIf : NetIf) (checkSumEnable : Bool) (alloc : NatAlloc) (pkt : Bytes)
    (ipv4 : Ipv4Pkt) (mappingFlow : Option NatPortMappingFlow) :
    NatIf × Option (Bytes × Option Snat) :=
  if outNetIf.natEnable then
    let res := outNetIf.nat.snat checkSumEnable alloc pkt ipv4 mappingFlow
    (res.1, res.2.map fun x => (x.1, some x.2))
  else (outNetIf.nat, some (pkt, none))

namespace Router

/-- The NAT tables of an interface are replaced. -/
def setNat (r : Router) (name : String) (nat : NatIf) : Router :=
  { r with
    netIfMap := Function.update r.netIfMap name
      ((r.netIfMap name).map fun i => { i with nat := nat }) }

/-- `NetIf.FindRoute`: the output interface, and the next hop where there is one. -/
def findRoute (r : Router) (ipv4DstAddr : Ipv4Addr) :
    Except Fault (String × Option Ipv4Addr) :=
  match r.routeTable.findRoute ipv4DstAddr with
  | .error fault => .error fault
  | .ok none => .ok ("", none)
  | .ok (some route) => .ok (route.netIf, if route.hasNextHop then some route.nextHop else none)

/-- `NetIf.TxIpv4`. A packet for the broadcast address leaves through the interface itself. -/
def txIpv4 (r : Router) (o : FwdOracle) (name : String) (i : NetIf) (ipv4Payload : Bytes)
    (ipv4HeadProto : UInt8) (ipv4DstAddr : Ipv4Addr) : Except Fault (List RouterOut) :=
  match buildIpv4Pkt r.checkSumEnable o.iphId
    ⟨ipv4Payload, ipv4HeadProto, i.nat.ipAddr, ipv4DstAddr⟩ with
  | .error _ => .ok []
  | .ok ipv4Pkt =>
    if ipv4DstAddr = broadcastIpv4Addr then .ok [.sent name ipv4Pkt broadcastMacAddr]
    else
      match r.findRoute ipv4DstAddr with
      | .error fault => .error fault
      | .ok (outNetIfName, nextHop) =>
        if outNetIfName = "" then .ok []
        else
          match r.netIfMap outNetIfName with
          | none => .error .nilDereference
          | some outNetIf =>
            if ipAddrToU ipv4DstAddr = ipAddrToU outNetIf.nat.ipAddr then
              .ok [.loopback outNetIfName ipv4Pkt]
            else
              match o.arp outNetIfName (nextHop.getD ipv4DstAddr) with
              | none => .ok []
              | some mac => .ok [.sent outNetIfName ipv4Pkt mac]

/-- `NetIf.TxIcmp`. -/
def txIcmp (r : Router) (o : FwdOracle) (name : String) (i : NetIf) (icmp : IcmpPkt)
    (ipv4DstAddr : Ipv4Addr) : Except Fault (List RouterOut) :=
  match buildIcmpPkt icmp with
  | .error _ => .ok []
  | .ok icmpPkt => r.txIpv4 o name i icmpPkt iphProtoIcmp ipv4DstAddr

/-- `NetIf.RxIcmp`: an echo request is answered. -/
def rxIcmp (r : Router) (o : FwdOracle) (name : String) (i : NetIf) (ipv4Payload : Bytes)
    (ipv4SrcAddr : Ipv4Addr) : Except Fault (List RouterOut) :=
  match parseIcmpPkt ipv4Payload with
  | .error _ => .ok []
  | .ok icmp =>
    if icmp.icmpType = icmpRequest then
      r.txIcmp o name i { icmp with icmpType := icmpReply } ipv4SrcAddr
    else .ok []

/-- The packet after the hook, which sees the direction `WanToLan` (`1`) on an interface with
NAT. -/
def hookPkt (r : Router) (i : NetIf) (pkt : Bytes) : Option Bytes :=
  match r.ipv4PktFwdHook with
  | none => some pkt
  | some hook =>
    let res := hook pkt (if i.natEnable then 1 else 0)
    if res.1 then none else some res.2

/-- The way back of a statically mapped connection, for a packet from an interface without NAT. The
entry that is found is refreshed. -/
def findMappingFlow (r : Router) (i : NetIf) (pkt : Bytes) (ipv4 : Ipv4Pkt) :
    Router × Option NatPortMappingFlow :=
  if i.natEnable then (r, none)
  else
    let ports := natGetSrcDstPort pkt
    let natFlowHash : NatFlowHash := ⟨ipAddrToU ipv4.dstAddr, ports.2, ipAddrToU ipv4.srcAddr,
      ports.1, ipv4.ipHeadProto⟩
    match r.natPortMappingFlowTable.lookup natFlowHash with
    | none => (r, none)
    | some flow =>
      let flow := { flow with lastAliveTime := r.timeNow }
      ({ r with natPortMappingFlowTable := r.natPortMappingFlowTable.insert natFlowHash flow },
        some flow)

/-- The output interface and the next hop: a packet of a statically mapped connection leaves through
the interface that the connection came in on. -/
def routeOut (r : Router) (mappingFlow : Option NatPortMappingFlow) (ipv4DstAddr : Ipv4Addr) :
    Except Fault (Option (String × Option Ipv4Addr)) :=
  match r.findRoute ipv4DstAddr with
  | .error fault => .error fault
  | .ok route =>
    let route? := match mappingFlow with
      | none => some route
      | some flow =>
        if route.1 = flow.wanNetIf then some route
        else
          match r.netIfMap flow.wanNetIf with
          | none => none
          | some wanNetIf =>
            if wanNetIf.hasGateway then some (flow.wanNetIf, some wanNetIf.gateway) else none
    .ok (route?.filter fun route => route.1 ≠ "")

/-- The way back of a connection that a static mapping let in is recorded before its packet leaves;
the packet is dropped where there is no memory for that. -/
def recordMappingFlow (r : Router) (o : FwdOracle) (inNetIf : String) (pkt : Bytes)
    (ipv4HeadProto : UInt8) : Option Dnat → Router × Bool
  | some (.mapping entry) =>
    let natFlowHash : NatFlowHash := ⟨ipAddrToU (addrAt pkt 12), (natGetSrcDstPort pkt).1,
      entry.lanHostIpAddr, entry.lanHostPort, ipv4HeadProto⟩
    if (r.natPortMappingFlowTable.lookup natFlowHash).isNone ∧
        ¬ (o.mappingFlow ∧ o.mappingFlowSet) then (r, false)
    else
      let flow : NatPortMappingFlow := ⟨inNetIf, entry.wanPort, r.timeNow⟩
      ({ r with natPortMappingFlowTable := r.natPortMappingFlowTable.insert natFlowHash flow },
        true)
  | _ => (r, true)

/-- The last part of `Ipv4RouteForward`, with the output interface known. -/
def sendOut (r : Router) (o : FwdOracle) (inNetIf : String) (i : NetIf) (pkt : Bytes)
    (ipv4 : Ipv4Pkt) (dnat : Option Dnat) (mappingFlow : Option NatPortMappingFlow)
    (outNetIfName : String) (nextHop : Option Ipv4Addr) : Except Fault (Router × List RouterOut) :=
  match r.netIfMap outNetIfName with
  | none => .error .nilDereference
  | some outNetIf =>
    if ipAddrToU ipv4.dstAddr = ipAddrToU outNetIf.nat.ipAddr ∧ ¬ i.natEnable then
      .ok (r, [.loopback outNetIfName pkt])
    else
      let translated := outNetIf.translateOut r.checkSumEnable o.alloc pkt ipv4 mappingFlow
      let r := r.setNat outNetIfName translated.1
      match translated.2 with
      | none => .ok (r, [])
      | some (pkt, snat) =>
        match o.arp outNetIfName (nextHop.getD ipv4.dstAddr) with
        | none => .ok (r, [])
        | some mac =>
          let res := r.recordMappingFlow o inNetIf pkt ipv4.ipHeadProto dnat
          .ok (res.1, if res.2 then [.forwarded inNetIf outNetIfName pkt mac dnat snat] else [])

/-- `Ipv4RouteForward` after the inward translation. -/
def forwardRest (r : Router) (o : FwdOracle) (inNetIf : String) (i : NetIf) (pkt : Bytes)
    (ipv4SrcAddr : Ipv4Addr) (dnat : Option Dnat) : Except Fault (Router × List RouterOut) :=
  match handleIpv4PktTtl r.checkSumEnable pkt with
  | (pkt, false) =>
    (r.txIcmp o inNetIf i ⟨pkt.take 28, icmpTtl, [0x00, 0x00], 0⟩ ipv4SrcAddr).map
      fun out => (r, out)
  | (pkt, true) =>
    match r.hookPkt i pkt with
    | none => .ok (r, [])
    | some pkt =>
      match parseIpv4Pkt r.checkSumEnable pkt with
      | .error _ => .ok (r, [])
      | .ok ipv4 =>
        match r.findMappingFlow i pkt ipv4 with
        | (r, mappingFlow) =>
          match r.routeOut mappingFlow ipv4.dstAddr with
          | .error fault => .error fault
          | .ok none => .ok (r, [])
          | .ok (some (outNetIfName, nextHop)) =>
            r.sendOut o inNetIf i pkt ipv4 dnat mappingFlow outNetIfName nextHop

/-- `NetIf.Ipv4RouteForward`. -/
def ipv4RouteForward (r : Router) (o : FwdOracle) (inNetIf : String) (i : NetIf) (pkt : Bytes)
    (ipv4 : Ipv4Pkt) : Except Fault (Router × List RouterOut) :=
  if i.natEnable then
    match i.nat.dnat r.checkSumEnable pkt ipv4.srcAddr ipv4.dstAddr ipv4.ipHeadProto with
    | (nat, none) => .ok (r.setNat inNetIf nat, [])
    | (nat, some (pkt, dnat)) =>
      (r.setNat inNetIf nat).forwardRest o inNetIf { i with nat := nat } pkt ipv4.srcAddr
        (some dnat)
  else r.forwardRest o inNetIf i pkt ipv4.srcAddr none

/-- `NetIf.RxIpv4` of the interface `i` with the name `inNetIf`. -/
def rxIpv4 (r : Router) (o : FwdOracle) (inNetIf : String) (i : NetIf) (ethPayload : Bytes) :
    Except Fault (Router × List RouterOut) :=
  match parseIpv4Pkt r.checkSumEnable ethPayload with
  | .error _ => .ok (r, [])
  | .ok ipv4 =>
    if ipv4.dstAddr = broadcastIpv4Addr then
      .ok (r,
        if ipv4.ipHeadProto = iphProtoUdp then
          [.rxUdpBroadcast inNetIf ipv4.payload ipv4.srcAddr ipv4.dstAddr]
        else [])
    else if ipv4.dstAddr ≠ i.nat.ipAddr then r.ipv4RouteForward o inNetIf i ethPayload ipv4
    else if ipv4.ipHeadProto = iphProtoIcmp then
      match parseIcmpPkt ipv4.payload with
      | .error _ => .ok (r, [])
      | .ok icmp =>
        if ¬ i.natEnable ∨ icmp.icmpType = icmpRequest then
          (r.rxIcmp o inNetIf i ipv4.payload ipv4.srcAddr).map fun out => (r, out)
        else r.ipv4RouteForward o inNetIf i ethPayload ipv4
    else if ipv4.ipHeadProto = iphProtoUdp then
      if ¬ i.natEnable ∨ (natGetSrcDstPort ethPayload).2 ∈ i.nat.udpServiceMap then
        .ok (r, [.rxUdp inNetIf ipv4.payload ipv4.srcAddr])
      else r.ipv4RouteForward o inNetIf i ethPayload ipv4
    else if ¬ i.natEnable ∨ (natGetSrcDstPort ethPayload).2 ∈ i.nat.tcpServiceMap then
      .ok (r, [.rxTcp inNetIf ipv4.payload ipv4.srcAddr])
    else r.ipv4RouteForward o inNetIf i ethPayload ipv4

/-- One round of `NatPortMappingFlowClear`; the idle time is a difference of `uint32`. -/
def natPortMappingFlowClear (r : Router) : Router :=
  { r with
    natPortMappingFlowTable := r.natPortMappingFlowTable.entries.foldl
      (fun table e => if r.timeNow - e.2.lastAliveTime > 60 then table.erase e.1 else table)
      r.natPortMappingFlowTable }

end Router

/-- What can happen to a router. -/
inductive RouterEvent where
  | rxIpv4 (o : FwdOracle) (netIf : String) (ethPayload : Bytes)
  /-- An operation on the NAT tables of an interface, by another packet or by its owner. -/
  | nat (netIf : String) (e : NatEvent)
  | clock (timeNow : UInt32)
  | setRouteTable (routeTable : RouteTable)
  | setIpv4PktFwdHook (hook : Option (Bytes → Nat → Bool × Bytes))
  /-- A lease gives an interface its gateway. -/
  | setGateway (netIf : String) (gateway : Ipv4Addr)
  | natPortMappingFlowClear

namespace Router

/-- One event. The time is that of the router, so the tables of an interface have no clock event of
their own. -/
def step (r : Router) : RouterEvent → Except Fault (Router × List RouterOut)
  | .rxIpv4 o netIf ethPayload =>
    match r.netIfMap netIf with
    | none => .ok (r, [])
    | some i => r.rxIpv4 o netIf i ethPayload
  | .nat _ (.clock _) => .ok (r, [])
  | .nat netIf e =>
    match r.netIfMap netIf with
    | none => .ok (r, [])
    | some i => .ok (r.setNat netIf (i.nat.step e).1, [])
  | .clock timeNow =>
    .ok ({ r with
      timeNow := timeNow
      netIfMap := fun name =>
        (r.netIfMap name).map fun i => { i with nat := (i.nat.step (.clock timeNow)).1 } }, [])
  | .setRouteTable routeTable => .ok ({ r with routeTable := routeTable }, [])
  | .setIpv4PktFwdHook hook => .ok ({ r with ipv4PktFwdHook := hook }, [])
  | .setGateway netIf gateway =>
    .ok ({ r with
      netIfMap := Function.update r.netIfMap netIf
        ((r.netIfMap netIf).map fun i => { i with gateway := gateway, hasGateway := true }) }, [])
  | .natPortMappingFlowClear => .ok (r.natPortMappingFlowClear, [])

end Router

/-- The part of `NetIfConfig` that the model uses; the static mappings are parsed. -/
structure NetIfConfig where
  macAddr : MacAddr
  ipAddr : Ipv4Addr
  gateway : Option Ipv4Addr
  natEnable : Bool
  natType : Int
  natPortMappingList : List NatPortMappingEntry

/-- `InitRouter` on the parsed configuration, with the routes that it installs. -/
def initRouter (checkSumEnable : Bool) (netIfs : String → Option NetIfConfig)
    (routeTable : RouteTable) (timeNow : UInt32) : Router where
  checkSumEnable := checkSumEnable
  netIfMap name := (netIfs name).map fun config =>
    { macAddr := config.macAddr
      natEnable := config.natEnable
      gateway := config.gateway.getD zeroIpv4Addr
      hasGateway := config.gateway.isSome
      nat := initNatIf config.natType config.ipAddr timeNow config.natPortMappingList }
  routeTable := routeTable
  natPortMappingFlowTable := ∅
  ipv4PktFwdHook := none
  timeNow := timeNow

end Halo
