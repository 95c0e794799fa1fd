import Halo.Base.Table
import Halo.Base.Trace
import Halo.Protocol.Ipv4

/-!
# The NAT flow tables (`engine/ipv4_engine.go`)

`NatIf` has the fields of a network interface that address translation uses. A flow record is
allocated memory that two tables point to: `flows` is that memory (the records which are allocated
now), and `natFlowTable` and `natWanFlowTable` have pointers into it. A port set is reached through
one entry of `natPortAlloc` only and is a value of that table.

* `natGetFlowByHash`, `natGetFlowByWan`, `natAddFlow`, `natTableClear`: the operations. Each of them
  runs under `NatLock`, so each is one step. `NatAlloc` says which allocations succeed.
* `NatEvent`, `NatIf.step`: the runs of an interface.
-/

namespace Halo

/-- `NatTypeSymmetric`. -/
def natTypeSymmetric : Int := 0

/-- `NatFlowHash`: the key of a flow on the LAN side. -/
structure NatFlowHash where
  remoteIpAddr : UInt32
  remotePort : UInt16
  lanHostIpAddr : UInt32
  lanHostPort : UInt16
  ipv4HeadProto : UInt8
  deriving DecidableEq

/-- `NatWanFlowHash`: the key of a flow on the WAN side. -/
structure NatWanFlowHash where
  remoteIpAddr : UInt32
  remotePort : UInt16
  wanIpAddr : UInt32
  wanPort : UInt16
  ipv4HeadProto : UInt8
  deriving DecidableEq

/-- `NatFlow`. -/
structure NatFlow where
  natFlowHash : NatFlowHash
  remoteIpAddr : UInt32
  remotePort : UInt16
  wanIpAddr : UInt32
  wanPort : UInt16
  lanHostIpAddr : UInt32
  lanHostPort : UInt16
  ipv4HeadProto : UInt8
  lastAliveTime : UInt32
  deriving DecidableEq

/-- The LAN key that the fields of a flow give. -/
def NatFlow.lanKey (f : NatFlow) : NatFlowHash :=
  ⟨f.remoteIpAddr, f.remotePort, f.lanHostIpAddr, f.lanHostPort, f.ipv4HeadProto⟩

/-- The WAN key that the fields of a flow give. -/
def NatFlow.wanKey (f : NatFlow) : NatWanFlowHash :=
  ⟨f.remoteIpAddr, f.remotePort, f.wanIpAddr, f.wanPort, f.ipv4HeadProto⟩

/-- `NatPortMappingEntry`. -/
structure NatPortMappingEntry where
  wanPort : UInt16
  lanHostIpAddr : UInt32
  lanHostPort : UInt16
  ipv4HeadProto : UInt8
  deriving DecidableEq

/-- The address of a flow record. -/
abbrev FlowPtr := Nat

/-- The fields of `NetIf` and `Router` that NAT uses. -/
structure NatIf where
  natType : Int
  ipAddr : Ipv4Addr
  timeNow : UInt32
  natFlowTable : Table NatFlowHash FlowPtr
  natWanFlowTable : Table NatWanFlowHash FlowPtr
  /-- The used ports (`PortAlloc.UsePortMap`) of each normalised remote address. -/
  natPortAlloc : Table UInt32 (Finset UInt16)
  natPortMappingTable : List NatPortMappingEntry
  /-- The ports with an entry in `TcpServiceMap`. -/
  tcpServiceMap : Finset UInt16
  /-- The ports with an entry in `UdpServiceMap`. -/
  udpServiceMap : Finset UInt16
  /-- The flow records that are allocated. -/
  flows : Table FlowPtr NatFlow

/-- What the allocator does during one `NatAddFlow`. -/
structure NatAlloc where
  /-- `MallocType[PortAlloc]` -/
  portAlloc : Bool
  /-- `NewHashMap` of the port set -/
  usePortMap : Bool
  /-- `NatPortAlloc.Set` -/
  natPortAllocSet : Bool
  /-- `UsePortMap.Set` -/
  usePortMapSet : Bool
  /-- `MallocType[NatFlow]`: the address, or no memory -/
  natFlow : Option FlowPtr
  /-- `NatFlowTable.Set` -/
  natFlowTableSet : Bool
  /-- `NatWanFlowTable.Set` -/
  natWanFlowTableSet : Bool

namespace NatIf

/-- The remote address and port of the table keys: a symmetric NAT keeps them, a full cone NAT (and
any other type number) drops them, and ICMP has no remote port. -/
def normRemote (s : NatIf) (remoteIpAddr : Ipv4Addr) (remotePort : UInt16) (ipv4HeadProto : UInt8) :
    UInt32 × UInt16 :=
  let remote := if s.natType = natTypeSymmetric then (ipAddrToU remoteIpAddr, remotePort)
    else (0, 0)
  (remote.1, if ipv4HeadProto = iphProtoIcmp then 0 else remote.2)

/-- The key of `NatGetFlowByHash` and `NatAddFlow`. -/
def flowHash (s : NatIf) (remoteIpAddr : Ipv4Addr) (remotePort : UInt16)
    (lanHostIpAddr : Ipv4Addr) (lanHostPort : UInt16) (ipv4HeadProto : UInt8) : NatFlowHash :=
  let remote := s.normRemote remoteIpAddr remotePort ipv4HeadProto
  ⟨remote.1, remote.2, ipAddrToU lanHostIpAddr, lanHostPort, ipv4HeadProto⟩

/-- The key of `NatGetFlowByWan`. -/
def wanFlowHash (s : NatIf) (remoteIpAddr : Ipv4Addr) (remotePort : UInt16)
    (wanIpAddr : Ipv4Addr) (wanPort : UInt16) (ipv4HeadProto : UInt8) : NatWanFlowHash :=
  let remote := s.normRemote remoteIpAddr remotePort ipv4HeadProto
  ⟨remote.1, remote.2, ipAddrToU wanIpAddr, wanPort, ipv4HeadProto⟩

/-- A flow that a table has found: its time is set, and a copy of it is returned. A pointer to
memory that is not allocated finds nothing. -/
def refresh (s : NatIf) (p : FlowPtr) : NatIf × Option NatFlow :=
  match s.flows.lookup p with
  | none => (s, none)
  | some f =>
    let f := { f with lastAliveTime := s.timeNow }
    ({ s with flows := s.flows.insert p f }, some f)

/-- `NetIf.NatGetFlowByHash`. -/
def natGetFlowByHash (s : NatIf) (remoteIpAddr : Ipv4Addr) (remotePort : UInt16)
    (lanHostIpAddr : Ipv4Addr) (lanHostPort : UInt16) (ipv4HeadProto : UInt8) :
    NatIf × Option NatFlow :=
  match s.natFlowTable.lookup
    (s.flowHash remoteIpAddr remotePort lanHostIpAddr lanHostPort ipv4HeadProto) with
  | none => (s, none)
  | some p => s.refresh p

/-- `NetIf.NatGetFlowByWan`. -/
def natGetFlowByWan (s : NatIf) (remoteIpAddr : Ipv4Addr) (remotePort : UInt16)
    (wanIpAddr : Ipv4Addr) (wanPort : UInt16) (ipv4HeadProto : UInt8) : NatIf × Option NatFlow :=
  match s.natWanFlowTable.lookup
    (s.wanFlowHash remoteIpAddr remotePort wanIpAddr wanPort ipv4HeadProto) with
  | none => (s, none)
  | some p => s.refresh p

/-- `NetIf.CheckNatPortMapping` in the direction from the LAN. -/
def checkNatPortMappingLan (s : NatIf) (ipAddr : Ipv4Addr) (port : UInt16) (ipv4HeadProto : UInt8) :
    Option NatPortMappingEntry :=
  if ipv4HeadProto ≠ iphProtoTcp ∧ ipv4HeadProto ≠ iphProtoUdp then none
  else s.natPortMappingTable.find? fun e =>
    e.lanHostIpAddr = ipAddrToU ipAddr ∧ e.lanHostPort = port ∧ e.ipv4HeadProto = ipv4HeadProto

/-- `NetIf.CheckNatPortMapping` in the direction from the WAN, where the address is not used. -/
def checkNatPortMappingWan (s : NatIf) (port : UInt16) (ipv4HeadProto : UInt8) :
    Option NatPortMappingEntry :=
  if ipv4HeadProto ≠ iphProtoTcp ∧ ipv4HeadProto ≠ iphProtoUdp then none
  else s.natPortMappingTable.find? fun e => e.wanPort = port ∧ e.ipv4HeadProto = ipv4HeadProto

/-- The port search passes over a port that a flow, a local service or a static mapping has. -/
def portTaken (s : NatIf) (ports : Finset UInt16) (ipv4HeadProto : UInt8) (wanPort : UInt16) :
    Bool :=
  wanPort ∈ ports ||
    (ipv4HeadProto = iphProtoTcp && wanPort ∈ s.tcpServiceMap) ||
    (ipv4HeadProto = iphProtoUdp && wanPort ∈ s.udpServiceMap) ||
    (s.checkNatPortMappingWan wanPort ipv4HeadProto).isSome

/-- The port search, after `wanPort` was examined; a wrap to zero ends it. -/
def searchPort (s : NatIf) (ports : Finset UInt16) (ipv4HeadProto : UInt8) :
    (fuel : Nat) → (wanPort : UInt16) → Option UInt16
  | 0, _ => none
  | fuel + 1, wanPort =>
    let wanPort := wanPort + 1
    if wanPort = 0 then none
    else if s.portTaken ports ipv4HeadProto wanPort then
      searchPort s ports ipv4HeadProto fuel wanPort
    else some wanPort

/-- The port for a new flow. The search examines `32768` to `65535` and then wraps. -/
def choosePort (s : NatIf) (ports : Finset UInt16) (ipv4HeadProto : UInt8) : Option UInt16 :=
  s.searchPort ports ipv4HeadProto 32769 32767

/-- `MallocType[NatFlow]`: the allocator never returns memory that is allocated. -/
def mallocFlow (s : NatIf) (choice : Option FlowPtr) : Option FlowPtr :=
  choice.filter fun p => (s.flows.lookup p).isNone

/-- The ports of a remote address after a change of its port set. -/
def setPorts (s : NatIf) (r : UInt32) (ports : Finset UInt16) : NatIf :=
  { s with natPortAlloc := s.natPortAlloc.insert r ports }

/-- The record of a new flow. -/
def newFlow (s : NatIf) (key : NatFlowHash) (wanPort : UInt16) : NatFlow where
  natFlowHash := key
  remoteIpAddr := key.remoteIpAddr
  remotePort := key.remotePort
  wanIpAddr := ipAddrToU s.ipAddr
  wanPort := wanPort
  lanHostIpAddr := key.lanHostIpAddr
  lanHostPort := key.lanHostPort
  ipv4HeadProto := key.ipv4HeadProto
  lastAliveTime := s.timeNow

/-- The part of `NatAddFlow` after the port set `ports` of the remote address is there. -/
def createFlow (s : NatIf) (alloc : NatAlloc) (key : NatFlowHash) (ports : Finset UInt16) :
    NatIf × Option NatFlow :=
  match s.choosePort ports key.ipv4HeadProto with
  | none => (s, none)
  | some wanPort =>
    if ¬ alloc.usePortMapSet then (s, none)
    else
      let s := s.setPorts key.remoteIpAddr (insert wanPort ports)
      match s.mallocFlow alloc.natFlow with
      | none => (s.setPorts key.remoteIpAddr ((insert wanPort ports).erase wanPort), none)
      | some p =>
        let f := s.newFlow key wanPort
        let s := { s with flows := s.flows.insert p f }
        if ¬ alloc.natFlowTableSet then
          let s := s.setPorts key.remoteIpAddr ((insert wanPort ports).erase wanPort)
          ({ s with flows := s.flows.erase p }, none)
        else
          let s := { s with natFlowTable := s.natFlowTable.insert key p }
          if ¬ alloc.natWanFlowTableSet then
            let s := { s with natFlowTable := s.natFlowTable.erase key }
            let s := s.setPorts key.remoteIpAddr ((insert wanPort ports).erase wanPort)
            ({ s with flows := s.flows.erase p }, none)
          else ({ s with natWanFlowTable := s.natWanFlowTable.insert f.wanKey p }, some f)

/-- The deletion of an empty port set. -/
def dropEmptyPorts (s : NatIf) (r : UInt32) : NatIf :=
  match s.natPortAlloc.lookup r with
  | none => s
  | some ports =>
    if ports.card = 0 then { s with natPortAlloc := s.natPortAlloc.erase r } else s

/-- `NetIf.NatAddFlow`. The deferred clean-up runs only where the port set is new, on success
too. -/
def natAddFlow (s : NatIf) (alloc : NatAlloc) (lanHostIpAddr remoteIpAddr : Ipv4Addr)
    (lanHostPort remotePort : UInt16) (ipv4HeadProto : UInt8) : NatIf × Option NatFlow :=
  if lanHostPort = 0 ∨ remotePort = 0 then (s, none)
  else
    let key := s.flowHash remoteIpAddr remotePort lanHostIpAddr lanHostPort ipv4HeadProto
    match s.natFlowTable.lookup key with
    | some p => s.refresh p
    | none =>
      match s.natPortAlloc.lookup key.remoteIpAddr with
      | some ports => s.createFlow alloc key ports
      | none =>
        if ¬ (alloc.portAlloc ∧ alloc.usePortMap ∧ alloc.natPortAllocSet) then (s, none)
        else
          let res := (s.setPorts key.remoteIpAddr ∅).createFlow alloc key ∅
          (res.1.dropEmptyPorts key.remoteIpAddr, res.2)

/-- The body of the loop of `NatTableClear` for an idle flow. -/
def removeFlow (s : NatIf) (natFlowHash : NatFlowHash) (p : FlowPtr) (f : NatFlow) : NatIf :=
  let s := { s with
    natFlowTable := s.natFlowTable.erase natFlowHash
    natWanFlowTable := s.natWanFlowTable.erase f.wanKey }
  let s := match s.natPortAlloc.lookup f.remoteIpAddr with
    | none => s
    | some ports =>
      (s.setPorts f.remoteIpAddr (ports.erase f.wanPort)).dropEmptyPorts f.remoteIpAddr
  { s with flows := s.flows.erase p }

/-- The visit of one entry by `NatTableClear`; the idle time is a difference of `uint32`. -/
def clearEntry (s : NatIf) (e : Σ _ : NatFlowHash, FlowPtr) : NatIf :=
  match s.flows.lookup e.2 with
  | none => s
  | some f => if s.timeNow - f.lastAliveTime > 60 then s.removeFlow e.1 e.2 f else s

/-- One round of `NetIf.NatTableClear`. -/
def natTableClear (s : NatIf) : NatIf := s.natFlowTable.entries.foldl clearEntry s

end NatIf

/-- What can happen to the NAT tables of an interface. -/
inductive NatEvent where
  | addFlow (alloc : NatAlloc) (lanHostIpAddr remoteIpAddr : Ipv4Addr)
      (lanHostPort remotePort : UInt16) (ipv4HeadProto : UInt8)
  | getFlowByHash (remoteIpAddr : Ipv4Addr) (remotePort : UInt16) (lanHostIpAddr : Ipv4Addr)
      (lanHostPort : UInt16) (ipv4HeadProto : UInt8)
  | getFlowByWan (remoteIpAddr : Ipv4Addr) (remotePort : UInt16) (wanIpAddr : Ipv4Addr)
      (wanPort : UInt16) (ipv4HeadProto : UInt8)
  | setIpAddr (ipAddr : Ipv4Addr)
  | sweep
  | clock (timeNow : UInt32)
  /-- The local services change. -/
  | setServices (tcp udp : Finset UInt16)
  /-- The iteration order of the flow table changes. -/
  | reorder (table : Table NatFlowHash FlowPtr)

/-- One event, with the flow that the operation returns. A reordering into another map does
nothing. -/
def NatIf.step (s : NatIf) : NatEvent → NatIf × List NatFlow
  | .addFlow alloc lanHostIpAddr remoteIpAddr lanHostPort remotePort ipv4HeadProto =>
    let res := s.natAddFlow alloc lanHostIpAddr remoteIpAddr lanHostPort remotePort ipv4HeadProto
    (res.1, res.2.toList)
  | .getFlowByHash remoteIpAddr remotePort lanHostIpAddr lanHostPort ipv4HeadProto =>
    let res := s.natGetFlowByHash remoteIpAddr remotePort lanHostIpAddr lanHostPort ipv4HeadProto
    (res.1, res.2.toList)
  | .getFlowByWan remoteIpAddr remotePort wanIpAddr wanPort ipv4HeadProto =>
    let res := s.natGetFlowByWan remoteIpAddr remotePort wanIpAddr wanPort ipv4HeadProto
    (res.1, res.2.toList)
  | .setIpAddr ipAddr => ({ s with ipAddr := ipAddr }, [])
  | .sweep => (s.natTableClear, [])
  | .clock timeNow => ({ s with timeNow := timeNow }, [])
  | .setServices tcp udp => ({ s with tcpServiceMap := tcp, udpServiceMap := udp }, [])
  | .reorder table =>
    if table.entries.Perm s.natFlowTable.entries then ({ s with natFlowTable := table }, [])
    else (s, [])

/-- The NAT part of an interface after initialisation. -/
def initNatIf (natType : Int) (ipAddr : Ipv4Addr) (timeNow : UInt32)
    (natPortMappingTable : List NatPortMappingEntry) : NatIf where
  natType := natType
  ipAddr := ipAddr
  timeNow := timeNow
  natFlowTable := ∅
  natWanFlowTable := ∅
  natPortAlloc := ∅
  natPortMappingTable := natPortMappingTable
  tcpServiceMap := ∅
  udpServiceMap := ∅
  flows := ∅

end Halo
