import Halo.Hashmap.Storage
import Halo.Nat.Origin

/-!
# The memory of the NAT tables

`NatMem` is the NAT part of an interface as it lies in memory: the tables are hash maps with their
blocks, a port set is a `PortAlloc` that points to a map, and the flow records are blocks. The
allocator may fail at each of its calls (`NatAddBlocks`).

* `NatMem.natAddFlow`: `NetIf.NatAddFlow` with every call of the allocator.
* `Stores h c s t`: the memory `c` has the contents of the tables `s`; `t` is the table of the port
  sets with its pointers.
* `natAddFlow_stores`: the call on memory does what `NatIf.natAddFlow` does on tables.
* `natAddFlow_atomic`: a call that fails leaves all maps as they were, and every block that it has
  allocated and not freed belongs to one of the maps.
-/

namespace Halo

open Function

/-- The hash functions of the keys (`GetHashCode`). -/
structure NatHashes where
  /-- `NatFlowHash` -/
  lan : NatFlowHash → UInt64
  /-- `NatWanFlowHash` -/
  wan : NatWanFlowHash → UInt64
  /-- `IpAddrHash` -/
  remote : UInt32 → UInt64
  /-- `PortHash` -/
  port : UInt16 → UInt64

/-- What the allocator does during one `NatAddFlow`. -/
structure NatAddBlocks where
  /-- `MallocType[PortAlloc]` -/
  portAlloc : Option Nat
  /-- `NewHashMap`: the map, its list and its array -/
  mapSelf : Option Nat
  mapList : Option Nat
  mapData : Option Nat
  /-- `NatPortAlloc.Set` -/
  natPortAllocSet : SetBlocks
  /-- `UsePortMap.Set` -/
  usePortMapSet : SetBlocks
  /-- `MallocType[NatFlow]` -/
  natFlow : Option FlowPtr
  /-- `NatFlowTable.Set` -/
  natFlowTableSet : SetBlocks
  /-- `NatWanFlowTable.Set` -/
  natWanFlowTableSet : SetBlocks

/-- The NAT part of an interface in memory. -/
structure NatMem where
  natType : Int
  ipAddr : Ipv4Addr
  timeNow : UInt32
  natPortMappingTable : List NatPortMappingEntry
  tcpServiceMap : Finset UInt16
  udpServiceMap : Finset UInt16
  natFlowTable : StoredMap NatFlowHash FlowPtr
  natWanFlowTable : StoredMap NatWanFlowHash FlowPtr
  /-- The values point to the blocks in `portAllocs`. -/
  natPortAlloc : StoredMap UInt32 Nat
  /-- The `PortAlloc` blocks that are allocated; the map of a new one is `nil`. -/
  portAllocs : Heap (Option (StoredMap UInt16 Unit))
  /-- The flow records that are allocated. -/
  flows : Heap NatFlow
  /-- The blocks of the maps. -/
  ledger : Blocks

namespace NatMem

variable (h : NatHashes)

/-- The configuration, with empty tables. -/
def conf (c : NatMem) : NatIf where
  natType := c.natType
  ipAddr := c.ipAddr
  timeNow := c.timeNow
  natFlowTable := ∅
  natWanFlowTable := ∅
  natPortAlloc := ∅
  natPortMappingTable := c.natPortMappingTable
  tcpServiceMap := c.tcpServiceMap
  udpServiceMap := c.udpServiceMap
  flows := ∅

/-- The port search: `UsePortMap.Get`, and then the services and the static mappings. -/
def searchPort (c : NatMem) (m : StoredMap UInt16 Unit) (ipv4HeadProto : UInt8) :
    (fuel : Nat) → (wanPort : UInt16) → Option (Option UInt16)
  | 0, _ => some none
  | fuel + 1, wanPort =>
    let wanPort := wanPort + 1
    if wanPort = 0 then some none
    else do
      let use ← m.map.get h.port wanPort
      if use.isSome || c.conf.portTaken ∅ ipv4HeadProto wanPort then
        searchPort c m ipv4HeadProto fuel wanPort
      else return some wanPort

/-- `portAlloc.UsePortMap`; there is no result where the pointer is not one to a port set. -/
def usePortMap (c : NatMem) (p : Nat) : Option (StoredMap UInt16 Unit) := (c.portAllocs p).join

/-- The port set at `p` gets the map `m`. -/
def putPorts (c : NatMem) (p : Nat) (l : Blocks) (m : StoredMap UInt16 Unit) : NatMem :=
  { c with ledger := l, portAllocs := Function.update c.portAllocs p (some (some m)) }

/-- `UsePortMap.Del` of a port. -/
def delPort (c : NatMem) (p : Nat) (wanPort : UInt16) : Option NatMem := do
  let m ← c.usePortMap p
  let (l, m) ← m.del h.port c.ledger wanPort
  return c.putPorts p l m

/-- `MallocType[NatFlow]`. -/
def mallocFlow (c : NatMem) (choice : Option FlowPtr) : Option FlowPtr :=
  choice.filter fun p => (c.flows p).isNone

/-- `MallocType[PortAlloc]`. -/
def mallocPortAlloc (c : NatMem) (choice : Option Nat) : Option Nat :=
  choice.filter fun p => (c.portAllocs p).isNone

/-- The part of `NatAddFlow` after the port is marked as used. -/
def recordFlow (c : NatMem) (alloc : NatAddBlocks) (key : NatFlowHash) (p : Nat)
    (wanPort : UInt16) : Option (NatMem × Option NatFlow) :=
  match c.mallocFlow alloc.natFlow with
  | none => do
    let c ← c.delPort h p wanPort
    return (c, none)
  | some q => do
    let f := c.conf.newFlow key wanPort
    let c := { c with flows := Function.update c.flows q (some f) }
    let (l, lan, ok) ← c.natFlowTable.set h.lan c.ledger alloc.natFlowTableSet key q
    let c := { c with ledger := l, natFlowTable := lan }
    if !ok then
      let c ← c.delPort h p wanPort
      return ({ c with flows := Function.update c.flows q none }, none)
    let (l, wan, ok) ← c.natWanFlowTable.set h.wan c.ledger alloc.natWanFlowTableSet f.wanKey q
    let c := { c with ledger := l, natWanFlowTable := wan }
    if !ok then
      let (l, lan) ← c.natFlowTable.del h.lan c.ledger key
      let c := { c with ledger := l, natFlowTable := lan }
      let c ← c.delPort h p wanPort
      return ({ c with flows := Function.update c.flows q none }, none)
    return (c, some f)

/-- The part of `NatAddFlow` after the port set at `p` is there. -/
def createFlow (c : NatMem) (alloc : NatAddBlocks) (key : NatFlowHash) (p : Nat) :
    Option (NatMem × Option NatFlow) := do
  let m ← c.usePortMap p
  match ← c.searchPort h m key.ipv4HeadProto 32769 32767 with
  | none => return (c, none)
  | some wanPort =>
    let (l, m, ok) ← m.set h.port c.ledger alloc.usePortMapSet wanPort ()
    let c := c.putPorts p l m
    if !ok then return (c, none)
    c.recordFlow h alloc key p wanPort

/-- The creation of the port set of the remote address `r`: the state, and the pointer unless there
is no memory. -/
def createPortAlloc (c : NatMem) (alloc : NatAddBlocks) (r : UInt32) :
    Option (NatMem × Option Nat) :=
  match c.mallocPortAlloc alloc.portAlloc with
  | none => some (c, none)
  | some p => do
    let c := { c with portAllocs := Function.update c.portAllocs p (some none) }
    match ← StoredMap.newHashMap c.ledger alloc.mapSelf alloc.mapList alloc.mapData with
    | (l, none) => return ({ c with
        ledger := l
        portAllocs := Function.update c.portAllocs p none }, none)
    | (l, some m) =>
      let c := c.putPorts p l m
      let (l, remote, ok) ← c.natPortAlloc.set h.remote c.ledger alloc.natPortAllocSet r p
      let c := { c with ledger := l, natPortAlloc := remote }
      if !ok then
        let l ← m.free c.ledger
        return ({ c with ledger := l, portAllocs := Function.update c.portAllocs p none }, none)
      return (c, some p)

/-- The deferred function of `NatAddFlow`. -/
def dropEmptyPorts (c : NatMem) (r : UInt32) (p : Nat) : Option NatMem := do
  let m ← c.usePortMap p
  if m.map.len = 0 then
    let (l, remote) ← c.natPortAlloc.del h.remote c.ledger r
    let l ← m.free l
    return { c with
      ledger := l
      natPortAlloc := remote
      portAllocs := Function.update c.portAllocs p none }
  else return c

/-- `NetIf.NatAddFlow`. -/
def natAddFlow (c : NatMem) (alloc : NatAddBlocks) (lanHostIpAddr remoteIpAddr : Ipv4Addr)
    (lanHostPort remotePort : UInt16) (ipv4HeadProto : UInt8) : Option (NatMem × Option NatFlow) :=
  if lanHostPort = 0 ∨ remotePort = 0 then some (c, none)
  else do
    let key := c.conf.flowHash remoteIpAddr remotePort lanHostIpAddr lanHostPort ipv4HeadProto
    match ← c.natFlowTable.map.get h.lan key with
    | some q =>
      let f ← c.flows q
      let f := { f with lastAliveTime := c.timeNow }
      return ({ c with flows := Function.update c.flows q (some f) }, some f)
    | none =>
      match ← c.natPortAlloc.map.get h.remote key.remoteIpAddr with
      | some p => c.createFlow h alloc key p
      | none =>
        match ← c.createPortAlloc h alloc key.remoteIpAddr with
        | (c, none) => return (c, none)
        | (c, some p) =>
          let (c, res) ← c.createFlow h alloc key p
          let c ← c.dropEmptyPorts h key.remoteIpAddr p
          return (c, res)

end NatMem

/-- What the allocator does during one `NewHashMap`. -/
structure MapBlocks where
  self : Option Nat
  list : Option Nat
  data : Option Nat

/-- The NAT part of a new interface, with the maps of `NewRouter`; there is no result where one of
them is `nil`. -/
def initNatMem (natType : Int) (ipAddr : Ipv4Addr) (timeNow : UInt32)
    (natPortMappingTable : List NatPortMappingEntry) (lan wan remote : MapBlocks) :
    Option NatMem := do
  let (ledger, natFlowTable) ← StoredMap.newHashMap (fun _ => false) lan.self lan.list lan.data
  let (ledger, natWanFlowTable) ← StoredMap.newHashMap ledger wan.self wan.list wan.data
  let (ledger, natPortAlloc) ← StoredMap.newHashMap ledger remote.self remote.list remote.data
  return {
    natType, ipAddr, timeNow, natPortMappingTable
    tcpServiceMap := ∅
    udpServiceMap := ∅
    natFlowTable := ← natFlowTable
    natWanFlowTable := ← natWanFlowTable
    natPortAlloc := ← natPortAlloc
    portAllocs := fun _ => none
    flows := fun _ => none
    ledger }

namespace NatMem

variable (h : NatHashes)

/-! ## The tables in memory -/

/-- The maps of the NAT part. -/
inductive MapRef where
  | lan
  | wan
  | remote
  /-- The map of the port set at `p`. -/
  | ports (p : Nat)
  deriving DecidableEq

/-- The blocks of the maps. -/
def stores (c : NatMem) : MapRef → Option Blocks
  | .lan => some c.natFlowTable.store
  | .wan => some c.natWanFlowTable.store
  | .remote => some c.natPortAlloc.store
  | .ports p => (c.usePortMap p).map StoredMap.store

/-- The port set at `p` has the ports `ports`. -/
def HasPorts (c : NatMem) (p : Nat) (ports : Finset UInt16) : Prop :=
  ∃ m t, c.usePortMap p = some m ∧ m.Holds h.port t ∧
    ∀ w, (t.lookup w).isSome ↔ w ∈ ports

/-- The memory `c` has the contents of the tables `s`. -/
structure Stores (c : NatMem) (s : NatIf) (t : Table UInt32 Nat) : Prop where
  conf : c.conf = { s with natFlowTable := ∅, natWanFlowTable := ∅, natPortAlloc := ∅, flows := ∅ }
  lan : c.natFlowTable.Holds h.lan s.natFlowTable
  wan : c.natWanFlowTable.Holds h.wan s.natWanFlowTable
  remote : c.natPortAlloc.Holds h.remote t
  flows : ∀ q, c.flows q = s.flows.lookup q
  none_iff : ∀ r, s.natPortAlloc.lookup r = none ↔ t.lookup r = none
  ports : ∀ r p ports, t.lookup r = some p → s.natPortAlloc.lookup r = some ports →
    c.HasPorts h p ports
  inj : ∀ r r' p, t.lookup r = some p → t.lookup r' = some p → r = r'
  tidy : Tidy c.ledger c.stores

variable {h} {c : NatMem} {s : NatIf} {t : Table UInt32 Nat} {l : Blocks} {p : Nat} {r : UInt32}

/-! ## Single changes of the memory -/

variable {m : StoredMap UInt16 Unit} {ports : Finset UInt16} {tp : Table UInt16 Unit}

theorem stores_ports (hm : c.usePortMap p = some m) : c.stores (.ports p) = some m.store := by
  rw [stores, hm]
  rfl

/-- The port set at `p` gets another map, or there is none any more. -/
theorem stores_portAllocs (c : NatMem) (p : Nat) (l : Blocks)
    (new : Option (Option (StoredMap UInt16 Unit))) :
    { c with ledger := l, portAllocs := update c.portAllocs p new : NatMem }.stores =
      update c.stores (.ports p) (new.join.map StoredMap.store) := by
  funext i
  by_cases hi : i = .ports p
  · subst hi
    simp [stores, usePortMap]
  · rw [update_of_ne hi]
    cases i with
    | ports q =>
      have hq : q ≠ p := fun heq => hi (heq ▸ rfl)
      simp [stores, usePortMap, hq]
    | _ => rfl

theorem HasPorts.putPorts {q : Nat}
    (hp : c.HasPorts h q ports) (hq : q ≠ p) : (c.putPorts p l m).HasPorts h q ports := by
  obtain ⟨m', t, hm', ht, hports⟩ := hp
  refine ⟨m', t, ?_, ht, hports⟩
  simpa [usePortMap, NatMem.putPorts, hq] using hm'

/-- A change of one port set. -/
theorem Stores.putPorts {m' : StoredMap UInt16 Unit} (hs : Stores h c s t)
    (hr : t.lookup r = some p) (hm : c.usePortMap p = some m)
    (hc : Owns (c.ledger.without m.store) l m'.store) (ht : m'.Holds h.port tp)
    (hports : ∀ w, (tp.lookup w).isSome ↔ w ∈ ports) :
    Stores h (c.putPorts p l m') (s.setPorts r ports) t :=
  { hs with
    none_iff := fun r' => by
      rw [NatIf.setPorts, Table.lookup_insert_eq_ite]
      split
      · rename_i heq
        rw [heq, hr]
        simp
      · exact hs.none_iff r'
    ports := fun r' p' ports' hr' hports' => by
      rw [NatIf.setPorts, Table.lookup_insert_eq_ite] at hports'
      split at hports'
      · rename_i heq
        subst heq
        obtain rfl := Option.some_inj.mp (hr.symm.trans hr')
        obtain rfl := Option.some_inj.mp hports'
        exact ⟨m', tp, by simp [usePortMap, NatMem.putPorts], ht, hports⟩
      · rename_i heq
        refine (hs.ports r' p' ports' hr' hports').putPorts fun hp => heq ?_
        exact hs.inj r' r p (hp ▸ hr') hr
    tidy := by
      rw [NatMem.putPorts, stores_portAllocs]
      exact hs.tidy.change (stores_ports hm) hc }

theorem stores_natFlowTable (c : NatMem) (l : Blocks) (lan : StoredMap NatFlowHash FlowPtr) :
    { c with ledger := l, natFlowTable := lan : NatMem }.stores =
      update c.stores .lan (some lan.store) := by
  funext i
  cases i <;> simp [stores, usePortMap]

theorem stores_natWanFlowTable (c : NatMem) (l : Blocks) (wan : StoredMap NatWanFlowHash FlowPtr) :
    { c with ledger := l, natWanFlowTable := wan : NatMem }.stores =
      update c.stores .wan (some wan.store) := by
  funext i
  cases i <;> simp [stores, usePortMap]

theorem stores_natPortAlloc (c : NatMem) (l : Blocks) (remote : StoredMap UInt32 Nat) :
    { c with ledger := l, natPortAlloc := remote : NatMem }.stores =
      update c.stores .remote (some remote.store) := by
  funext i
  cases i <;> simp [stores, usePortMap]

/-- A change of the LAN table. -/
theorem Stores.setLan {lan : StoredMap NatFlowHash FlowPtr} {table : Table NatFlowHash FlowPtr}
    (hs : Stores h c s t) (hc : Owns (c.ledger.without c.natFlowTable.store) l lan.store)
    (htable : lan.Holds h.lan table) :
    Stores h { c with ledger := l, natFlowTable := lan } { s with natFlowTable := table } t :=
  { hs with
    lan := htable
    tidy := by
      rw [stores_natFlowTable]
      exact hs.tidy.change rfl hc }

/-- A change of the WAN table. -/
theorem Stores.setWan {wan : StoredMap NatWanFlowHash FlowPtr}
    {table : Table NatWanFlowHash FlowPtr} (hs : Stores h c s t)
    (hc : Owns (c.ledger.without c.natWanFlowTable.store) l wan.store)
    (htable : wan.Holds h.wan table) :
    Stores h { c with ledger := l, natWanFlowTable := wan } { s with natWanFlowTable := table } t :=
  { hs with
    wan := htable
    tidy := by
      rw [stores_natWanFlowTable]
      exact hs.tidy.change rfl hc }

/-- A change of the flow records. -/
theorem Stores.setFlows {flows : Heap NatFlow} {table : Table FlowPtr NatFlow} (hs : Stores h c s t)
    (hflows : ∀ q, flows q = table.lookup q) :
    Stores h { c with flows := flows } { s with flows := table } t :=
  { hs with flows := hflows }

theorem Stores.insertFlow (hs : Stores h c s t) (q : FlowPtr) (f : NatFlow) :
    Stores h { c with flows := update c.flows q (some f) }
      { s with flows := s.flows.insert q f } t := by
  refine hs.setFlows fun q' => ?_
  rw [update_apply, Table.lookup_insert_eq_ite, hs.flows]

theorem Stores.eraseFlow (hs : Stores h c s t) (q : FlowPtr) :
    Stores h { c with flows := update c.flows q none }
      { s with flows := s.flows.erase q } t := by
  refine hs.setFlows fun q' => ?_
  rw [update_apply, Table.lookup_erase_eq_ite, hs.flows]

/-- The same port sets are allocated. -/
def SameAllocs (c c' : NatMem) : Prop := ∀ q, (c'.portAllocs q).isSome = (c.portAllocs q).isSome

theorem SameAllocs.trans {c' c'' : NatMem} (hc : SameAllocs c c') (hc' : SameAllocs c' c'') :
    SameAllocs c c'' := fun q => (hc' q).trans (hc q)

theorem sameAllocs_putPorts {m' : StoredMap UInt16 Unit} (hm : c.usePortMap p = some m) :
    SameAllocs c (c.putPorts p l m') := by
  intro q
  by_cases hq : q = p
  · subst hq
    have hsome : (c.portAllocs q).isSome = true := by
      rw [usePortMap, Option.join_eq_some_iff] at hm
      rw [hm]
      rfl
    simp [putPorts, hsome]
  · simp [putPorts, hq]

theorem lookup_insert_isSome {w : UInt16} (hports : ∀ w, (tp.lookup w).isSome ↔ w ∈ ports)
    (w' : UInt16) : ((tp.insert w ()).lookup w').isSome ↔ w' ∈ insert w ports := by
  rw [Table.lookup_insert_eq_ite, Finset.mem_insert, ← hports]
  split <;> simp_all

theorem lookup_erase_isSome {w : UInt16} (hports : ∀ w, (tp.lookup w).isSome ↔ w ∈ ports)
    (w' : UInt16) : ((tp.erase w).lookup w').isSome ↔ w' ∈ ports.erase w := by
  rw [Table.lookup_erase_eq_ite, Finset.mem_erase, ← hports]
  split <;> simp_all

/-- `UsePortMap.Del`. -/
theorem delPort_spec (hs : Stores h c s t) (hr : t.lookup r = some p)
    (hports : s.natPortAlloc.lookup r = some ports) (w : UInt16) :
    ∃ c', c.delPort h p w = some c' ∧ Stores h c' (s.setPorts r (ports.erase w)) t ∧
      SameAllocs c c' := by
  obtain ⟨m, tp, hm, htp, hmem⟩ := hs.ports r p ports hr hports
  have howns := hs.tidy.owns (stores_ports hm)
  obtain ⟨l, m', hdel, hchanges, htp'⟩ := StoredMap.del_spec howns htp w
  refine ⟨c.putPorts p l m', by simp [delPort, hm, hdel], ?_, sameAllocs_putPorts hm⟩
  exact hs.putPorts hr hm hchanges htp' (lookup_erase_isSome hmem)

/-! ## The call -/

/-- The search finds the port that the search on tables finds. -/
theorem searchPort_eq (hs : Stores h c s t) (htp : m.Holds h.port tp)
    (hmem : ∀ w, (tp.lookup w).isSome ↔ w ∈ ports) (ipv4HeadProto : UInt8) (fuel : Nat)
    (w : UInt16) :
    c.searchPort h m ipv4HeadProto fuel w = some (s.searchPort ports ipv4HeadProto fuel w) := by
  have htaken : ∀ w, ((tp.lookup w).isSome || c.conf.portTaken ∅ ipv4HeadProto w) =
      s.portTaken ports ipv4HeadProto w := by
    intro w
    have hin : (tp.lookup w).isSome = decide (w ∈ ports) := by
      rw [Bool.eq_iff_iff, decide_eq_true_eq]
      exact hmem w
    rw [hin, hs.conf]
    simp only [NatIf.portTaken, Finset.notMem_empty, decide_false, Bool.false_or, Bool.or_assoc]
    rfl
  induction fuel generalizing w with
  | zero => rfl
  | succ fuel ih =>
    simp only [searchPort, NatIf.searchPort]
    split
    · rfl
    · rw [StoredMap.get_spec htp.rep]
      simp only [Option.bind_eq_bind, Option.bind_some, htaken]
      split
      · exact ih (w + 1)
      · rfl

theorem mallocFlow_eq (hs : Stores h c s t) (choice : Option FlowPtr) :
    c.mallocFlow choice = s.mallocFlow choice := by
  unfold mallocFlow NatIf.mallocFlow
  simp only [hs.flows]

theorem newFlow_eq (hs : Stores h c s t) (key : NatFlowHash) (w : UInt16) :
    c.conf.newFlow key w = s.newFlow key w := by
  rw [hs.conf]
  rfl

theorem putPorts_self (hm : c.usePortMap p = some m) : c.putPorts p c.ledger m = c := by
  rw [usePortMap, Option.join_eq_some_iff] at hm
  unfold putPorts
  rw [← hm, update_eq_self]

end NatMem

/-- The part of `createFlow` on tables after the port is marked as used. -/
def NatIf.recordFlow (s : NatIf) (alloc : NatAlloc) (key : NatFlowHash) (w : UInt16)
    (ports : Finset UInt16) : NatIf × Option NatFlow :=
  match s.mallocFlow alloc.natFlow with
  | none => (s.setPorts key.remoteIpAddr ((insert w ports).erase w), none)
  | some q =>
    let f := s.newFlow key w
    let s := { s with flows := s.flows.insert q f }
    if ¬ alloc.natFlowTableSet then
      let s := s.setPorts key.remoteIpAddr ((insert w ports).erase w)
      ({ s with flows := s.flows.erase q }, none)
    else
      let s := { s with natFlowTable := s.natFlowTable.insert key q }
      if ¬ alloc.natWanFlowTableSet then
        let s := { s with natFlowTable := s.natFlowTable.erase key }
        let s := s.setPorts key.remoteIpAddr ((insert w ports).erase w)
        ({ s with flows := s.flows.erase q }, none)
      else ({ s with natWanFlowTable := s.natWanFlowTable.insert f.wanKey q }, some f)

theorem NatIf.createFlow_eq (s : NatIf) (alloc : NatAlloc) (key : NatFlowHash)
    (ports : Finset UInt16) :
    s.createFlow alloc key ports =
      match s.choosePort ports key.ipv4HeadProto with
      | none => (s, none)
      | some w =>
        if ¬ alloc.usePortMapSet then (s, none)
        else (s.setPorts key.remoteIpAddr (insert w ports)).recordFlow alloc key w ports := rfl

namespace NatMem

variable {h : NatHashes} {c : NatMem} {s : NatIf} {t : Table UInt32 Nat} {p : Nat}
  {key : NatFlowHash} {ports : Finset UInt16}

/-- The part of the call after the port is marked. -/
theorem recordFlow_stores {w : UInt16} (hs : Stores h c s t)
    (hr : t.lookup key.remoteIpAddr = some p)
    (hports : s.natPortAlloc.lookup key.remoteIpAddr = some (insert w ports))
    (alloc : NatAddBlocks) :
    ∃ c' lanOk wanOk, c.recordFlow h alloc key p w = some (c',
        (s.recordFlow ⟨true, true, true, true, alloc.natFlow, lanOk, wanOk⟩ key w ports).2) ∧
      Stores h c'
        (s.recordFlow ⟨true, true, true, true, alloc.natFlow, lanOk, wanOk⟩ key w ports).1 t ∧
      SameAllocs c c' := by
  unfold recordFlow NatIf.recordFlow
  rw [mallocFlow_eq hs]
  dsimp only
  cases hmalloc : s.mallocFlow alloc.natFlow with
  | none =>
    obtain ⟨c', hdel, hs', hallocs⟩ := delPort_spec hs hr hports w
    exact ⟨c', false, false, by simp [hdel], hs', hallocs⟩
  | some q =>
    dsimp only
    rw [newFlow_eq hs]
    have hs₂ := hs.insertFlow q (s.newFlow key w)
    obtain ⟨l, lan, ok, hset, hchanges, hspec⟩ :=
      StoredMap.set_spec (hs₂.tidy.owns (i := .lan) rfl) hs₂.lan alloc.natFlowTableSet key q
    simp only [hset, Option.bind_eq_bind, Option.bind_some]
    cases ok with
    | false =>
      obtain ⟨-, rfl, rfl⟩ := hspec
      obtain ⟨c', hdel, hs', hallocs⟩ := delPort_spec hs₂ hr hports w
      refine ⟨{ c' with flows := update c'.flows q none }, false, false, ?_,
        hs'.eraseFlow q, hallocs⟩
      simp [hdel]
    | true =>
      have hs₃ := hs₂.setLan hchanges hspec
      obtain ⟨l', wan, ok, hset', hchanges', hspec'⟩ := StoredMap.set_spec
        (hs₃.tidy.owns (i := .wan) rfl) hs₃.wan alloc.natWanFlowTableSet (s.newFlow key w).wanKey q
      simp only [hset', Option.bind_some]
      cases ok with
      | false =>
        obtain ⟨-, rfl, rfl⟩ := hspec'
        obtain ⟨l'', lan', hdelLan, hchanges'', hlan'⟩ :=
          StoredMap.del_spec (hs₃.tidy.owns (i := .lan) rfl) hs₃.lan key
        have hs₄ := hs₃.setLan hchanges'' hlan'
        obtain ⟨c', hdel, hs', hallocs⟩ := delPort_spec hs₄ hr hports w
        refine ⟨{ c' with flows := update c'.flows q none }, true, false, ?_,
          hs'.eraseFlow q, hallocs⟩
        simp [hdelLan, hdel]
      | true =>
        exact ⟨_, true, true, rfl, hs₃.setWan hchanges' hspec', fun _ => rfl⟩

/-- The part of the call after the port set is there. -/
theorem createFlow_stores (hs : Stores h c s t) (hr : t.lookup key.remoteIpAddr = some p)
    (hports : s.natPortAlloc.lookup key.remoteIpAddr = some ports) (alloc : NatAddBlocks) :
    ∃ c' alloc', c.createFlow h alloc key p = some (c', (s.createFlow alloc' key ports).2) ∧
      Stores h c' (s.createFlow alloc' key ports).1 t ∧ SameAllocs c c' := by
  obtain ⟨m, tp, hm, htp, hmem⟩ := hs.ports _ p ports hr hports
  have hsearch : c.searchPort h m key.ipv4HeadProto 32769 32767 =
    some (s.choosePort ports key.ipv4HeadProto) := searchPort_eq hs htp hmem _ _ _
  cases hchoose : s.choosePort ports key.ipv4HeadProto with
  | none =>
    refine ⟨c, ⟨true, true, true, true, none, true, true⟩, ?_, ?_, fun _ => rfl⟩
    · simp [createFlow, hm, hsearch, hchoose, NatIf.createFlow_eq]
    · simpa [NatIf.createFlow_eq, hchoose] using hs
  | some w =>
    have howns := hs.tidy.owns (stores_ports hm)
    obtain ⟨l, m', ok, hset, hchanges, hspec⟩ :=
      StoredMap.set_spec howns htp alloc.usePortMapSet w ()
    cases ok with
    | false =>
      obtain ⟨-, rfl, rfl⟩ := hspec
      refine ⟨c, ⟨true, true, true, false, none, true, true⟩, ?_, ?_, fun _ => rfl⟩
      · simp [createFlow, hm, hsearch, hset, NatIf.createFlow_eq, hchoose, putPorts_self hm]
      · simpa [NatIf.createFlow_eq, hchoose] using hs
    | true =>
      have hs₁ := hs.putPorts hr hm hchanges hspec (lookup_insert_isSome hmem)
      have hallocs₁ : SameAllocs c (c.putPorts p l m') := sameAllocs_putPorts hm
      obtain ⟨c', lanOk, wanOk, hrun, hs', hallocs⟩ :=
        recordFlow_stores hs₁ hr (AList.lookup_insert s.natPortAlloc) alloc
      refine ⟨c', ⟨true, true, true, true, alloc.natFlow, lanOk, wanOk⟩, ?_, ?_,
        hallocs₁.trans hallocs⟩
      · simp [createFlow, hm, hsearch, hset, NatIf.createFlow_eq, hchoose, hrun]
      · simpa [NatIf.createFlow_eq, hchoose] using hs'

/-! ## New and empty port sets -/

variable {l : Blocks} {m : StoredMap UInt16 Unit} {r : UInt32}

theorem Stores.isSome_of_lookup (hs : Stores h c s t) (hr : t.lookup r = some p) :
    ∃ m, c.usePortMap p = some m := by
  cases hports : s.natPortAlloc.lookup r with
  | none =>
    rw [(hs.none_iff r).mp hports] at hr
    cases hr
  | some ports =>
    obtain ⟨m, -, hm, -⟩ := hs.ports r p ports hr hports
    exact ⟨m, hm⟩

/-- A new map for a port set that is in no table yet. -/
theorem Stores.newPorts (hs : Stores h c s t) (hp : c.portAllocs p = none)
    (hc : Owns c.ledger l m.store) : Stores h (c.putPorts p l m) s t :=
  { hs with
    ports := fun r' p' ports' hr' hports' => by
      refine (hs.ports r' p' ports' hr' hports').putPorts ?_
      rintro rfl
      obtain ⟨m', hm'⟩ := hs.isSome_of_lookup hr'
      rw [usePortMap, hp] at hm'
      cases hm'
    tidy := by
      rw [NatMem.putPorts, stores_portAllocs]
      refine hs.tidy.create ?_ hc
      rw [stores, usePortMap, hp]
      rfl }

/-- The end of a port set that is in no table. -/
theorem Stores.dropPorts (hs : Stores h c s t) (hp : ∀ r, t.lookup r ≠ some p)
    (hm : c.usePortMap p = some m) :
    Stores h { c with
      ledger := c.ledger.without m.store
      portAllocs := update c.portAllocs p none } s t :=
  { hs with
    ports := fun r' p' ports' hr' hports' => by
      obtain ⟨m', tp, hm', htp, hmem⟩ := hs.ports r' p' ports' hr' hports'
      have hne : p' ≠ p := fun heq => hp r' (heq ▸ hr')
      exact ⟨m', tp, by simpa [usePortMap, hne] using hm', htp, hmem⟩
    tidy := by
      rw [stores_portAllocs]
      exact hs.tidy.release (stores_ports hm) }

variable {remote : StoredMap UInt32 Nat} {c' : NatMem} {s' : NatIf}

/-- A change of the table of the port sets. -/
theorem Stores.setRemote {table : Table UInt32 Nat} {sets : Table UInt32 (Finset UInt16)}
    (hs : Stores h c s t) (hc : Owns (c.ledger.without c.natPortAlloc.store) l remote.store)
    (htable : remote.Holds h.remote table)
    (hnone : ∀ r, sets.lookup r = none ↔ table.lookup r = none)
    (hports : ∀ r p ports, table.lookup r = some p → sets.lookup r = some ports →
      c.HasPorts h p ports)
    (hinj : ∀ r r' p, table.lookup r = some p → table.lookup r' = some p → r = r') :
    Stores h { c with ledger := l, natPortAlloc := remote } { s with natPortAlloc := sets } table :=
  { hs with
    remote := htable
    none_iff := hnone
    ports := hports
    inj := hinj
    tidy := by
      rw [stores_natPortAlloc]
      exact hs.tidy.change rfl hc }

/-- The port set at `p` gets into the table. -/
theorem Stores.insertRemote (hs : Stores h c s t) (hnew : ∀ r, t.lookup r ≠ some p)
    (hp : c.HasPorts h p ∅) (hc : Owns (c.ledger.without c.natPortAlloc.store) l remote.store)
    (htable : remote.Holds h.remote (t.insert r p)) :
    Stores h { c with ledger := l, natPortAlloc := remote } (s.setPorts r ∅) (t.insert r p) := by
  refine hs.setRemote hc htable (fun r' => ?_) (fun r' p' ports hr' hports => ?_)
    (fun r₁ r₂ p' h₁ h₂ => ?_)
  · rw [Table.lookup_insert_eq_ite, Table.lookup_insert_eq_ite]
    split
    · simp
    · exact hs.none_iff r'
  · rw [Table.lookup_insert_eq_ite] at hr' hports
    split at hr'
    · rename_i heq
      rw [if_pos heq, Option.some_inj] at hports
      exact Option.some_inj.mp hr' ▸ hports ▸ hp
    · rename_i heq
      rw [if_neg heq] at hports
      exact hs.ports r' p' ports hr' hports
  · rw [Table.lookup_insert_eq_ite] at h₁ h₂
    split at h₁ <;> rename_i heq₁ <;> split at h₂ <;> rename_i heq₂
    · rw [heq₁, heq₂]
    · exact absurd (Option.some_inj.mp h₁ ▸ h₂) (hnew r₂)
    · exact absurd (Option.some_inj.mp h₂ ▸ h₁) (hnew r₁)
    · exact hs.inj r₁ r₂ p' h₁ h₂

/-- The port set at `p` gets out of the table. -/
theorem Stores.eraseRemote (hs : Stores h c s t) (r : UInt32)
    (hc : Owns (c.ledger.without c.natPortAlloc.store) l remote.store)
    (htable : remote.Holds h.remote (t.erase r)) :
    Stores h { c with ledger := l, natPortAlloc := remote }
      { s with natPortAlloc := s.natPortAlloc.erase r } (t.erase r) := by
  have hlookup : ∀ {r' : UInt32} {p : Nat}, (t.erase r).lookup r' = some p →
      r' ≠ r ∧ t.lookup r' = some p := by
    intro r' p hr'
    rw [Table.lookup_erase_eq_ite] at hr'
    split at hr'
    · cases hr'
    · rename_i heq
      exact ⟨heq, hr'⟩
  refine hs.setRemote hc htable (fun r' => ?_) (fun r' p' ports hr' hports => ?_)
    (fun r₁ r₂ p' h₁ h₂ => hs.inj r₁ r₂ p' (hlookup h₁).2 (hlookup h₂).2)
  · rw [Table.lookup_erase_eq_ite, Table.lookup_erase_eq_ite]
    split
    · simp
    · exact hs.none_iff r'
  · obtain ⟨heq, hr'⟩ := hlookup hr'
    rw [AList.lookup_erase_ne heq] at hports
    exact hs.ports r' p' ports hr' hports

/-- Every `PortAlloc` is in the table. -/
def Reached (c : NatMem) (t : Table UInt32 Nat) : Prop :=
  ∀ q, (c.portAllocs q).isSome → ∃ r, t.lookup r = some q

/-- The creation of a port set: there is one more, or nothing has changed. -/
theorem createPortAlloc_spec (hs : Stores h c s t) (hreached : c.Reached t)
    (hr : s.natPortAlloc.lookup r = none) (alloc : NatAddBlocks) :
    ∃ c' res, c.createPortAlloc h alloc r = some (c', res) ∧
      match res with
      | none => Stores h c' s t ∧ SameAllocs c c'
      | some p => (∀ r, t.lookup r ≠ some p) ∧ Stores h c' (s.setPorts r ∅) (t.insert r p) ∧
          c'.Reached (t.insert r p) := by
  unfold createPortAlloc
  cases hmalloc : c.mallocPortAlloc alloc.portAlloc with
  | none => exact ⟨c, none, rfl, hs, fun _ => rfl⟩
  | some p =>
    have hp : c.portAllocs p = none := by
      obtain ⟨-, hp⟩ := Option.filter_eq_some_iff.mp hmalloc
      exact Option.isNone_iff_eq_none.mp hp
    have hnew : ∀ r, t.lookup r ≠ some p := by
      intro r' hr'
      obtain ⟨m, hm⟩ := hs.isSome_of_lookup hr'
      rw [usePortMap, hp] at hm
      cases hm
    have hback : update c.portAllocs p none = c.portAllocs :=
      update_eq_self_iff.mpr hp.symm
    dsimp only
    rcases StoredMap.newHashMap_spec (V := Unit) h.port c.ledger alloc.mapSelf alloc.mapList
      alloc.mapData with hnone | ⟨l, m, hsome, hcreates, hempty⟩
    · refine ⟨c, none, ?_, hs, fun _ => rfl⟩
      simp only [hnone, Option.bind_eq_bind, Option.bind_some, update_idem, hback]
      rfl
    · rw [hsome]
      have hput : { c with portAllocs := update c.portAllocs p (some none) : NatMem }.putPorts
          p l m = c.putPorts p l m := by
        unfold putPorts
        simp only [update_idem]
      have hs₁ := hs.newPorts hp hcreates
      have hm : (c.putPorts p l m).usePortMap p = some m := by simp [usePortMap, putPorts]
      obtain ⟨l', remote, ok, hset, hchanges, hspec⟩ :=
        StoredMap.set_spec (hs₁.tidy.owns (i := .remote) rfl) hs₁.remote alloc.natPortAllocSet r p
      simp only [hput, hset, Option.bind_eq_bind, Option.bind_some]
      cases ok with
      | false =>
        obtain ⟨-, hl', hremote⟩ := hspec
        have hl : l' = l := hl'
        subst hl hremote
        have hfree : m.free l' = some _ :=
          StoredMap.free_spec (hs₁.tidy.owns (stores_ports hm)) hempty
        refine ⟨_, none, by simp [hfree], hs₁.dropPorts hnew hm, fun q => ?_⟩
        simp only [putPorts, update_idem, hback]
      | true =>
        refine ⟨_, some p, rfl, hnew, ?_, fun q hq => ?_⟩
        · exact hs₁.insertRemote hnew ⟨m, ∅, hm, hempty, by simp⟩ hchanges hspec
        · by_cases hqp : q = p
          · exact ⟨r, hqp ▸ AList.lookup_insert t⟩
          · simp only [putPorts, update_of_ne hqp] at hq
            obtain ⟨r', hr'⟩ := hreached q hq
            refine ⟨r', ?_⟩
            rw [AList.lookup_insert_ne]
            · exact hr'
            · rintro rfl
              rw [(hs.none_iff r').mp hr] at hr'
              cases hr'

theorem card_eq_zero_iff {tp : Table UInt16 Unit} (hmem : ∀ w, (tp.lookup w).isSome ↔ w ∈ ports) :
    ports.card = 0 ↔ tp.entries.length = 0 := by
  rw [Finset.card_eq_zero, List.length_eq_zero_iff, Finset.eq_empty_iff_forall_notMem]
  constructor
  · intro hempty
    by_contra hne
    obtain ⟨e, es, hes⟩ := List.exists_cons_of_ne_nil hne
    refine hempty e.1 ((hmem e.1).mp (AList.lookup_isSome.mpr ?_))
    rw [AList.mem_keys, AList.keys, hes]
    exact List.mem_cons_self
  · intro hnil w hw
    have hsome := AList.lookup_isSome.mp ((hmem w).mpr hw)
    rw [AList.mem_keys, AList.keys, hnil] at hsome
    cases hsome

/-- The deferred function: an empty port set is deleted with its blocks. -/
theorem dropEmptyPorts_spec (hs : Stores h c s t) (hreached : c.Reached t)
    (hr : t.lookup r = some p) (hports : s.natPortAlloc.lookup r = some ports) :
    ∃ c', c.dropEmptyPorts h r p = some c' ∧
      Stores h c' (s.dropEmptyPorts r) (if ports.card = 0 then t.erase r else t) ∧
      c'.Reached (if ports.card = 0 then t.erase r else t) := by
  obtain ⟨m, tp, hm, htp, hmem⟩ := hs.ports r p ports hr hports
  have hlen := StoredMap.len_spec htp.rep
  have hcard := card_eq_zero_iff hmem
  by_cases hzero : ports.card = 0
  · have hlen0 : m.map.len = 0 := by rw [hlen]; exact hcard.mp hzero
    obtain ⟨l, remote, hdel, hchanges, htable⟩ :=
      StoredMap.del_spec (hs.tidy.owns (i := .remote) rfl) hs.remote r
    have hs₁ := hs.eraseRemote r hchanges htable
    have hfree : m.free l = some _ := StoredMap.free_spec (hs₁.tidy.owns (stores_ports hm)) htp
    have hnew : ∀ r', (t.erase r).lookup r' ≠ some p := by
      intro r' hr'
      by_cases heq : r' = r
      · rw [heq, AList.lookup_erase] at hr'
        cases hr'
      · rw [AList.lookup_erase_ne heq] at hr'
        exact heq (hs.inj r' r p hr' hr)
    refine ⟨{ c with
      ledger := l.without m.store
      natPortAlloc := remote
      portAllocs := update c.portAllocs p none }, ?_, ?_, ?_⟩
    · simp [dropEmptyPorts, hm, hlen0, hdel, hfree]
    · rw [if_pos hzero, NatIf.dropEmptyPorts, hports]
      dsimp only
      rw [if_pos hzero]
      exact hs₁.dropPorts hnew hm
    · rw [if_pos hzero]
      intro q hq
      by_cases hqp : q = p
      · subst hqp
        simp at hq
      · simp only [update_of_ne hqp] at hq
        obtain ⟨r', hr'⟩ := hreached q hq
        refine ⟨r', ?_⟩
        rw [AList.lookup_erase_ne]
        · exact hr'
        · rintro rfl
          exact hqp (Option.some_inj.mp (hr'.symm.trans hr))
  · have hlen0 : m.map.len ≠ 0 := by
      rw [hlen]
      exact mt hcard.mpr hzero
    refine ⟨c, by simp [dropEmptyPorts, hm, hlen0], ?_, ?_⟩
    · rw [if_neg hzero, NatIf.dropEmptyPorts, hports]
      dsimp only
      rw [if_neg hzero]
      exact hs
    · rw [if_neg hzero]
      exact hreached

theorem SameAllocs.reached (hc : SameAllocs c c') (hreached : c.Reached t) :
    c'.Reached t := fun q hq => hreached q (hc q ▸ hq)

/-! ## The whole call -/

/-- A new port set that stays empty is dropped again. -/
theorem sameTables_dropEmptyPorts (hr : s.natPortAlloc.lookup r = none)
    (hsame : NatIf.SameTables (s.setPorts r ∅) s') : NatIf.SameTables s (s'.dropEmptyPorts r) where
  flows q := by
    rw [NatIf.dropEmptyPorts_flows]
    exact hsame.flows q
  lan k := by
    rw [NatIf.dropEmptyPorts_natFlowTable]
    exact hsame.lan k
  wan k := by
    rw [NatIf.dropEmptyPorts_natWanFlowTable]
    exact hsame.wan k
  ports r' := by
    have hempty : s'.natPortAlloc.lookup r = some ∅ :=
      (hsame.ports r).trans (AList.lookup_insert s.natPortAlloc)
    simp only [NatIf.dropEmptyPorts, hempty, Finset.card_empty, if_true]
    by_cases heq : r' = r
    · rw [heq, AList.lookup_erase, hr]
    · rw [AList.lookup_erase_ne heq, hsame.ports]
      exact AList.lookup_insert_ne heq

/-- The creation of a flow after that of the port set at `p`. -/
theorem createFlow_newPorts (hr : s.natPortAlloc.lookup key.remoteIpAddr = none)
    (htr : t.lookup key.remoteIpAddr = none) (hkey : s.natFlowTable.lookup key = none)
    (hs : Stores h c (s.setPorts key.remoteIpAddr ∅) (t.insert key.remoteIpAddr p))
    (hreached : c.Reached (t.insert key.remoteIpAddr p)) (alloc : NatAddBlocks) :
    ∃ c₁ c' alloc' t',
      let res := (s.setPorts key.remoteIpAddr ∅).createFlow alloc' key ∅
      c.createFlow h alloc key p = some (c₁, res.2) ∧
      c₁.dropEmptyPorts h key.remoteIpAddr p = some c' ∧
      Stores h c' (res.1.dropEmptyPorts key.remoteIpAddr) t' ∧ c'.Reached t' ∧
      (res.2 = none → NatIf.SameTables s (res.1.dropEmptyPorts key.remoteIpAddr) ∧
        ∀ r, t'.lookup r = t.lookup r) := by
  have hp := AList.lookup_insert (a := key.remoteIpAddr) (b := p) t
  have hempty :=
    AList.lookup_insert (a := key.remoteIpAddr) (b := (∅ : Finset UInt16)) s.natPortAlloc
  obtain ⟨c₁, alloc', hcreate, hs₁, hallocs⟩ := createFlow_stores hs hp hempty alloc
  have hreached₁ := hallocs.reached hreached
  have hcreated := NatIf.createFlow_created (s := s.setPorts key.remoteIpAddr ∅) alloc' hempty hkey
  refine ⟨c₁, ?_⟩
  generalize hres : (s.setPorts key.remoteIpAddr ∅).createFlow alloc' key ∅ = res at *
  cases hcreated with
  | failed hsame =>
    obtain ⟨c', hdrop, hs', hreached'⟩ := dropEmptyPorts_spec hs₁ hreached₁ hp
      ((hsame.ports _).trans hempty)
    simp only [Finset.card_empty, if_true] at hs' hreached'
    refine ⟨c', alloc', (t.insert key.remoteIpAddr p).erase key.remoteIpAddr, ?_⟩
    rw [hres]
    exact ⟨hcreate, hdrop, hs', hreached', fun _ => ⟨sameTables_dropEmptyPorts hr hsame,
      Table.lookup_erase_insert htr p⟩⟩
  | done q w hins hq hports hw =>
    obtain ⟨c', hdrop, hs', hreached'⟩ := dropEmptyPorts_spec hs₁ hreached₁ hp
      (hports ▸ AList.lookup_insert _)
    rw [if_neg (Finset.card_ne_zero_of_mem (Finset.mem_insert_self w ∅))] at hs' hreached'
    refine ⟨c', alloc', t.insert key.remoteIpAddr p, ?_⟩
    rw [hres]
    exact ⟨hcreate, hdrop, hs', hreached', fun hnone => by cases hnone⟩

/-- `NatAddFlow` on memory does what it does on tables. -/
theorem natAddFlow_stores (hs : Stores h c s t) (hreached : c.Reached t) (hagrees : s.Agrees)
    (alloc : NatAddBlocks) (lanHostIpAddr remoteIpAddr : Ipv4Addr) (lanHostPort remotePort : UInt16)
    (ipv4HeadProto : UInt8) :
    ∃ c' alloc' t',
      let res := s.natAddFlow alloc' lanHostIpAddr remoteIpAddr lanHostPort remotePort ipv4HeadProto
      c.natAddFlow h alloc lanHostIpAddr remoteIpAddr lanHostPort remotePort ipv4HeadProto =
        some (c', res.2) ∧ Stores h c' res.1 t' ∧ c'.Reached t' ∧
      (res.2 = none → NatIf.SameTables s res.1 ∧ ∀ r, t'.lookup r = t.lookup r) := by
  have hhash : c.conf.flowHash remoteIpAddr remotePort lanHostIpAddr lanHostPort ipv4HeadProto =
      s.flowHash remoteIpAddr remotePort lanHostIpAddr lanHostPort ipv4HeadProto := by
    rw [hs.conf]
    rfl
  have htime : c.timeNow = s.timeNow := congrArg NatIf.timeNow hs.conf
  have hsame : NatIf.SameTables s s := ⟨fun _ => rfl, fun _ => rfl, fun _ => rfl, fun _ => rfl⟩
  let never : NatAlloc := ⟨false, false, false, false, none, false, false⟩
  unfold natAddFlow NatIf.natAddFlow
  rw [hhash]
  generalize s.flowHash remoteIpAddr remotePort lanHostIpAddr lanHostPort ipv4HeadProto = key
  by_cases hzero : lanHostPort = 0 ∨ remotePort = 0
  · simp only [if_pos hzero]
    exact ⟨c, never, t, rfl, hs, hreached, fun _ => ⟨hsame, fun _ => rfl⟩⟩
  simp only [if_neg hzero, StoredMap.get_spec hs.lan.rep, StoredMap.get_spec hs.remote.rep,
    Option.bind_eq_bind, Option.bind_some]
  cases hkey : s.natFlowTable.lookup key with
  | some q =>
    -- the flow is there: its record gets the time of the call
    obtain ⟨f, hf, -⟩ := (hagrees.lan_iff key q).mp hkey
    have hflow : c.flows q = some f := (hs.flows q).trans hf
    have hrefresh : s.refresh q = ({ s with
        flows := s.flows.insert q { f with lastAliveTime := c.timeNow } },
        some { f with lastAliveTime := c.timeNow }) := by
      rw [NatIf.refresh, show s.flows.lookup q = some f from hf, htime]
    simp only [hflow, hrefresh, Option.bind_some]
    exact ⟨_, never, t, rfl, hs.insertFlow q _, hreached, fun hnone => by cases hnone⟩
  | none =>
    cases hr : s.natPortAlloc.lookup key.remoteIpAddr with
    | some ports =>
      obtain ⟨p, hp⟩ := Option.ne_none_iff_exists'.mp
        (mt (hs.none_iff key.remoteIpAddr).mpr (by rw [hr]; exact Option.some_ne_none ports))
      obtain ⟨c', alloc', hcreate, hs', hallocs⟩ := createFlow_stores hs hp hr alloc
      refine ⟨c', alloc', t, ?_, hs', hallocs.reached hreached, fun hnone => ?_⟩
      · simp only [hp]
        exact hcreate
      · have hcreated := NatIf.createFlow_created alloc' hr hkey
        dsimp only at hnone ⊢
        generalize s.createFlow alloc' key ports = res at hnone hcreated ⊢
        cases hcreated with
        | failed hfailed => exact ⟨hfailed, fun _ => rfl⟩
        | done => cases hnone
    | none =>
      have htr := (hs.none_iff key.remoteIpAddr).mp hr
      obtain ⟨c₁, res, hports, hspec⟩ := createPortAlloc_spec hs hreached hr alloc
      simp only [htr, hports, Option.bind_some]
      cases res with
      | none =>
        obtain ⟨hs', hallocs⟩ := hspec
        exact ⟨c₁, never, t, rfl, hs', hallocs.reached hreached, fun _ => ⟨hsame, fun _ => rfl⟩⟩
      | some p =>
        obtain ⟨-, hs₁, hreached₁⟩ := hspec
        obtain ⟨c₂, c', alloc', t', hcreate, hdrop, hs', hreached', hfail⟩ :=
          createFlow_newPorts hr htr hkey hs₁ hreached₁ alloc
        refine ⟨c', { alloc' with portAlloc := true, usePortMap := true, natPortAllocSet := true },
          t', ?_, hs', hreached', hfail⟩
        simp only [hcreate, hdrop, Option.bind_some]
        rfl

/-! ## Failure -/

/-- A block that the NAT part allocates. -/
inductive NatBlock where
  | map (p : Nat)
  | portAlloc (p : Nat)
  | natFlow (q : FlowPtr)

/-- Whether a block is allocated. -/
def live (c : NatMem) : NatBlock → Bool
  | .map p => c.ledger p
  | .portAlloc p => (c.portAllocs p).isSome
  | .natFlow q => (c.flows q).isSome

/-- The block is part of the storage of a map. -/
def InMap (c : NatMem) : NatBlock → Prop
  | .map p => ∃ i own, c.stores i = some own ∧ own p = true
  | .portAlloc _ | .natFlow _ => False

/-- The memory has consistent tables, and no block outside of them. -/
def Consistent (h : NatHashes) (c : NatMem) : Prop :=
  ∃ s t, Stores h c s t ∧ s.Consistent ∧ c.Reached t

/-- The maps and the records are the same. -/
structure SameMaps (h : NatHashes) (c c' : NatMem) : Prop where
  lan : ∀ k, c'.natFlowTable.map.get h.lan k = c.natFlowTable.map.get h.lan k
  wan : ∀ k, c'.natWanFlowTable.map.get h.wan k = c.natWanFlowTable.map.get h.wan k
  remote : ∀ r, c'.natPortAlloc.map.get h.remote r = c.natPortAlloc.map.get h.remote r
  ports : ∀ r p, c.natPortAlloc.map.get h.remote r = some (some p) →
    ∃ m m', c.usePortMap p = some m ∧ c'.usePortMap p = some m' ∧
      ∀ w, m'.map.get h.port w = m.map.get h.port w
  flows : ∀ q, c'.flows q = c.flows q

theorem Stores.sameMaps {t' : Table UInt32 Nat} (hs : Stores h c s t)
    (hs' : Stores h c' s' t') (hsame : NatIf.SameTables s s') (ht : ∀ r, t'.lookup r = t.lookup r) :
    SameMaps h c c' where
  lan k := by rw [StoredMap.get_spec hs'.lan.rep, StoredMap.get_spec hs.lan.rep, hsame.lan]
  wan k := by rw [StoredMap.get_spec hs'.wan.rep, StoredMap.get_spec hs.wan.rep, hsame.wan]
  remote r := by rw [StoredMap.get_spec hs'.remote.rep, StoredMap.get_spec hs.remote.rep, ht]
  ports r p hr := by
    rw [StoredMap.get_spec hs.remote.rep, Option.some_inj] at hr
    obtain ⟨ports, hports⟩ : ∃ ports, s.natPortAlloc.lookup r = some ports := by
      rw [← Option.ne_none_iff_exists', Ne, hs.none_iff, hr]
      exact Option.some_ne_none p
    obtain ⟨m, tp, hm, htp, hmem⟩ := hs.ports r p ports hr hports
    obtain ⟨m', tp', hm', htp', hmem'⟩ :=
      hs'.ports r p ports ((ht r).trans hr) ((hsame.ports r).trans hports)
    refine ⟨m, m', hm, hm', fun w => ?_⟩
    rw [StoredMap.get_spec htp'.rep, StoredMap.get_spec htp.rep, Option.some_inj]
    have hiff : (tp'.lookup w).isSome = (tp.lookup w).isSome :=
      Bool.eq_iff_iff.mpr ((hmem' w).trans (hmem w).symm)
    cases hw : tp.lookup w <;> cases hw' : tp'.lookup w <;> simp_all
  flows q := by rw [hs'.flows, hs.flows, hsame.flows]

/-- A block that is new after a change without effect is part of a map. -/
theorem Stores.inMap {t' : Table UInt32 Nat} (hs : Stores h c s t)
    (hs' : Stores h c' s' t') (hreached : c'.Reached t') (hsame : NatIf.SameTables s s')
    (ht : ∀ r, t'.lookup r = t.lookup r) {b : NatBlock} (hlive : c'.live b = true)
    (hnew : c.live b = false) : c'.InMap b := by
  cases b with
  | map p => exact (hs'.tidy.live_iff p).mp hlive
  | portAlloc p =>
    obtain ⟨r, hr⟩ := hreached p hlive
    obtain ⟨m, hm⟩ := hs.isSome_of_lookup ((ht r).symm.trans hr)
    rw [usePortMap, Option.join_eq_some_iff] at hm
    rw [live, hm] at hnew
    cases hnew
  | natFlow q =>
    rw [live, hs.flows, ← hsame.flows, ← hs'.flows] at hnew
    exact absurd hlive (Bool.eq_false_iff.mp hnew)

/-- The memory of a new interface is consistent. -/
theorem consistent_initNatMem (h : NatHashes) {natType : Int} {ipAddr : Ipv4Addr} {timeNow : UInt32}
    {natPortMappingTable : List NatPortMappingEntry} {lan wan remote : MapBlocks}
    (hinit : initNatMem natType ipAddr timeNow natPortMappingTable lan wan remote = some c) :
    c.Consistent h := by
  have hnil : Tidy (fun _ => false) fun _ : MapRef => none := by
    refine ⟨fun p => ⟨fun hp => (by cases hp), ?_⟩, fun _ _ _ _ _ hi => by cases hi⟩
    rintro ⟨_, _, hi, _⟩
    cases hi
  rcases StoredMap.newHashMap_spec (V := FlowPtr) h.lan (fun _ => false) lan.self lan.list
    lan.data with
    hnone | ⟨l₁, m₁, hm₁, hc₁, hr₁⟩
  · simp [initNatMem, hnone] at hinit
  rcases StoredMap.newHashMap_spec (V := FlowPtr) h.wan l₁ wan.self wan.list wan.data with
    hnone | ⟨l₂, m₂, hm₂, hc₂, hr₂⟩
  · simp [initNatMem, hm₁, hnone] at hinit
  rcases StoredMap.newHashMap_spec (V := Nat) h.remote l₂ remote.self remote.list remote.data with
    hnone | ⟨l₃, m₃, hm₃, hc₃, hr₃⟩
  · simp [initNatMem, hm₁, hm₂, hnone] at hinit
  simp only [initNatMem, hm₁, hm₂, hm₃, Option.bind_eq_bind, Option.bind_some] at hinit
  cases hinit
  refine ⟨initNatIf natType ipAddr timeNow natPortMappingTable, ∅,
    ⟨rfl, hr₁, hr₂, hr₃, fun _ => rfl,
    fun _ => iff_of_true rfl rfl, fun _ _ _ hr => (by cases hr), fun _ _ _ hr => (by cases hr), ?_⟩,
    NatIf.consistent_init .., fun _ hq => by cases hq⟩
  have htidy := ((hnil.create (i := .lan) rfl hc₁).create (i := .wan) rfl hc₂).create
    (i := .remote) rfl hc₃
  convert htidy using 1
  funext i
  cases i <;> rfl

/-- `NatAddFlow` is atomic: a call that fails leaves every map and every record as it was, and a
block that is allocated only after the call is part of the storage of a map. Every call ends with
consistent memory. -/
theorem natAddFlow_atomic (hc : c.Consistent h) (alloc : NatAddBlocks)
    (lanHostIpAddr remoteIpAddr : Ipv4Addr) (lanHostPort remotePort : UInt16)
    (ipv4HeadProto : UInt8) :
    ∃ c' res, c.natAddFlow h alloc lanHostIpAddr remoteIpAddr lanHostPort remotePort ipv4HeadProto =
        some (c', res) ∧ c'.Consistent h ∧
      (res = none → SameMaps h c c' ∧ ∀ b, c'.live b = true → c.live b = false → c'.InMap b) := by
  obtain ⟨s, t, hs, hconsistent, hreached⟩ := hc
  obtain ⟨c', alloc', t', hrun, hs', hreached', hfail⟩ := natAddFlow_stores hs hreached
    hconsistent.toAgrees alloc lanHostIpAddr remoteIpAddr lanHostPort remotePort ipv4HeadProto
  refine ⟨c', _, hrun, ⟨_, t', hs', hconsistent.natAddFlow .., hreached'⟩, fun hnone => ?_⟩
  obtain ⟨hsame, ht⟩ := hfail hnone
  exact ⟨hs.sameMaps hs' hsame ht, fun b => hs.inMap hs' hreached' hsame ht⟩

/-- The last `Set` finds no memory for its entry: everything is taken back. -/
theorem natAddFlow_atomic_last_set :
    let h : NatHashes := ⟨fun _ => 0, fun _ => 0, fun r => r.toUInt64, fun w => w.toUInt64⟩
    let set : Option Nat → SetBlocks := fun p => ⟨p, none, none, []⟩
    ∃ c c', initNatMem 0 #v[203, 0, 113, 1] 100 [] ⟨some 1, some 2, some 3⟩ ⟨some 4, some 5, some 6⟩
        ⟨some 7, some 8, some 9⟩ = some c ∧
      c.natAddFlow h ⟨some 1, some 10, some 11, some 12, set (some 13), set (some 14), some 1,
        set (some 15), set none⟩ #v[192, 168, 0, 2] #v[198, 51, 100, 1] 5000 53 17 =
        some (c', none) ∧
      SameMaps h c c' ∧ ∀ b, c'.live b = true → c.live b = false → c'.InMap b := by
  intro h set
  obtain ⟨c, hinit⟩ : ∃ c, initNatMem 0 #v[203, 0, 113, 1] 100 [] ⟨some 1, some 2, some 3⟩
    ⟨some 4, some 5, some 6⟩ ⟨some 7, some 8, some 9⟩ = some c := ⟨_, rfl⟩
  obtain ⟨c', res, hrun, -, hfail⟩ := natAddFlow_atomic (consistent_initNatMem h hinit)
    ⟨some 1, some 10, some 11, some 12, set (some 13), set (some 14), some 1,
      set (some 15), set none⟩
    #v[192, 168, 0, 2] #v[198, 51, 100, 1] 5000 53 17
  have hnone : ((initNatMem 0 #v[203, 0, 113, 1] 100 [] ⟨some 1, some 2, some 3⟩
      ⟨some 4, some 5, some 6⟩ ⟨some 7, some 8, some 9⟩).bind fun c => (c.natAddFlow h ⟨some 1,
        some 10, some 11, some 12, set (some 13), set (some 14), some 1, set (some 15), set none⟩
        #v[192, 168, 0, 2] #v[198, 51, 100, 1] 5000 53 17).map fun res => res.2.isSome) =
      some false := by
    decide +kernel
  rw [hinit, Option.bind_some, hrun, Option.map_some, Option.some_inj, Option.isSome_eq_false_iff,
    Option.isNone_iff_eq_none] at hnone
  subst hnone
  exact ⟨c, c', hinit, hrun, hfail rfl⟩

end NatMem

end Halo
