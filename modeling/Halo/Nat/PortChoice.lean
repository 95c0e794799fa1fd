import Halo.Nat.Consistent

/-!
# The WAN port of a new flow

`NatAddFlow` looks for a port with a 16-bit counter that starts below `32768` and ends the search
where it wraps to zero.

* `FreePort`: what makes a port of the dynamic range fit for a new flow.
* `SearchEnds`: the unbounded loop, as a big-step relation. `choosePort_ends` says that the loop
  ends, with the result of `choosePort`.
* `natAddFlow_chooses_free_port`: a flow is created exactly if there is a free port, and it gets
  one.
-/

namespace Halo

namespace NatIf

variable {s : NatIf} {ports : Finset UInt16} {ipv4HeadProto : UInt8}

/-- `wanPort` has a static mapping. `CheckNatPortMapping` knows mappings of TCP and UDP only: a
table entry for another protocol maps nothing. -/
def StaticallyMapped (s : NatIf) (ipv4HeadProto : UInt8) (wanPort : UInt16) : Prop :=
  (ipv4HeadProto = iphProtoTcp ∨ ipv4HeadProto = iphProtoUdp) ∧
    ∃ e ∈ s.natPortMappingTable, e.wanPort = wanPort ∧ e.ipv4HeadProto = ipv4HeadProto

/-- A local service of the protocol has `wanPort`. -/
def LocalService (s : NatIf) (ipv4HeadProto : UInt8) (wanPort : UInt16) : Prop :=
  (ipv4HeadProto = iphProtoTcp ∧ wanPort ∈ s.tcpServiceMap) ∨
    (ipv4HeadProto = iphProtoUdp ∧ wanPort ∈ s.udpServiceMap)

/-- A port of the dynamic range that a new flow to the normalised remote address may get. -/
structure FreePort (s : NatIf) (remoteIpAddr : UInt32) (ipv4HeadProto : UInt8) (wanPort : UInt16) :
    Prop where
  dynamic : 32768 ≤ wanPort.toNat
  unused : ¬ s.PortUsed remoteIpAddr wanPort
  no_service : ¬ s.LocalService ipv4HeadProto wanPort
  no_mapping : ¬ s.StaticallyMapped ipv4HeadProto wanPort

/-- The used ports of a remote address. -/
def usedPorts (s : NatIf) (remoteIpAddr : UInt32) : Finset UInt16 :=
  (s.natPortAlloc.lookup remoteIpAddr).getD ∅

variable {r : UInt32} {w : UInt16}

theorem mem_usedPorts : w ∈ s.usedPorts r ↔ s.PortUsed r w := by
  unfold usedPorts PortUsed
  cases s.natPortAlloc.lookup r <;> simp

theorem checkNatPortMappingWan_isSome :
    (s.checkNatPortMappingWan w ipv4HeadProto).isSome ↔ s.StaticallyMapped ipv4HeadProto w := by
  unfold checkNatPortMappingWan StaticallyMapped
  split
  · rename_i h
    simp [h.1, h.2]
  · rename_i h
    have hproto : ipv4HeadProto = iphProtoTcp ∨ ipv4HeadProto = iphProtoUdp := by
      by_contra hne
      exact h (not_or.mp hne)
    simp [hproto, List.find?_isSome]

/-- The loop passes over exactly the ports that are not free. -/
theorem portTaken_eq_false_iff (hw : 32768 ≤ w.toNat) :
    s.portTaken (s.usedPorts r) ipv4HeadProto w = false ↔ s.FreePort r ipv4HeadProto w := by
  have htaken : s.portTaken (s.usedPorts r) ipv4HeadProto w = true ↔
      (s.PortUsed r w ∨ s.LocalService ipv4HeadProto w) ∨ s.StaticallyMapped ipv4HeadProto w := by
    simp only [portTaken, Bool.or_eq_true, Bool.and_eq_true, decide_eq_true_eq, mem_usedPorts,
      checkNatPortMappingWan_isSome, LocalService, or_assoc]
  rw [← Bool.not_eq_true, htaken]
  constructor
  · intro h
    exact ⟨hw, fun hu => h (.inl (.inl hu)), fun hl => h (.inl (.inr hl)), fun hm => h (.inr hm)⟩
  · rintro ⟨-, hu, hl, hm⟩ ((h | h) | h)
    · exact hu h
    · exact hl h
    · exact hm h

/-! ## The search ends -/

/-- The loop of the port search, entered after `wanPort` was examined, ends with a result. -/
inductive SearchEnds (s : NatIf) (ports : Finset UInt16) (ipv4HeadProto : UInt8) :
    UInt16 → Option UInt16 → Prop
  | wrapped {wanPort : UInt16} (hwrap : wanPort + 1 = 0) :
      SearchEnds s ports ipv4HeadProto wanPort none
  | found {wanPort : UInt16} (hwrap : wanPort + 1 ≠ 0)
      (hfree : s.portTaken ports ipv4HeadProto (wanPort + 1) = false) :
      SearchEnds s ports ipv4HeadProto wanPort (some (wanPort + 1))
  | next {wanPort : UInt16} {res : Option UInt16} (hwrap : wanPort + 1 ≠ 0)
      (htaken : s.portTaken ports ipv4HeadProto (wanPort + 1) = true)
      (hrest : SearchEnds s ports ipv4HeadProto (wanPort + 1) res) :
      SearchEnds s ports ipv4HeadProto wanPort res

/-- The counter goes up by one until it wraps. -/
theorem toNat_add_one_of_ne_zero (h : w + 1 ≠ 0) : (w + 1).toNat = w.toNat + 1 := by
  have hlt : w.toNat < 65536 := w.toNat_lt
  have hadd : (w + 1).toNat = (w.toNat + 1) % 65536 := UInt16.toNat_add w 1
  have hne : (w + 1).toNat ≠ 0 := fun h0 => h (UInt16.toNat_inj.mp h0)
  omega

/-- The fuel suffices as soon as it reaches to the end of the 16-bit range. -/
theorem searchPort_ends {fuel : Nat} {wanPort : UInt16} (hfuel : 65536 ≤ fuel + wanPort.toNat) :
    SearchEnds s ports ipv4HeadProto wanPort (s.searchPort ports ipv4HeadProto fuel wanPort) := by
  induction fuel generalizing wanPort with
  | zero =>
    have hlt : wanPort.toNat < 65536 := wanPort.toNat_lt
    omega
  | succ fuel ih =>
    unfold searchPort
    dsimp only
    split
    · rename_i hwrap
      exact .wrapped hwrap
    rename_i hwrap
    split
    · rename_i htaken
      refine .next hwrap htaken (ih ?_)
      rw [toNat_add_one_of_ne_zero hwrap]
      omega
    · rename_i hfree
      exact .found hwrap (Bool.eq_false_iff.mpr hfree)

theorem choosePort_ends :
    SearchEnds s ports ipv4HeadProto 32767 (s.choosePort ports ipv4HeadProto) :=
  searchPort_ends (by decide)

/-- The port found lies after the start and is not taken. -/
theorem SearchEnds.sound {start : UInt16} {res : Option UInt16}
    (h : SearchEnds s ports ipv4HeadProto start res) (hres : res = some w) :
    start.toNat < w.toNat ∧ s.portTaken ports ipv4HeadProto w = false := by
  induction h with
  | wrapped => cases hres
  | found hwrap hfree =>
    cases hres
    rw [toNat_add_one_of_ne_zero hwrap]
    exact ⟨Nat.lt_succ_self _, hfree⟩
  | next hwrap _ _ ih =>
    obtain ⟨hlt, hfree⟩ := ih hres
    rw [toNat_add_one_of_ne_zero hwrap] at hlt
    exact ⟨Nat.lt_of_succ_lt hlt, hfree⟩

/-- A search without a result has passed over every port after the start. -/
theorem SearchEnds.complete {start : UInt16} {res : Option UInt16}
    (h : SearchEnds s ports ipv4HeadProto start res) (hres : res = none) (w : UInt16)
    (hw : start.toNat < w.toNat) : s.portTaken ports ipv4HeadProto w = true := by
  induction h with
  | @wrapped start hwrap =>
    have hlt : w.toNat < 65536 := w.toNat_lt
    have hadd : (start + 1).toNat = (start.toNat + 1) % 65536 := UInt16.toNat_add start 1
    have hzero : (start + 1).toNat = 0 := congrArg UInt16.toNat hwrap
    omega
  | found => cases hres
  | @next start res hwrap htaken _ ih =>
    rcases Nat.lt_or_eq_of_le (Nat.succ_le_of_lt hw) with hlt | heq
    · exact ih hres (by rwa [toNat_add_one_of_ne_zero hwrap])
    · have : w = start + 1 := UInt16.toNat_inj.mp (by rw [toNat_add_one_of_ne_zero hwrap, ← heq])
      rwa [this]

/-- The search reads the port set that it is given, not the table of port sets. -/
theorem searchPort_setPorts (r : UInt32) (P : Finset UInt16) (fuel : Nat) (wanPort : UInt16) :
    (s.setPorts r P).searchPort ports ipv4HeadProto fuel wanPort =
      s.searchPort ports ipv4HeadProto fuel wanPort := by
  induction fuel generalizing wanPort with
  | zero => rfl
  | succ fuel ih =>
    simp only [searchPort, ih]
    rfl

theorem choosePort_isSome_iff :
    (s.choosePort (s.usedPorts r) ipv4HeadProto).isSome ↔ ∃ w, s.FreePort r ipv4HeadProto w := by
  constructor
  · intro h
    obtain ⟨w, hw⟩ := Option.isSome_iff_exists.mp h
    obtain ⟨hlt, hfree⟩ := choosePort_ends.sound hw
    exact ⟨w, (portTaken_eq_false_iff hlt).mp hfree⟩
  · rintro ⟨w, hw⟩
    by_contra hnone
    have htaken := choosePort_ends.complete (Option.not_isSome_iff_eq_none.mp hnone) w hw.dynamic
    rw [(portTaken_eq_false_iff hw.dynamic).mpr hw] at htaken
    cases htaken

theorem choosePort_freePort
    (h : s.choosePort (s.usedPorts r) ipv4HeadProto = some w) : s.FreePort r ipv4HeadProto w := by
  obtain ⟨hlt, hfree⟩ := choosePort_ends.sound h
  exact (portTaken_eq_false_iff hlt).mp hfree

end NatIf

/-! ## The new flow -/

/-- No allocation of the call fails: the record of the flow gets memory that is not in use. -/
structure NatAlloc.Succeeds (alloc : NatAlloc) (s : NatIf) : Prop where
  portAlloc : alloc.portAlloc = true
  usePortMap : alloc.usePortMap = true
  natPortAllocSet : alloc.natPortAllocSet = true
  usePortMapSet : alloc.usePortMapSet = true
  natFlow : ∃ p, alloc.natFlow = some p ∧ s.flows.lookup p = none
  natFlowTableSet : alloc.natFlowTableSet = true
  natWanFlowTableSet : alloc.natWanFlowTableSet = true

namespace NatIf

variable {s : NatIf} {alloc : NatAlloc}

/-- Without a failing allocation the port search alone decides. -/
theorem createFlow_of_succeeds (halloc : alloc.Succeeds s) (key : NatFlowHash)
    (ports : Finset UInt16) :
    (s.createFlow alloc key ports).2 =
      (s.choosePort ports key.ipv4HeadProto).map (s.newFlow key) := by
  obtain ⟨p, hp, hfree⟩ := halloc.natFlow
  unfold createFlow
  cases s.choosePort ports key.ipv4HeadProto with
  | none => rfl
  | some w =>
    have hmalloc : (s.setPorts key.remoteIpAddr (insert w ports)).mallocFlow alloc.natFlow =
        some p := by
      simp [mallocFlow, hp, setPorts, hfree]
    simp only [halloc.usePortMapSet, halloc.natFlowTableSet, halloc.natWanFlowTableSet,
      not_true_eq_false, if_false, hmalloc]
    rfl

/-- The flow that `NatAddFlow` creates for a new key, without a failing allocation. The port set of
a new remote address is empty. -/
theorem natAddFlow_of_succeeds (halloc : alloc.Succeeds s) {lanHostIpAddr remoteIpAddr : Ipv4Addr}
    {lanHostPort remotePort : UInt16} {ipv4HeadProto : UInt8} {key : NatFlowHash}
    (hlan : lanHostPort ≠ 0) (hremote : remotePort ≠ 0)
    (hkey : s.flowHash remoteIpAddr remotePort lanHostIpAddr lanHostPort ipv4HeadProto = key)
    (hnew : s.natFlowTable.lookup key = none) :
    (s.natAddFlow alloc lanHostIpAddr remoteIpAddr lanHostPort remotePort ipv4HeadProto).2 =
      (s.choosePort (s.usedPorts key.remoteIpAddr) key.ipv4HeadProto).map (s.newFlow key) := by
  unfold natAddFlow
  rw [if_neg (not_or.mpr ⟨hlan, hremote⟩), hkey]
  dsimp only
  rw [hnew]
  cases hr : s.natPortAlloc.lookup key.remoteIpAddr with
  | some ports =>
    simp only [usedPorts, hr, Option.getD_some]
    exact createFlow_of_succeeds halloc key ports
  | none =>
    have hfresh : alloc.Succeeds (s.setPorts key.remoteIpAddr ∅) :=
      ⟨halloc.portAlloc, halloc.usePortMap, halloc.natPortAllocSet, halloc.usePortMapSet,
        halloc.natFlow, halloc.natFlowTableSet, halloc.natWanFlowTableSet⟩
    simp only [usedPorts, hr, Option.getD_none, halloc.portAlloc, halloc.usePortMap,
      halloc.natPortAllocSet, and_self, not_true_eq_false, if_false]
    rw [createFlow_of_succeeds hfresh, choosePort, searchPort_setPorts]
    rfl

/-- A new flow key in a consistent state, without a failing allocation: the port search ends; a flow
is created exactly if a port of the dynamic range is not used for the normalised remote address, by
a local service of the protocol or by a static mapping of the protocol; the flow has such a port.
Live flows with the same remote address have different WAN ports afterwards. -/
theorem natAddFlow_chooses_free_port (hs : s.Consistent) (halloc : alloc.Succeeds s)
    (lanHostIpAddr remoteIpAddr : Ipv4Addr) (lanHostPort remotePort : UInt16)
    (ipv4HeadProto : UInt8) (key : NatFlowHash) (hlan : lanHostPort ≠ 0) (hremote : remotePort ≠ 0)
    (hkey : s.flowHash remoteIpAddr remotePort lanHostIpAddr lanHostPort ipv4HeadProto = key)
    (hnew : s.natFlowTable.lookup key = none) :
    let res := s.natAddFlow alloc lanHostIpAddr remoteIpAddr lanHostPort remotePort ipv4HeadProto
    s.SearchEnds (s.usedPorts key.remoteIpAddr) ipv4HeadProto 32767
      (res.2.map NatFlow.wanPort) ∧
    (res.2.isSome ↔ ∃ w, s.FreePort key.remoteIpAddr ipv4HeadProto w) ∧
    (∀ f, res.2 = some f → f.lanKey = key ∧ s.FreePort key.remoteIpAddr ipv4HeadProto f.wanPort) ∧
    (∀ p f p' f', res.1.Has p f → res.1.Has p' f' → f.remoteIpAddr = f'.remoteIpAddr →
      f.wanPort = f'.wanPort → p = p') := by
  intro res
  have hproto : key.ipv4HeadProto = ipv4HeadProto := by
    rw [← hkey]
    rfl
  have hres : res.2 = (s.choosePort (s.usedPorts key.remoteIpAddr) ipv4HeadProto).map
      (s.newFlow key) := by
    rw [← hproto]
    exact natAddFlow_of_succeeds halloc hlan hremote hkey hnew
  refine ⟨?_, ?_, ?_, ?_⟩
  · have hports : res.2.map NatFlow.wanPort =
        s.choosePort (s.usedPorts key.remoteIpAddr) ipv4HeadProto := by
      rw [hres, Option.map_map]
      exact Option.map_id'
    rw [hports]
    exact choosePort_ends
  · rw [hres, Option.isSome_map]
    exact choosePort_isSome_iff
  · intro f hf
    rw [hres] at hf
    obtain ⟨w, hw, rfl⟩ := Option.map_eq_some_iff.mp hf
    exact ⟨rfl, choosePort_freePort hw⟩
  · exact (hs.natAddFlow alloc lanHostIpAddr remoteIpAddr lanHostPort remotePort
      ipv4HeadProto).port_inj

/-- An interface with a TCP service on the first port of the dynamic range. -/
def serviceIf : NatIf :=
  (step (initNatIf natTypeSymmetric #[10, 0, 0, 1].toVector 0 []) (.setServices {32768} ∅)).1

/-- Allocations that succeed, where no record has the address zero. -/
def allSucceed : NatAlloc := ⟨true, true, true, true, some 0, true, true⟩

theorem natAddFlow_chooses_free_port_beside_service :
    (serviceIf.natAddFlow allSucceed #v[192, 168, 0, 2] #v[1, 1, 1, 1] 5000 80
      iphProtoTcp).2.isSome ∧
      ¬ serviceIf.FreePort (ipAddrToU #v[1, 1, 1, 1]) iphProtoTcp 32768 := by
  have hfree : serviceIf.FreePort (ipAddrToU #v[1, 1, 1, 1]) iphProtoTcp 32769 := by
    refine ⟨by decide, ?_, ?_, ?_⟩
    · rintro ⟨ports, ⟨⟩, -⟩
    · simp only [LocalService]
      decide
    · rintro ⟨-, e, he, -⟩
      cases he
  have hs : serviceIf.Consistent :=
    (consistent_init natTypeSymmetric #v[10, 0, 0, 1] 0 []).step _
  have halloc : allSucceed.Succeeds serviceIf :=
    ⟨rfl, rfl, rfl, rfl, ⟨0, rfl, rfl⟩, rfl, rfl⟩
  have hchoice := natAddFlow_chooses_free_port hs halloc #v[192, 168, 0, 2] #v[1, 1, 1, 1] 5000 80
    iphProtoTcp _ (by decide) (by decide) rfl rfl
  exact ⟨hchoice.2.1.mpr ⟨32769, hfree⟩, fun h => h.no_service (.inl ⟨rfl, by decide⟩)⟩

end NatIf

end Halo
