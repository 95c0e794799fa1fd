import Halo.Protocol.FrameStack
import Halo.Router.RoundTrip

/-!
# Packets sent into a flow (`engine/ipv4_engine.go`)

`SendUdpPktByFlow` sends a UDP packet in one direction of a flow that a key names. The addresses of
the packet come from the key of the caller, the ports from the record of the flow. A NAT that is not
symmetric keeps no remote port in the record.

* `Carries`: the endpoints that the parsers of a packet read.
* `Matches`: the packet has the endpoints of the flow and of the key.
* `sendUdpPktByFlow_matches_iff`: exactly when a packet that is sent does.
-/

namespace Halo

/-- `LanToWan`. -/
def lanToWan : Nat := 0

/-- `WanToLan`. -/
def wanToLan : Nat := 1

/-- The packet is accepted as a UDP packet from `src` to `dst`. -/
def Carries (checkSumEnable : Bool) (pkt : Bytes) (src dst : Ipv4Addr × UInt16) : Prop :=
  ∃ ipv4 udp, parseIpv4Pkt checkSumEnable pkt = .ok ipv4 ∧ ipv4.ipHeadProto = iphProtoUdp ∧
    parseUdpPkt checkSumEnable ipv4.payload ⟨ipv4.srcAddr, ipv4.dstAddr⟩ = .ok udp ∧
    (ipv4.srcAddr, udp.srcPort) = src ∧ (ipv4.dstAddr, udp.dstPort) = dst

theorem Carries.unique {checkSumEnable : Bool} {pkt : Bytes} {src dst src' dst' : Ipv4Addr × UInt16}
    (h : Carries checkSumEnable pkt src dst) (h' : Carries checkSumEnable pkt src' dst') :
    src = src' ∧ dst = dst' := by
  obtain ⟨ipv4, udp, hipv4, -, hudp, rfl, rfl⟩ := h
  obtain ⟨ipv4', udp', hipv4', -, hudp', rfl, rfl⟩ := h'
  rw [hipv4] at hipv4'
  cases hipv4'
  rw [hudp] at hudp'
  cases hudp'
  exact ⟨rfl, rfl⟩

namespace NatIf

variable {s : NatIf} {alloc : NatAlloc} {natFlowHash : NatFlowHash} {f : NatFlow}

/-- The key of the flow that a caller names: its protocol is always UDP. -/
def udpKey (s : NatIf) (natFlowHash : NatFlowHash) : NatFlowHash :=
  s.flowHash (uToIpAddr natFlowHash.remoteIpAddr) natFlowHash.remotePort
    (uToIpAddr natFlowHash.lanHostIpAddr) natFlowHash.lanHostPort iphProtoUdp

/-- The lookup of `SendUdpPktByFlow`: the flow is created where there is none. -/
def findOrAddUdpFlow (s : NatIf) (alloc : NatAlloc) (natFlowHash : NatFlowHash) :
    NatIf × Option NatFlow :=
  let remoteIpAddr := uToIpAddr natFlowHash.remoteIpAddr
  let lanHostIpAddr := uToIpAddr natFlowHash.lanHostIpAddr
  match s.natGetFlowByHash remoteIpAddr natFlowHash.remotePort lanHostIpAddr
    natFlowHash.lanHostPort iphProtoUdp with
  | (s, some natFlow) => (s, some natFlow)
  | (s, none) =>
    s.natAddFlow alloc lanHostIpAddr remoteIpAddr natFlowHash.lanHostPort natFlowHash.remotePort
      iphProtoUdp

/-- `f` is the record of the flow that the key names. -/
def FlowOf (s : NatIf) (natFlowHash : NatFlowHash) (f : NatFlow) : Prop :=
  ∃ p, s.natFlowTable.lookup (s.udpKey natFlowHash) = some p ∧ s.Has p f

theorem udpKey_remotePort_of_symmetric (h : s.natType = natTypeSymmetric) :
    (s.udpKey natFlowHash).remotePort = natFlowHash.remotePort := by
  simp [udpKey, flowHash, normRemote, h, iphProtoUdp, iphProtoIcmp]

theorem udpKey_remotePort_of_not_symmetric (h : s.natType ≠ natTypeSymmetric) :
    (s.udpKey natFlowHash).remotePort = 0 := by
  simp [udpKey, flowHash, normRemote, h]

/-- A flow that was there is refreshed; a new one has the address of the interface. -/
inductive UdpFlow (s : NatIf) (natFlowHash : NatFlowHash) (f : NatFlow) : Prop
  | known (g : NatFlow) (hg : s.FlowOf natFlowHash g) (hwan : f.wanIpAddr = g.wanIpAddr)
  | new (hnone : s.natFlowTable.lookup (s.udpKey natFlowHash) = none)
      (hwan : f.wanIpAddr = ipAddrToU s.ipAddr)

theorem refresh_udpFlow (hs : s.Consistent) {p : FlowPtr}
    (hkey : s.natFlowTable.lookup (s.udpKey natFlowHash) = some p) (h : (s.refresh p).2 = some f) :
    s.UdpFlow natFlowHash f := by
  obtain ⟨g, hg, -⟩ := (hs.lan_iff _ p).mp hkey
  rw [refresh_of_has hg] at h
  cases h
  exact .known g ⟨p, hkey, hg⟩ rfl

theorem findOrAddUdpFlow_trafficTo (s : NatIf) (alloc : NatAlloc) (natFlowHash : NatFlowHash) :
    s.TrafficTo (s.findOrAddUdpFlow alloc natFlowHash).1 := by
  have hget := natGetFlowByHash_trafficTo s (uToIpAddr natFlowHash.remoteIpAddr)
    natFlowHash.remotePort (uToIpAddr natFlowHash.lanHostIpAddr) natFlowHash.lanHostPort iphProtoUdp
  unfold findOrAddUdpFlow
  dsimp only
  split
  · rename_i heq
    rwa [heq] at hget
  · rename_i heq
    rw [heq] at hget
    exact hget.trans (natAddFlow_trafficTo _ _ _ _ _ _ _)

/-- The flow that is used has the key and is the record of the table afterwards. -/
theorem findOrAddUdpFlow_spec (hs : s.Consistent)
    (h : (s.findOrAddUdpFlow alloc natFlowHash).2 = some f) :
    (∃ p, (s.findOrAddUdpFlow alloc natFlowHash).1.Has p f) ∧ f.lanKey = s.udpKey natFlowHash ∧
      s.UdpFlow natFlowHash f := by
  unfold findOrAddUdpFlow at h ⊢
  dsimp only at h ⊢
  split at h
  · rename_i s₁ f₁ hhash
    unfold natGetFlowByHash at hhash
    split at hhash
    · cases hhash
    · rename_i p hkey
      cases h
      have hsome : (s.refresh p).2 = some f := by rw [hhash]
      have hspec := refresh_some hs hkey hsome
      rw [hhash] at hspec
      exact ⟨⟨p, hspec.1⟩, hspec.2, refresh_udpFlow hs hkey hsome⟩
  · rename_i s₁ hhash
    have hsame : s₁ = s := by
      unfold natGetFlowByHash at hhash
      split at hhash
      · cases hhash
        rfl
      · exact refresh_none hhash
    subst hsame
    have hadded := natAddFlow_added s₁ alloc (uToIpAddr natFlowHash.lanHostIpAddr)
      (uToIpAddr natFlowHash.remoteIpAddr) natFlowHash.lanHostPort natFlowHash.remotePort
        iphProtoUdp
    obtain ⟨p, hp, hlan⟩ := hadded.some_spec hs h
    refine ⟨⟨p, hp⟩, hlan, ?_⟩
    generalize s₁.natAddFlow alloc _ _ _ _ _ = res at hadded h
    cases hadded with
    | found hkey => exact refresh_udpFlow hs hkey h
    | refused => cases h
    | created _ _ hkey =>
      cases h
      exact .new hkey rfl

end NatIf

namespace Router

variable {r r' : Router} {o : FwdOracle} {name outNetIf : String} {i i' : NetIf}
  {natFlowHash : NatFlowHash} {dir : Nat} {udpPayload pkt : Bytes} {out : List RouterOut}
  {mac : MacAddr}

/-- The UDP packet that is sent, in its IPv4 packet; nothing where the payload is too long. -/
def buildUdpIpv4Pkt (r : Router) (o : FwdOracle) (udpPayload : Bytes)
    (src dst : Ipv4Addr × UInt16) : Option Bytes :=
  match buildUdpPkt r.checkSumEnable ⟨udpPayload, src.2, dst.2⟩ ⟨src.1, dst.1⟩ with
  | .error _ => none
  | .ok udpPkt =>
    match buildIpv4Pkt r.checkSumEnable o.iphId ⟨udpPkt, iphProtoUdp, src.1, dst.1⟩ with
    | .error _ => none
    | .ok ipv4Pkt => some ipv4Pkt

/-- The direction `LanToWan`: the packet leaves through the interface itself, and only where the
route to the remote address has a next hop. -/
def sendLanToWan (r : Router) (o : FwdOracle) (name : String) (i : NetIf) (natFlow : NatFlow)
    (remoteIpAddr : Ipv4Addr) (udpPayload : Bytes) : Except Fault (List RouterOut) :=
  match r.buildUdpIpv4Pkt o udpPayload (i.nat.ipAddr, natFlow.wanPort)
    (remoteIpAddr, natFlow.remotePort) with
  | none => .ok []
  | some ipv4Pkt =>
    match r.findRoute remoteIpAddr with
    | .error fault => .error fault
    | .ok (_, none) => .ok []
    | .ok (_, some nextHop) =>
      match o.arp name nextHop with
      | none => .ok []
      | some mac => .ok [.sent name ipv4Pkt mac]

/-- The direction `WanToLan`: the packet leaves through the interface of the route to the LAN
host. -/
def sendWanToLan (r : Router) (o : FwdOracle) (natFlow : NatFlow)
    (remoteIpAddr lanHostIpAddr : Ipv4Addr) (udpPayload : Bytes) : Except Fault (List RouterOut) :=
  match r.buildUdpIpv4Pkt o udpPayload (remoteIpAddr, natFlow.remotePort)
    (lanHostIpAddr, natFlow.lanHostPort) with
  | none => .ok []
  | some ipv4Pkt =>
    match r.findRoute lanHostIpAddr with
    | .error fault => .error fault
    | .ok (outNetIfName, _) =>
      if outNetIfName = "" then .ok []
      else
        match r.netIfMap outNetIfName with
        | none => .error .nilDereference
        | some _ =>
          match o.arp outNetIfName lanHostIpAddr with
          | none => .ok []
          | some mac => .ok [.sent outNetIfName ipv4Pkt mac]

/-- `NetIf.SendUdpPktByFlow` of the interface `i` with the name `name`. -/
def sendUdpPktByFlow (r : Router) (o : FwdOracle) (name : String) (i : NetIf)
    (natFlowHash : NatFlowHash) (dir : Nat) (udpPayload : Bytes) :
    Except Fault (Router × List RouterOut) :=
  let remoteIpAddr := uToIpAddr natFlowHash.remoteIpAddr
  let lanHostIpAddr := uToIpAddr natFlowHash.lanHostIpAddr
  match i.nat.findOrAddUdpFlow o.alloc natFlowHash with
  | (nat, none) => .ok (r.setNat name nat, [])
  | (nat, some natFlow) =>
    let r := r.setNat name nat
    if dir = lanToWan then
      (r.sendLanToWan o name { i with nat := nat } natFlow remoteIpAddr udpPayload).map fun out =>
        (r, out)
    else if dir = wanToLan then
      (r.sendWanToLan o natFlow remoteIpAddr lanHostIpAddr udpPayload).map fun out => (r, out)
    else .ok (r, [])

/-! ## What is sent -/

/-- A packet that was built is read back with its endpoints. -/
theorem buildUdpIpv4Pkt_carries {src dst : Ipv4Addr × UInt16}
    (h : r.buildUdpIpv4Pkt o udpPayload src dst = some pkt) :
    Carries r.checkSumEnable pkt src dst := by
  unfold buildUdpIpv4Pkt at h
  split at h
  · cases h
  rename_i udpPkt hudp
  split at h
  · cases h
  rename_i ipv4Pkt hipv4
  cases h
  have hshort : udpPayload.length ≤ 1472 := by
    by_contra hlong
    rw [buildUdpPkt, if_pos (by simpa using hlong)] at hudp
    cases hudp
  obtain ⟨udpPkt', hudp', hlen, hparseUdp⟩ := parseUdpPkt_build r.checkSumEnable
    ⟨udpPayload, src.2, dst.2⟩ ⟨src.1, dst.1⟩ hshort
  rw [hudp] at hudp'
  cases hudp'
  have hlong : udpPkt.length ≤ 1480 := by
    dsimp only at hlen
    omega
  obtain ⟨pkt', hipv4', hlen', hparse⟩ := parseIpv4Pkt_build r.checkSumEnable o.iphId
    ⟨udpPkt, iphProtoUdp, src.1, dst.1⟩ (.inr (.inr rfl)) hlong
  rw [hipv4] at hipv4'
  cases hipv4'
  have hparsed := hparse [] (by simp only [List.length_nil] at hlen' ⊢; omega)
  rw [List.append_nil] at hparsed
  exact ⟨_, _, hparsed, rfl, hparseUdp, rfl, rfl⟩

theorem sendLanToWan_carries {natFlow : NatFlow} {remoteIpAddr : Ipv4Addr}
    (h : r.sendLanToWan o name i natFlow remoteIpAddr udpPayload = .ok out)
    (hmem : .sent outNetIf pkt mac ∈ out) :
    Carries r.checkSumEnable pkt (i.nat.ipAddr, natFlow.wanPort)
      (remoteIpAddr, natFlow.remotePort) := by
  unfold sendLanToWan at h
  split at h
  · cases h
    cases hmem
  rename_i hbuild
  split at h
  · cases h
  · cases h
    cases hmem
  split at h
  · cases h
    cases hmem
  · cases h
    cases List.mem_singleton.mp hmem
    exact buildUdpIpv4Pkt_carries hbuild

theorem sendWanToLan_carries {natFlow : NatFlow} {remoteIpAddr lanHostIpAddr : Ipv4Addr}
    (h : r.sendWanToLan o natFlow remoteIpAddr lanHostIpAddr udpPayload = .ok out)
    (hmem : .sent outNetIf pkt mac ∈ out) :
    Carries r.checkSumEnable pkt (remoteIpAddr, natFlow.remotePort)
      (lanHostIpAddr, natFlow.lanHostPort) := by
  unfold sendWanToLan at h
  split at h
  · cases h
    cases hmem
  rename_i hbuild
  split at h
  · cases h
  split at h
  · cases h
    cases hmem
  split at h
  · cases h
  split at h
  · cases h
    cases hmem
  · cases h
    cases List.mem_singleton.mp hmem
    exact buildUdpIpv4Pkt_carries hbuild

/-- What `SendUdpPktByFlow` sends, in terms of the flow that it uses. -/
theorem sendUdpPktByFlow_sent
    (h : r.sendUdpPktByFlow o name i natFlowHash dir udpPayload = .ok (r', out))
    (hmem : .sent outNetIf pkt mac ∈ out) :
    ∃ nat f, i.nat.findOrAddUdpFlow o.alloc natFlowHash = (nat, some f) ∧
      r' = r.setNat name nat ∧
      (dir = lanToWan ∧ Carries r.checkSumEnable pkt (nat.ipAddr, f.wanPort)
          (uToIpAddr natFlowHash.remoteIpAddr, f.remotePort) ∨
        dir = wanToLan ∧ Carries r.checkSumEnable pkt
          (uToIpAddr natFlowHash.remoteIpAddr, f.remotePort)
          (uToIpAddr natFlowHash.lanHostIpAddr, f.lanHostPort)) := by
  unfold sendUdpPktByFlow at h
  dsimp only at h
  split at h
  · cases h
    cases hmem
  rename_i nat f hflow
  refine ⟨nat, f, hflow, ?_⟩
  split at h
  · rename_i hdir
    obtain ⟨out', hout', heq⟩ := map_eq_ok.mp h
    cases heq
    exact ⟨rfl, .inl ⟨hdir, sendLanToWan_carries hout' hmem⟩⟩
  split at h
  · rename_i hdir
    obtain ⟨out', hout', heq⟩ := map_eq_ok.mp h
    cases heq
    have hcarries := sendWanToLan_carries hout' hmem
    exact ⟨rfl, .inr ⟨hdir, hcarries⟩⟩
  · cases h
    cases hmem

/-! ## When it matches the flow -/

/-- The packet has the endpoints of its direction: from the WAN side of the flow to the remote
endpoint that the key names, or from there to the LAN endpoint that the key names. -/
def Matches (nat : NatIf) (checkSumEnable : Bool) (natFlowHash : NatFlowHash) (dir : Nat)
    (pkt : Bytes) : Prop :=
  (dir = lanToWan → ∃ f, nat.FlowOf natFlowHash f ∧
    Carries checkSumEnable pkt (uToIpAddr f.wanIpAddr, f.wanPort)
      (uToIpAddr natFlowHash.remoteIpAddr, natFlowHash.remotePort)) ∧
  (dir = wanToLan →
    Carries checkSumEnable pkt (uToIpAddr natFlowHash.remoteIpAddr, natFlowHash.remotePort)
      (uToIpAddr natFlowHash.lanHostIpAddr, natFlowHash.lanHostPort))

/-- A flow of the key that existed before has the address that the interface has now. -/
def WanAddrCurrent (nat : NatIf) (natFlowHash : NatFlowHash) : Prop :=
  ∀ f, nat.FlowOf natFlowHash f → f.wanIpAddr = ipAddrToU nat.ipAddr

theorem udpFlow_wanIpAddr_iff {nat : NatIf} {f : NatFlow} (hflow : nat.UdpFlow natFlowHash f) :
    f.wanIpAddr = ipAddrToU nat.ipAddr ↔ WanAddrCurrent nat natFlowHash := by
  cases hflow with
  | known g hg hwan =>
    rw [hwan]
    constructor
    · rintro h g' ⟨p', hp', hg'⟩
      obtain ⟨p, hp, hg⟩ := hg
      rw [hp] at hp'
      cases hp'
      rw [hg'.unique hg]
      exact h
    · intro h
      exact h g hg
  | new hnone hwan =>
    refine iff_of_true hwan ?_
    rintro g ⟨p, hp, -⟩
    rw [hnone] at hp
    cases hp

/-- A packet that `SendUdpPktByFlow` sends has the endpoints of the flow and of the key exactly if
the NAT is symmetric and, in the direction `LanToWan`, the flow is not older than the address of the
interface. -/
theorem sendUdpPktByFlow_matches_iff (hi : r.netIfMap name = some i) (hs : i.nat.Consistent)
    (hremote : natFlowHash.remotePort ≠ 0)
    (h : r.sendUdpPktByFlow o name i natFlowHash dir udpPayload = .ok (r', out))
    (hi' : r'.netIfMap name = some i') (hmem : .sent outNetIf pkt mac ∈ out) :
    Matches i'.nat r.checkSumEnable natFlowHash dir pkt ↔
      i.nat.natType = natTypeSymmetric ∧ (dir = lanToWan → WanAddrCurrent i.nat natFlowHash) := by
  obtain ⟨nat, f, hflow, rfl, hcarries⟩ := sendUdpPktByFlow_sent h hmem
  have htraffic := i.nat.findOrAddUdpFlow_trafficTo o.alloc natFlowHash
  have hspec := NatIf.findOrAddUdpFlow_spec hs (f := f) (by rw [hflow])
  rw [hflow] at htraffic hspec
  obtain ⟨⟨p, hp⟩, hkey, hudp⟩ := hspec
  have hip : nat.ipAddr = i.nat.ipAddr := congrArg (·.2.1) htraffic.config_eq
  have htype : nat.natType = i.nat.natType := congrArg (·.1) htraffic.config_eq
  have hudpKey : nat.udpKey natFlowHash = i.nat.udpKey natFlowHash := by
    simp only [NatIf.udpKey, NatIf.flowHash, NatIf.normRemote, htype]
  -- the record after the call is the flow that the packet was made from
  have hflowOf : ∀ g, nat.FlowOf natFlowHash g ↔ g = f := by
    intro g
    have hlookup := ((htraffic.moves.consistent hs).lan_iff _ p).mpr ⟨f, hp, hkey⟩
    constructor
    · rintro ⟨p', hp', hg⟩
      rw [hudpKey, hlookup] at hp'
      cases hp'
      exact hg.unique hp
    · rintro rfl
      exact ⟨p, by rw [hudpKey, hlookup], hp⟩
  have hport : f.remotePort = natFlowHash.remotePort ↔ i.nat.natType = natTypeSymmetric := by
    have hf : f.remotePort = (i.nat.udpKey natFlowHash).remotePort :=
      congrArg NatFlowHash.remotePort hkey
    rw [hf]
    constructor
    · intro heq
      by_contra hne
      rw [NatIf.udpKey_remotePort_of_not_symmetric hne] at heq
      exact hremote heq.symm
    · exact NatIf.udpKey_remotePort_of_symmetric
  have hlanPort : f.lanHostPort = natFlowHash.lanHostPort :=
    congrArg NatFlowHash.lanHostPort hkey
  have hnat : i'.nat = nat := by
    rw [setNat_netIfMap_self hi] at hi'
    cases hi'
    rfl
  rw [hnat, ← hport, ← udpFlow_wanIpAddr_iff hudp, ← hip]
  rcases hcarries with ⟨rfl, hcarries⟩ | ⟨rfl, hcarries⟩
  · constructor
    · rintro ⟨hmatch, -⟩
      obtain ⟨g, hg, hg'⟩ := hmatch rfl
      obtain rfl := (hflowOf g).mp hg
      obtain ⟨hsrc, hdst⟩ := hcarries.unique hg'
      have hwan : nat.ipAddr = uToIpAddr g.wanIpAddr := congrArg Prod.fst hsrc
      refine ⟨congrArg Prod.snd hdst, fun _ => ?_⟩
      rw [hwan, ipAddrToU_uToIpAddr]
    · rintro ⟨hdst, hsrc⟩
      refine ⟨fun _ => ⟨f, (hflowOf f).mpr rfl, ?_⟩, by rintro ⟨⟩⟩
      rw [hsrc rfl, uToIpAddr_ipAddrToU, ← hdst]
      exact hcarries
  · constructor
    · rintro ⟨-, hmatch⟩
      obtain ⟨hsrc, -⟩ := hcarries.unique (hmatch rfl)
      exact ⟨congrArg Prod.snd hsrc, by rintro ⟨⟩⟩
    · rintro ⟨hsrc, -⟩
      refine ⟨by rintro ⟨⟩, fun _ => ?_⟩
      rw [← hsrc, ← hlanPort]
      exact hcarries

/-! ## An example network -/

/-- The WAN interface of an example, for a NAT type. -/
def wanNetIf (natType : Int) : NetIf where
  macAddr := #[2, 0, 0, 0, 0, 2].toVector
  natEnable := true
  gateway := #[192, 0, 2, 254].toVector
  hasGateway := true
  nat := initNatIf natType #[192, 0, 2, 1].toVector 0 []

/-- `exampleRouter` with a given WAN interface. -/
def withWan (i : NetIf) : Router :=
  { exampleRouter with netIfMap := Function.update exampleRouter.netIfMap "wan" (some i) }

/-- A LAN host and a remote server. -/
def serverFlow : NatFlowHash := ⟨134744072, 53, 167772162, 5353, iphProtoUdp⟩

/-- The packet that is sent to the server behind a symmetric NAT. -/
def toServer : Bytes :=
  [69, 0, 0, 29, 0, 0, 0, 0, 128, 17, 104, 191, 192, 0, 2, 1, 8, 8, 8, 8, 128, 0, 0, 53, 0, 9,
    169, 149, 4]

theorem sendUdpPktByFlow_matches_iff_symmetric :
    ∃ r' i', (withWan (wanNetIf natTypeSymmetric)).sendUdpPktByFlow exampleOracle "wan"
        (wanNetIf natTypeSymmetric) serverFlow lanToWan [4] =
        .ok (r', [.sent "wan" toServer #v[2, 0, 0, 0, 0, 9]]) ∧
      r'.netIfMap "wan" = some i' ∧ Matches i'.nat true serverFlow lanToWan toServer := by
  have hsent : ((withWan (wanNetIf natTypeSymmetric)).sendUdpPktByFlow exampleOracle "wan"
      (wanNetIf natTypeSymmetric) serverFlow lanToWan [4]).map Prod.snd =
      .ok [.sent "wan" toServer #v[2, 0, 0, 0, 0, 9]] := by
    decide +kernel
  obtain ⟨⟨r', out⟩, hsend, rfl⟩ := map_eq_ok.mp hsent
  obtain ⟨nat, -, -, rfl, -⟩ := sendUdpPktByFlow_sent hsend (List.mem_singleton_self _)
  have hi : (withWan (wanNetIf natTypeSymmetric)).netIfMap "wan" =
    some (wanNetIf natTypeSymmetric) := rfl
  have hi' := setNat_netIfMap_self hi nat
  have hnone : WanAddrCurrent (wanNetIf natTypeSymmetric).nat serverFlow := by
    rintro f ⟨p, ⟨⟩, -⟩
  refine ⟨_, _, hsend, hi', ?_⟩
  exact (sendUdpPktByFlow_matches_iff hi (NatIf.consistent_init _ _ _ _) (by decide) hsend hi'
    (List.mem_singleton_self _)).mpr ⟨rfl, fun _ => hnone⟩

/-- The same packet behind a full cone NAT (type `1`): its destination port is zero. -/
def toPortZero : Bytes :=
  [69, 0, 0, 29, 0, 0, 0, 0, 128, 17, 104, 191, 192, 0, 2, 1, 8, 8, 8, 8, 128, 0, 0, 0, 0, 9,
    169, 202, 4]

theorem toPortZero_carries :
    Carries true toPortZero (#v[192, 0, 2, 1], 32768) (#v[8, 8, 8, 8], 0) :=
  ⟨⟨[128, 0, 0, 0, 0, 9, 169, 202, 4], iphProtoUdp, #v[192, 0, 2, 1], #v[8, 8, 8, 8]⟩,
    ⟨[4], 32768, 0⟩, by decide +kernel, rfl, by decide +kernel, rfl, rfl⟩

/-- A full cone NAT loses the remote port of the packet. -/
theorem fullCone_loses_remote_port :
    (wanNetIf 1).nat.Consistent ∧ serverFlow.remotePort = 53 ∧
    ∃ r', (withWan (wanNetIf 1)).sendUdpPktByFlow exampleOracle "wan" (wanNetIf 1) serverFlow
        lanToWan [4] = .ok (r', [.sent "wan" toPortZero #v[2, 0, 0, 0, 0, 9]]) ∧
      ∀ i', r'.netIfMap "wan" = some i' → ¬ Matches i'.nat true serverFlow lanToWan toPortZero := by
  have hsent : ((withWan (wanNetIf 1)).sendUdpPktByFlow exampleOracle "wan" (wanNetIf 1) serverFlow
      lanToWan [4]).map Prod.snd = .ok [.sent "wan" toPortZero #v[2, 0, 0, 0, 0, 9]] := by
    decide +kernel
  obtain ⟨⟨r', out⟩, hsend, rfl⟩ := map_eq_ok.mp hsent
  refine ⟨NatIf.consistent_init _ _ _ _, rfl, r', hsend, ?_⟩
  rintro i' - ⟨hmatch, -⟩
  obtain ⟨f, -, hcarries⟩ := hmatch rfl
  have hport := congrArg Prod.snd (hcarries.unique toPortZero_carries).2
  exact absurd hport (by decide)

end Router

end Halo
