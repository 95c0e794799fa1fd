import Halo.Protocol.NatRewrite
import Halo.Router.Traffic

/-!
# Replies get back to the host that they answer

A packet `P` that leaves through a flow as `P'` has the addresses of the flow in it. A reply to `P'`
finds the same flow by its WAN key while the flow lasts, so it is translated to the source of `P`.

* `natChange_ports`: what a translation does to the ports.
* `snat_flow`: the flow behind an outward translation, and its LAN key.
* `dnat_reply`: the inward translation of a reply.
* `reply_translated`: the round trip, for all traffic in between.
-/

namespace Halo

/-! ## Ports of a translated packet -/

section

variable {checkSumEnable : Bool} {pkt : Bytes} {ipAddr : Ipv4Addr} {port : UInt16}

/-- A packet with a port is long enough for a translation, and it has a protocol with ports. -/
theorem length_of_port_ne_zero (h : (natGetSrcDstPort pkt).1 ≠ 0 ∨ (natGetSrcDstPort pkt).2 ≠ 0) :
    26 ≤ pkt.length := by
  by_contra hlen
  have hzero : natGetSrcDstPort pkt = (0, 0) := if_pos (by omega)
  simp [hzero] at h

theorem natGetSrcDstPort_eq (hlen : 26 ≤ pkt.length) (hproto : NatProto pkt) :
    natGetSrcDstPort pkt = (wordAt pkt (natPortIndex (byteAt pkt 9) 20),
      wordAt pkt (natPortIndex (byteAt pkt 9) 22)) := by
  unfold natGetSrcDstPort natPortIndex
  rw [if_neg (by omega)]
  rcases hproto with hproto | hproto | hproto <;>
    simp [hproto, iphProtoIcmp, iphProtoTcp, iphProtoUdp]

variable (checkSumEnable) (ipAddr) (port)

/-- What a translation keeps of a packet that is long enough: the header up to the checksum. -/
theorem natChange_byteAt {addrIndex portIndex j : Nat} (hproto : NatProto pkt)
    (hlen : 26 ≤ pkt.length) (haddr : 12 ≤ addrIndex) (hport : portIndex = 20 ∨ portIndex = 22)
    (hj : j < 10) :
    byteAt (natChange addrIndex portIndex checkSumEnable pkt ipAddr port) j = byteAt pkt j := by
  refine (natChange_agreeOff portIndex checkSumEnable ipAddr port hlen haddr hproto).byteAt_eq j ?_
  have hcases := natPortIndex_cases (byteAt pkt 9) portIndex
  rw [mem_natChanged]
  omega

/-- A translated packet has the address, and the port as its source (`portIndex = 20`) or as its
destination (`portIndex = 22`). -/
theorem natChange_ports {addrIndex portIndex : Nat} (hproto : NatProto pkt) (hlen : 26 ≤ pkt.length)
    (haddr : 12 ≤ addrIndex) (haddr' : addrIndex ≤ 16) (hport : portIndex = 20 ∨ portIndex = 22) :
    natGetSrcDstPort (natChange addrIndex portIndex checkSumEnable pkt ipAddr port) =
      (if portIndex = 20 ∨ byteAt pkt 9 = iphProtoIcmp then port else (natGetSrcDstPort pkt).1,
        if portIndex = 22 ∨ byteAt pkt 9 = iphProtoIcmp then port
          else (natGetSrcDstPort pkt).2) := by
  have hframe := natChange_agreeOff portIndex checkSumEnable ipAddr port hlen haddr hproto
  have hbyte := natChange_byteAt checkSumEnable ipAddr port hproto hlen haddr hport
    (show 9 < 10 by omega)
  have hword := natChange_wordAt ipAddr port checkSumEnable hlen haddr hport hproto
  rw [natGetSrcDstPort_eq (by rw [hframe.length_eq]; exact hlen)
    (by rw [NatProto, hbyte]; exact hproto), hbyte, natGetSrcDstPort_eq hlen hproto]
  by_cases hicmp : byteAt pkt 9 = iphProtoIcmp
  · simp only [natPortIndex, if_pos hicmp] at hword ⊢
    rw [hword, if_pos (.inr hicmp), if_pos (.inr hicmp)]
  · -- the other port is neither written nor part of the checksum
    simp only [natPortIndex, if_neg hicmp] at hword ⊢
    have hother : ∀ j, (j = 20 ∨ j = 22) → j ≠ portIndex →
        wordAt (natChange addrIndex portIndex checkSumEnable pkt ipAddr port) j = wordAt pkt j := by
      intro j hj hne
      have hcases := natPortIndex_cases (byteAt pkt 9) portIndex
      have hindex : natPortIndex (byteAt pkt 9) portIndex = portIndex := if_neg hicmp
      exact hframe.wordAt_eq (by rw [mem_natChanged]; omega) (by rw [mem_natChanged]; omega)
    rcases hport with rfl | rfl
    · rw [hword, hother 22 (.inr rfl) (by omega)]
      simp [hicmp]
    · rw [hword, hother 20 (.inl rfl) (by omega)]
      simp [hicmp]

end

/-! ## The flow of an outgoing packet -/

namespace NatIf

variable {s s' : NatIf}

variable {p : FlowPtr} {f : NatFlow} {pkt : Bytes} {ipv4 : Ipv4Pkt} {checkSumEnable : Bool}

theorem refresh_none (h : s.refresh p = (s', none)) : s' = s := by
  unfold refresh at h
  split at h
  · cases h
    rfl
  · cases h

/-- The flow that is returned for a LAN key is the record with that key. -/
theorem refresh_some (hs : s.Consistent) {key : NatFlowHash}
    (hkey : s.natFlowTable.lookup key = some p) (h : (s.refresh p).2 = some f) :
    (s.refresh p).1.Has p f ∧ f.lanKey = key := by
  obtain ⟨g, hg, rfl⟩ := (hs.lan_iff key p).mp hkey
  rw [refresh_of_has hg] at h ⊢
  cases h
  exact ⟨AList.lookup_insert s.flows, rfl⟩

theorem Added.some_spec (hs : s.Consistent) {key : NatFlowHash} {res : NatIf × Option NatFlow}
    (h : Added s key res) (hf : res.2 = some f) :
    ∃ p, res.1.Has p f ∧ f.lanKey = key := by
  cases h with
  | found hkey => exact ⟨_, refresh_some hs hkey hf⟩
  | refused => cases hf
  | created p w _ _ _ hflows _ =>
    cases hf
    refine ⟨p, ?_, rfl⟩
    rw [Has, hflows, if_pos rfl]

theorem flowFor_spec (hs : s.Consistent) {alloc : NatAlloc}
    (h : (s.flowFor alloc pkt ipv4).2 = some f) :
    ∃ p, (s.flowFor alloc pkt ipv4).1.Has p f ∧ f.lanKey = s.flowHash ipv4.dstAddr
      (natGetSrcDstPort pkt).2 ipv4.srcAddr (natGetSrcDstPort pkt).1 ipv4.ipHeadProto := by
  unfold flowFor at h ⊢
  dsimp only at h ⊢
  split at h
  · rename_i s₁ f₁ hhash
    unfold natGetFlowByHash at hhash
    split at hhash
    · cases hhash
    · rename_i p hkey
      cases h
      have hspec := refresh_some hs hkey (f := f) (by rw [hhash])
      rw [hhash] at hspec
      exact ⟨p, hspec⟩
  · rename_i s₁ hhash
    have hsame : s₁ = s := by
      unfold natGetFlowByHash at hhash
      split at hhash
      · cases hhash
        rfl
      · exact refresh_none hhash
    subst hsame
    exact (natAddFlow_added s₁ alloc ipv4.srcAddr ipv4.dstAddr _ _ ipv4.ipHeadProto).some_spec hs h

/-- A packet that leaves through a flow carries the WAN address and port of the flow. -/
theorem snat_flow (hs : s.Consistent) {alloc : NatAlloc} {pkt' : Bytes}
    {mappingFlow : Option NatPortMappingFlow}
    (h : (s.snat checkSumEnable alloc pkt ipv4 mappingFlow).2 = some (pkt', .flow f)) :
    pkt' = natChangeSrc checkSumEnable pkt (uToIpAddr f.wanIpAddr) f.wanPort ∧
      ∃ p, (s.snat checkSumEnable alloc pkt ipv4 mappingFlow).1.Has p f ∧
        f.lanKey = s.flowHash ipv4.dstAddr (natGetSrcDstPort pkt).2 ipv4.srcAddr
          (natGetSrcDstPort pkt).1 ipv4.ipHeadProto := by
  unfold snat at h ⊢
  split at h
  · cases h
  split at h
  · cases h
  split at h
  · cases h
  · rename_i s₁ f₁ hflow
    cases h
    have hsome : (s.flowFor alloc pkt ipv4).2 = some f := by rw [hflow]
    have hspec := flowFor_spec hs hsome
    rw [hflow] at hspec
    exact ⟨rfl, hspec⟩

/-! ## The translation of a reply -/

/-- ICMP has no remote port. -/
theorem normRemote_congr (htype : s'.natType = s.natType) (remoteIpAddr : Ipv4Addr)
    {port port' : UInt16} {ipv4HeadProto : UInt8}
    (h : ipv4HeadProto ≠ iphProtoIcmp → port' = port) :
    s'.normRemote remoteIpAddr port' ipv4HeadProto =
      s.normRemote remoteIpAddr port ipv4HeadProto := by
  unfold normRemote
  rw [htype]
  by_cases hicmp : ipv4HeadProto = iphProtoIcmp
  · simp only [if_pos hicmp]
    split <;> rfl
  · rw [h hicmp]

/-- A packet that is not a time exceeded message is not fixed up. -/
theorem icmpTtlDeepNat_skip (hparse : parseIpv4Pkt checkSumEnable pkt = .ok ipv4)
    (h : ipv4.ipHeadProto = iphProtoIcmp → ∃ icmp, parseIcmpPkt ipv4.payload = .ok icmp ∧
      icmp.icmpType = icmpReply) : s.icmpTtlDeepNat checkSumEnable pkt = (s, pkt, none) := by
  unfold icmpTtlDeepNat
  rw [hparse]
  dsimp only
  split
  · rfl
  · rename_i hproto
    obtain ⟨icmp, hicmp, htype⟩ := h (not_not.mp hproto)
    rw [hicmp]
    dsimp only
    rw [htype, if_pos (by decide)]

/-- A packet with the WAN key of a record, whose port is free, is translated to the LAN host of the
record. -/
theorem dnat_reply (hs : s.Consistent) (hparse : parseIpv4Pkt checkSumEnable pkt = .ok ipv4)
    (htype : ipv4.ipHeadProto = iphProtoIcmp → ∃ icmp, parseIcmpPkt ipv4.payload = .ok icmp ∧
      icmp.icmpType = icmpReply) (hf : s.Has p f)
    (hmapping : s.checkNatPortMappingWan (natGetSrcDstPort pkt).2 ipv4.ipHeadProto = none)
    (hkey : s.wanFlowHash ipv4.srcAddr (natGetSrcDstPort pkt).1 ipv4.dstAddr
      (natGetSrcDstPort pkt).2 ipv4.ipHeadProto = f.wanKey) :
    s.dnat checkSumEnable pkt ipv4.srcAddr ipv4.dstAddr ipv4.ipHeadProto =
      ((s.refresh p).1, some (natChangeDst checkSumEnable pkt (uToIpAddr f.lanHostIpAddr)
        f.lanHostPort, .flow { f with lastAliveTime := s.timeNow })) := by
  have hlook := (hs.wan_iff f.wanKey p).mpr ⟨f, hf, rfl⟩
  have hwan : s.natGetFlowByWan ipv4.srcAddr (natGetSrcDstPort pkt).1 ipv4.dstAddr
      (natGetSrcDstPort pkt).2 ipv4.ipHeadProto = s.refresh p := by
    unfold natGetFlowByWan
    rw [hkey, hlook]
  unfold dnat
  rw [icmpTtlDeepNat_skip hparse htype]
  dsimp only
  rw [hmapping]
  dsimp only
  rw [hwan, refresh_of_has hf]

end NatIf

/-! ## The round trip -/

/-- `reply` answers `pkt`: the same protocol with the addresses and ports exchanged. An ICMP reply
has the identifier of the request, which is both of its ports. -/
structure IsReply (checkSumEnable : Bool) (pkt reply : Bytes) : Prop where
  parse : ∃ payload,
    parseIpv4Pkt checkSumEnable reply = .ok ⟨payload, byteAt pkt 9, addrAt pkt 16, addrAt pkt 12⟩ ∧
      (byteAt pkt 9 = iphProtoIcmp → ∃ icmp, parseIcmpPkt payload = .ok icmp ∧
        icmp.icmpType = icmpReply)
  ports : natGetSrcDstPort reply = (natGetSrcDstPort pkt).swap

namespace Router

/-- The local services of an interface. -/
def HasServices (r : Router) (name : String) (tcp udp : Finset UInt16) : Prop :=
  ∃ i, r.netIfMap name = some i ∧ i.nat.tcpServiceMap = tcp ∧ i.nat.udpServiceMap = udp

/-- An interface has a flow with the LAN key. -/
def HasFlow (r : Router) (name : String) (k : NatFlowHash) : Prop :=
  ∃ i, r.netIfMap name = some i ∧ (i.nat.natFlowTable.lookup k).isSome

/-- The hook keeps the source of a packet from an interface without NAT. -/
def HookKeepsSource (r : Router) (pkt : Bytes) : Prop :=
  ∀ hook, r.ipv4PktFwdHook = some hook →
    addrAt (hook pkt 0).2 12 = addrAt pkt 12 ∧
      (natGetSrcDstPort (hook pkt 0).2).1 = (natGetSrcDstPort pkt).1

/-- The tables of all interfaces are consistent. -/
def Consistent (r : Router) : Prop := ∀ name i, r.netIfMap name = some i → i.nat.Consistent

variable {r r' : Router}

theorem Moves.consistent (h : r.Moves r') (hr : r.Consistent) : r'.Consistent := by
  intro name i' hi'
  rcases h name with ⟨hnone, -⟩ | ⟨i, i₁, hi, hi₁, -, hmoves⟩
  · rw [hnone] at hi'
    cases hi'
  · rw [hi₁] at hi'
    cases hi'
    exact hmoves.consistent (hr name i hi)

theorem consistent_init (checkSumEnable : Bool) (netIfs : String → Option NetIfConfig)
    (routeTable : RouteTable) (timeNow : UInt32) :
    (initRouter checkSumEnable netIfs routeTable timeNow).Consistent := by
  intro name i hi
  simp only [initRouter, Option.map_eq_some_iff] at hi
  obtain ⟨config, -, rfl⟩ := hi
  exact NatIf.consistent_init _ _ _ _

/-- Replies to the flow pass on the interface. -/
def RepliesPass (r : Router) (name : String) (k : NatFlowHash) : Prop :=
  ∃ i, r.netIfMap name = some i ∧ i.nat.RepliesPass k

/-- An event that leaves the services of an interface alone lets its replies pass. -/
theorem Moves.repliesPass {name : String} {k : NatFlowHash} {tcp udp : Finset UInt16}
    (h : r.Moves r') (hpass : r.RepliesPass name k) (hr : r.HasServices name tcp udp)
    (hr' : r'.HasServices name tcp udp) : r'.RepliesPass name k := by
  obtain ⟨i, hi, hpass⟩ := hpass
  obtain ⟨i₁, hi₁, htcp, hudp⟩ := hr
  obtain ⟨i', hi', htcp', hudp'⟩ := hr'
  rw [hi] at hi₁
  cases hi₁
  rcases h name with ⟨hnone, -⟩ | ⟨j, j', hj, hj', -, hmoves⟩
  · rw [hnone] at hi'
    cases hi'
  rw [hi] at hj
  rw [hi'] at hj'
  cases hj
  cases hj'
  exact ⟨i', hi', hmoves.repliesPass hpass ⟨htcp'.trans htcp.symm, hudp'.trans hudp.symm⟩⟩

/-- The record of a flow is on the interface, whose type is `natType`. -/
def HasRecord (r : Router) (name : String) (natEnable : Bool) (natType : Int) (p : FlowPtr)
    (f : NatFlow) : Prop :=
  ∃ i g, r.netIfMap name = some i ∧ i.natEnable = natEnable ∧ i.nat.natType = natType ∧
    i.nat.Has p g ∧ f.Same g

/-- An event after which the flow is still there keeps its record. -/
theorem Moves.hasRecord {name : String} {natEnable : Bool} {natType : Int} {p : FlowPtr}
    {f : NatFlow} (h : r.Moves r') (hr : r.Consistent)
    (hrecord : r.HasRecord name natEnable natType p f) (hflow : r'.HasFlow name f.lanKey) :
    r'.HasRecord name natEnable natType p f := by
  obtain ⟨i, g, hi, hnat, htype, hg, hsame⟩ := hrecord
  obtain ⟨i', hi', hkey⟩ := hflow
  rcases h name with ⟨hnone, -⟩ | ⟨j, j', hj, hj', hnat', hmoves⟩
  · rw [hnone] at hi'
    cases hi'
  rw [hi] at hj
  rw [hi'] at hj'
  cases hj
  cases hj'
  obtain ⟨g', hg', hsame'⟩ := hmoves.has (hr name i hi) hg (by rw [hsame.lanKey_eq]; exact hkey)
  exact ⟨i', g', hi', hnat'.trans hnat, hmoves.natType_eq.trans htype, hg', hsame.trans hsame'⟩

/-- The time to live is not part of the addresses, the ports and the protocol. -/
theorem handleIpv4PktTtl_fields {checkSumEnable : Bool} {pkt : Bytes}
    (h : (handleIpv4PktTtl checkSumEnable pkt).2 = true) :
    addrAt (handleIpv4PktTtl checkSumEnable pkt).1 12 = addrAt pkt 12 ∧
      addrAt (handleIpv4PktTtl checkSumEnable pkt).1 16 = addrAt pkt 16 ∧
      natGetSrcDstPort (handleIpv4PktTtl checkSumEnable pkt).1 = natGetSrcDstPort pkt ∧
      byteAt (handleIpv4PktTtl checkSumEnable pkt).1 9 = byteAt pkt 9 := by
  have hframe := handleIpv4PktTtl_agreeOff h
  have hoff : ∀ j, 9 ≤ j → (j < 10 ∨ 11 < j) → j ∉ ({8, 10, 11} : Set Nat) := by
    intro j hj hj'
    simp only [Set.mem_insert_iff, Set.mem_singleton_iff]
    omega
  have hword : ∀ j, 12 ≤ j → wordAt (handleIpv4PktTtl checkSumEnable pkt).1 j = wordAt pkt j :=
    fun j hj => hframe.wordAt_eq (hoff j (by omega) (by omega)) (hoff (j + 1) (by omega) (by omega))
  have hproto := hframe.byteAt_eq 9 (hoff 9 (by omega) (by omega))
  refine ⟨hframe.vecAt_eq fun k _ => hoff _ (by omega) (by omega),
    hframe.vecAt_eq fun k _ => hoff _ (by omega) (by omega), ?_, hproto⟩
  unfold natGetSrcDstPort
  rw [hframe.length_eq, hproto, hword 20 (by omega), hword 22 (by omega), hword 24 (by omega)]

section

variable {o : FwdOracle} {lan wan inNetIf : String} {i : NetIf} {pkt pkt' : Bytes}
  {out : List RouterOut} {mac : MacAddr} {f : NatFlow}

/-- A forwarded packet went through `Ipv4RouteForward`. -/
theorem rxIpv4_forwarded (h : r.rxIpv4 o inNetIf i pkt = .ok (r', out)) {inName outName : String}
    {dnat : Option Dnat} {snat : Option Snat}
    (hmem : .forwarded inName outName pkt' mac dnat snat ∈ out) :
    ∃ ipv4, parseIpv4Pkt r.checkSumEnable pkt = .ok ipv4 ∧ ipv4.dstAddr ≠ broadcastIpv4Addr ∧
      r.ipv4RouteForward o inNetIf i pkt ipv4 = .ok (r', out) := by
  rcases rxIpv4_cases h with ⟨-, hnone⟩ | hroute
  · exact absurd hmem (hnone _ _ _ _ _ _)
  · exact hroute

/-- The packet after the hook has the source of the packet that was received. -/
theorem hookPkt_source (hlan : i.natEnable = false) (hhook : r.HookKeepsSource pkt)
    (h : r.hookPkt i pkt = some pkt') :
    addrAt pkt' 12 = addrAt pkt 12 ∧ (natGetSrcDstPort pkt').1 = (natGetSrcDstPort pkt).1 := by
  unfold hookPkt at h
  split at h
  · cases h
    exact ⟨rfl, rfl⟩
  · rename_i hook hsome
    simp only [hlan, Bool.false_eq_true, if_false] at h
    split at h
    · cases h
    · cases h
      exact hhook hook hsome

/-- A packet that leaves through a flow: the record of the flow is there, with the source of the
packet as its LAN host. -/
theorem rxIpv4_sent_by_flow (hr : r.Consistent) (hlan : i.natEnable = false)
    (h : r.rxIpv4 o lan i pkt = .ok (r', out))
    (hmem : .forwarded lan wan pkt' mac none (some (.flow f)) ∈ out)
    (hhook : r.HookKeepsSource (handleIpv4PktTtl r.checkSumEnable pkt).1) :
    ∃ outNetIf p pkt₁, r.netIfMap wan = some outNetIf ∧
      r'.HasRecord wan true outNetIf.nat.natType p f ∧ Ipv4Header pkt₁ ∧
      pkt' = natChangeSrc r.checkSumEnable pkt₁ (uToIpAddr f.wanIpAddr) f.wanPort ∧
      addrAt pkt₁ 12 = addrAt pkt 12 ∧ (natGetSrcDstPort pkt₁).1 = (natGetSrcDstPort pkt).1 ∧
      f.lanKey = outNetIf.nat.flowHash (addrAt pkt₁ 16) (natGetSrcDstPort pkt₁).2 (addrAt pkt₁ 12)
        (natGetSrcDstPort pkt₁).1 (byteAt pkt₁ 9) := by
  obtain ⟨ipv4₀, -, -, hforward⟩ := rxIpv4_forwarded h hmem
  unfold ipv4RouteForward at hforward
  rw [if_neg (by simp [hlan])] at hforward
  rcases forwardRest_cases hforward with ⟨-, hnone⟩ | ⟨pkt₁, ipv4, outName, nextHop, halive, hsome,
    hparse, -, hsend⟩
  · exact absurd hmem (hnone _ _ _ _ _ _)
  obtain ⟨-, rfl, -, outNetIf, hout, htranslate, hmap⟩ := sendOut_forwarded hsend hmem
  rw [findMappingFlow_netIfMap] at hout
  obtain ⟨hheader, -, rfl⟩ := parseIpv4Pkt_ok_iff.mp hparse
  obtain ⟨haddr, hport⟩ := hookPkt_source hlan hhook hsome
  obtain ⟨haddr', -, hport', -⟩ := handleIpv4PktTtl_fields halive
  -- the output interface translates by the flow
  have hnat : outNetIf.natEnable = true := by
    by_contra hfalse
    rw [NetIf.translateOut, if_neg hfalse] at htranslate
    cases htranslate
  have hresult : r'.netIfMap wan = some { outNetIf with nat := (outNetIf.translateOut
      (r.findMappingFlow i pkt₁ (ipv4Fields pkt₁)).1.checkSumEnable o.alloc pkt₁ (ipv4Fields pkt₁)
      (r.findMappingFlow i pkt₁ (ipv4Fields pkt₁)).2).1 } := by
    rw [hmap]
    exact setNat_netIfMap_self (by rwa [findMappingFlow_netIfMap]) _
  rw [NetIf.translateOut, if_pos hnat] at htranslate hresult
  simp only [Option.map_eq_some_iff, Prod.mk.injEq] at htranslate
  obtain ⟨⟨pkt₂, rule⟩, hsnat, rfl, hrule⟩ := htranslate
  obtain rfl : rule = .flow f := Option.some_inj.mp hrule
  obtain ⟨hpkt, p, hhas, hkey⟩ := NatIf.snat_flow (hr wan outNetIf hout) hsnat
  have hcheck : (r.findMappingFlow i pkt₁ (ipv4Fields pkt₁)).1.checkSumEnable =
      r.checkSumEnable := by
    unfold findMappingFlow
    split
    · rfl
    dsimp only
    split <;> rfl
  rw [hcheck] at hpkt
  refine ⟨outNetIf, p, pkt₁, hout, ?_, hheader, hpkt, haddr.trans haddr', ?_, hkey⟩
  · refine ⟨_, f, hresult, hnat, ?_, hhas, .refl f⟩
    exact (NatIf.snat_trafficTo _ _ _ _ _ _).moves.natType_eq
  · rw [hport, hport']

/-- A reply whose port is free goes to the inward translation. -/
theorem rxIpv4_of_portFree {ipv4 : Ipv4Pkt} (o : FwdOracle) (hnat : i.natEnable = true)
    (hparse : parseIpv4Pkt r.checkSumEnable pkt = .ok ipv4)
    (hbroadcast : ipv4.dstAddr ≠ broadcastIpv4Addr)
    (htype : ipv4.ipHeadProto = iphProtoIcmp → ∃ icmp, parseIcmpPkt ipv4.payload = .ok icmp ∧
      icmp.icmpType = icmpReply)
    (hfree : i.nat.PortFree ipv4.ipHeadProto (natGetSrcDstPort pkt).2) :
    r.rxIpv4 o inNetIf i pkt = r.ipv4RouteForward o inNetIf i pkt ipv4 := by
  obtain ⟨hheader, -, hfields⟩ := parseIpv4Pkt_ok_iff.mp hparse
  have hproto := hheader.proto
  rw [show byteAt pkt 9 = ipv4.ipHeadProto from by rw [hfields]; rfl] at hproto
  unfold rxIpv4
  rw [hparse]
  dsimp only
  rw [if_neg hbroadcast]
  split
  · rfl
  split
  · rename_i hicmp
    obtain ⟨icmp, hok, hreply⟩ := htype hicmp
    rw [hok]
    dsimp only
    rw [if_neg]
    rw [hreply]
    simp [hnat, icmpReply, icmpRequest]
  · rename_i hicmp
    split
    · rename_i hudp
      rw [if_neg]
      simpa [hnat] using hfree.udp hudp
    · rename_i hudp
      have htcp := (hproto.resolve_left hicmp).resolve_right hudp
      rw [if_neg]
      simpa [hnat] using hfree.tcp htcp

end

/-- A reply to a packet that left through a flow has the WAN key of the flow. -/
theorem reply_wanKey {nat nat' : NatIf} (htype : nat'.natType = nat.natType)
    {checkSumEnable : Bool} {pkt₁ reply : Bytes} {f : NatFlow} (hheader : Ipv4Header pkt₁)
    (hlen : 26 ≤ pkt₁.length)
    (hkey : f.lanKey = nat.flowHash (addrAt pkt₁ 16) (natGetSrcDstPort pkt₁).2 (addrAt pkt₁ 12)
      (natGetSrcDstPort pkt₁).1 (byteAt pkt₁ 9))
    {pkt' : Bytes}
    (hpkt : pkt' = natChange 12 20 checkSumEnable pkt₁ (uToIpAddr f.wanIpAddr) f.wanPort)
    (hports : natGetSrcDstPort reply = (natGetSrcDstPort pkt').swap) :
    (natGetSrcDstPort reply).2 = f.wanPort ∧ byteAt pkt' 9 = f.ipv4HeadProto ∧
      nat'.wanFlowHash (addrAt pkt' 16) (natGetSrcDstPort reply).1 (addrAt pkt' 12)
        (natGetSrcDstPort reply).2 (byteAt pkt' 9) = f.wanKey := by
  have hproto : f.ipv4HeadProto = byteAt pkt₁ 9 := congrArg NatFlowHash.ipv4HeadProto hkey
  have hremote : f.remoteIpAddr = (nat.normRemote (addrAt pkt₁ 16) (natGetSrcDstPort pkt₁).2
    (byteAt pkt₁ 9)).1 := congrArg NatFlowHash.remoteIpAddr hkey
  have hremotePort : f.remotePort = (nat.normRemote (addrAt pkt₁ 16) (natGetSrcDstPort pkt₁).2
    (byteAt pkt₁ 9)).2 := congrArg NatFlowHash.remotePort hkey
  have hbyte : byteAt pkt' 9 = byteAt pkt₁ 9 := by
    rw [hpkt]
    exact natChange_byteAt _ _ _ hheader.proto hlen (Nat.le_refl 12) (.inl rfl) (by omega)
  have hwan : addrAt pkt' 12 = uToIpAddr f.wanIpAddr := by
    rw [hpkt]
    exact natChange_addrAt _ _ _ hlen (Nat.le_refl 12) (by omega) (Nat.le_refl 20) hheader.proto
  have hdst : addrAt pkt' 16 = addrAt pkt₁ 16 := by
    have hcases := natPortIndex_cases (byteAt pkt₁ 9) 20
    rw [hpkt]
    refine (natChange_agreeOff 20 checkSumEnable _ _ hlen (Nat.le_refl 12) hheader.proto).vecAt_eq
      ?_
    intro k hk
    rw [mem_natChanged]
    omega
  have hports' := natChange_ports checkSumEnable (uToIpAddr f.wanIpAddr) f.wanPort hheader.proto
    hlen (Nat.le_refl 12) (by omega) (.inl rfl)
  rw [← hpkt] at hports'
  have hsrcPort : (natGetSrcDstPort reply).2 = f.wanPort := by
    rw [hports, hports']
    simp
  have hdstPort : byteAt pkt₁ 9 ≠ iphProtoIcmp →
      (natGetSrcDstPort reply).1 = (natGetSrcDstPort pkt₁).2 := by
    intro hicmp
    rw [hports, hports']
    simp [hicmp]
  refine ⟨hsrcPort, hbyte.trans hproto.symm, ?_⟩
  unfold NatIf.wanFlowHash NatFlow.wanKey
  dsimp only
  rw [hsrcPort, hbyte, hdst, hwan, NatIf.normRemote_congr htype _ hdstPort, ← hremote,
    ← hremotePort, ipAddrToU_uToIpAddr, hproto]

/-- NAT round trip. A packet from an interface without NAT leaves through a flow of the interface
`wan`. Its flow did not exist at some earlier moment (`r₁`), from which on the local services of
`wan` are the same. Then every reply that comes in while the flow lasts is translated to the source
of the packet, whatever happens in between. -/
theorem reply_translated {checkSumEnable : Bool} {netIfs : String → Option NetIfConfig}
    {routeTable : RouteTable} {timeNow : UInt32} {r₁ r₂ r₃ r₄ : Router}
    {es₀ es₁ es₂ : List RouterEvent} {o o' : FwdOracle} {lan wan : String} {i : NetIf}
    {pkt pkt' reply : Bytes} {out : List RouterOut} {mac : MacAddr} {f : NatFlow}
    {tcp udp : Finset UInt16}
    (hreach : RunsIn Router.step (fun _ => True)
      (initRouter checkSumEnable netIfs routeTable timeNow) es₀ r₁)
    (hnew : ¬ r₁.HasFlow wan f.lanKey)
    (hbefore : RunsIn Router.step (·.HasServices wan tcp udp) r₁ es₁ r₂)
    (hi : r₂.netIfMap lan = some i) (hlan : i.natEnable = false)
    (hhook : r₂.HookKeepsSource (handleIpv4PktTtl r₂.checkSumEnable pkt).1)
    (hstep : r₂.step (.rxIpv4 o lan pkt) = .ok (r₃, out))
    (hmem : .forwarded lan wan pkt' mac none (some (.flow f)) ∈ out)
    (hafter : RunsIn Router.step (fun r => r.HasServices wan tcp udp ∧ r.HasFlow wan f.lanKey)
      r₃ es₂ r₄)
    (hreply : IsReply r₄.checkSumEnable pkt' reply)
    (hbroadcast : addrAt pkt' 12 ≠ broadcastIpv4Addr) :
    ∃ i' nat g reply', r₄.netIfMap wan = some i' ∧
      r₄.step (.rxIpv4 o' wan reply) = (r₄.setNat wan nat).forwardRest o' wan { i' with nat := nat }
        reply' (addrAt pkt' 16) (some (.flow g)) ∧
      addrAt reply' 16 = addrAt pkt 12 ∧
        (natGetSrcDstPort reply').2 = (natGetSrcDstPort pkt).1 := by
  -- the tables are consistent at all times
  have hr₁ : r₁.Consistent :=
    hreach.invariant (fun _ _ _ _ _ _ hr heq => (step_moves heq).consistent hr)
    (consistent_init checkSumEnable netIfs routeTable timeNow)
  have hr₂ : r₂.Consistent := hbefore.invariant
    (fun _ _ _ _ _ _ hr heq => (step_moves heq).consistent hr) hr₁
  have hr₃ := (step_moves hstep).consistent hr₂
  -- replies to the flow pass from the moment on at which it is created
  have hpass₁ : r₁.RepliesPass wan f.lanKey := by
    obtain ⟨i₁, hi₁, -⟩ := hbefore.head
    refine ⟨i₁, hi₁, NatIf.repliesPass_of_absent (hr₁ wan i₁ hi₁) ?_⟩
    exact Option.not_isSome_iff_eq_none.mp fun hsome => hnew ⟨i₁, hi₁, hsome⟩
  have hpass₂ : r₂.RepliesPass wan f.lanKey := hbefore.invariant
    (fun _ _ _ _ hs hs' hpass heq => (step_moves heq).repliesPass hpass hs hs') hpass₁
  have hpass₃ := (step_moves hstep).repliesPass hpass₂ hbefore.last hafter.head.1
  have hpass₄ : r₄.RepliesPass wan f.lanKey := hafter.invariant
    (fun _ _ _ _ hs hs' hpass heq => (step_moves heq).repliesPass hpass hs.1 hs'.1) hpass₃
  -- the record of the flow is there until the reply
  have hrx : r₂.rxIpv4 o lan i pkt = .ok (r₃, out) := by
    rw [← hstep]
    simp only [Router.step, hi]
  obtain ⟨outNetIf, p, pkt₁, hout, hrecord₃, hheader, hpkt, haddr, hport, hkey⟩ :=
    rxIpv4_sent_by_flow hr₂ hlan hrx hmem hhook
  obtain ⟨hr₄, hrecord₄⟩ : r₄.Consistent ∧ r₄.HasRecord wan true outNetIf.nat.natType p f :=
    hafter.invariant (I := fun r => r.Consistent ∧ r.HasRecord wan true outNetIf.nat.natType p f)
      (fun _ _ _ _ _ hs' hr heq => ⟨(step_moves heq).consistent hr.1,
        (step_moves heq).hasRecord hr.1 hr.2 hs'.2⟩) ⟨hr₃, hrecord₃⟩
  obtain ⟨i', g, hi', hnat, htype, hg, hsame⟩ := hrecord₄
  obtain ⟨i₁, hi₁, hpass⟩ := hpass₄
  rw [hi'] at hi₁
  cases hi₁
  obtain ⟨hgport, hfree⟩ := hpass p g hg hsame.lanKey_eq
  -- the LAN host of the record is the source of the packet
  have hgkey : g.lanKey = outNetIf.nat.flowHash (addrAt pkt₁ 16) (natGetSrcDstPort pkt₁).2
      (addrAt pkt₁ 12) (natGetSrcDstPort pkt₁).1 (byteAt pkt₁ 9) := hsame.lanKey_eq.trans hkey
  have hgaddr : g.lanHostIpAddr = ipAddrToU (addrAt pkt₁ 12) :=
    congrArg NatFlowHash.lanHostIpAddr hgkey
  have hglan : g.lanHostPort = (natGetSrcDstPort pkt₁).1 := congrArg NatFlowHash.lanHostPort hgkey
  have hlen : 26 ≤ pkt₁.length := length_of_port_ne_zero (.inl (by rwa [← hglan]))
  -- the reply finds the record
  obtain ⟨⟨payload, hparse, hicmp⟩, hports⟩ := hreply
  have hpkt' : pkt' = natChangeSrc r₂.checkSumEnable pkt₁ (uToIpAddr g.wanIpAddr) g.wanPort := by
    rw [hpkt, show g = _ from hsame]
  obtain ⟨hwanPort, hproto, hwanKey⟩ := reply_wanKey htype hheader hlen hgkey hpkt' hports
  have hfree' : i'.nat.PortFree (byteAt pkt' 9) (natGetSrcDstPort reply).2 := by
    rw [hwanPort, hproto]
    exact hfree
  have hdnat := NatIf.dnat_reply (hr₄ wan i' hi') hparse hicmp hg hfree'.mapping hwanKey
  obtain ⟨hheaderReply, -, -⟩ := parseIpv4Pkt_ok_iff.mp hparse
  have hlenReply : 26 ≤ reply.length := length_of_port_ne_zero (.inr (by
    rw [hwanPort]
    exact hfree.ne_zero))
  refine ⟨i', (i'.nat.refresh p).1, { g with lastAliveTime := i'.nat.timeNow },
    natChangeDst r₄.checkSumEnable reply (uToIpAddr g.lanHostIpAddr) g.lanHostPort, hi', ?_, ?_, ?_⟩
  · simp only [Router.step, hi']
    rw [rxIpv4_of_portFree o' hnat hparse hbroadcast hicmp hfree', ipv4RouteForward, if_pos hnat]
    dsimp only at hdnat ⊢
    rw [hdnat]
  · refine (natChange_addrAt _ _ _ hlenReply (by omega) (Nat.le_refl 16) (by omega)
      hheaderReply.proto).trans ?_
    rw [hgaddr, uToIpAddr_ipAddrToU, haddr]
  · have hports' := natChange_ports r₄.checkSumEnable (uToIpAddr g.lanHostIpAddr) g.lanHostPort
      hheaderReply.proto hlenReply (by omega) (Nat.le_refl 16) (.inr rfl)
    refine (congrArg Prod.snd hports').trans ?_
    dsimp only
    rw [if_pos (.inl rfl), hglan, hport]

/-! ## An example network -/

/-- A router with a LAN interface and a WAN interface with symmetric NAT and a default route. -/
def exampleRouter : Router :=
  initRouter true
    (fun name =>
      if name = "lan" then
        some ⟨#[2, 0, 0, 0, 0, 1].toVector, #[10, 0, 0, 1].toVector, none, false, 0, []⟩
      else if name = "wan" then
        some ⟨#[2, 0, 0, 0, 0, 2].toVector, #[192, 0, 2, 1].toVector, none, true, 0, []⟩
      else none)
    (RouteTable.empty.addRoute ⟨zeroIpv4Addr, zeroIpv4Addr, #[192, 0, 2, 254].toVector,
      true, "wan"⟩) 0

/-- All addresses are resolved and all allocations succeed. -/
def exampleOracle : FwdOracle :=
  ⟨fun _ _ => some #v[2, 0, 0, 0, 0, 9], 0, ⟨true, true, true, true, some 0, true, true⟩,
    true, true⟩

/-- `dnsQuery` behind the WAN interface. -/
def translatedQuery : Bytes :=
  [69, 0, 0, 31, 0, 1, 0, 0, 63, 17, 169, 188, 192, 0, 2, 1, 8, 8, 8, 8, 128, 0, 0, 53, 0, 11,
    169, 143, 1, 2, 3]

/-- The flow of `dnsQuery`. -/
def queryFlow : NatFlow :=
  ⟨⟨134744072, 53, 167772162, 5353, 17⟩, 134744072, 53, 3221225985, 32768, 167772162, 5353, 17, 0⟩

/-- An answer to `translatedQuery`. -/
def dnsAnswer : Bytes :=
  [69, 0, 0, 29, 0, 7, 0, 0, 128, 17, 104, 184, 8, 8, 8, 8, 192, 0, 2, 1, 0, 53, 128, 0, 0, 9,
    169, 149, 4]

theorem dnsAnswer_isReply : IsReply true translatedQuery dnsAnswer := by
  refine ⟨⟨[0, 53, 128, 0, 0, 9, 169, 149, 4], by decide +kernel, ?_⟩, by decide +kernel⟩
  intro hicmp
  exact absurd hicmp (by decide)

/-- A query and its answer. -/
theorem reply_translated_dns :
    ∃ r out i nat g reply,
      exampleRouter.step (.rxIpv4 exampleOracle "lan" dnsQuery) = .ok (r, out) ∧
      out = [.forwarded "lan" "wan" translatedQuery #v[2, 0, 0, 0, 0, 9] none
        (some (.flow queryFlow))] ∧
      r.netIfMap "wan" = some i ∧
      r.step (.rxIpv4 exampleOracle "wan" dnsAnswer) =
        (r.setNat "wan" nat).forwardRest exampleOracle
        "wan" { i with nat := nat } reply (addrAt translatedQuery 16) (some (.flow g)) ∧
      addrAt reply 16 = addrAt dnsQuery 12 ∧
      (natGetSrcDstPort reply).2 = (natGetSrcDstPort dnsQuery).1 := by
  have hsent : (exampleRouter.step (.rxIpv4 exampleOracle "lan" dnsQuery)).map Prod.snd =
      .ok [.forwarded "lan" "wan" translatedQuery #v[2, 0, 0, 0, 0, 9] none
        (some (.flow queryFlow))] := by
    decide +kernel
  have hsees : (exampleRouter.step (.rxIpv4 exampleOracle "lan" dnsQuery)).map (fun x =>
      (x.1.checkSumEnable, (x.1.netIfMap "wan").map fun i => (i.nat.tcpServiceMap,
        i.nat.udpServiceMap, (i.nat.natFlowTable.lookup queryFlow.lanKey).isSome))) =
      .ok (true, some (∅, ∅, true)) := by
    decide +kernel
  cases hstep : exampleRouter.step (.rxIpv4 exampleOracle "lan" dnsQuery) with
  | error fault =>
    rw [hstep] at hsent
    cases hsent
  | ok x =>
    obtain ⟨r, out⟩ := x
    rw [hstep] at hsees hsent
    simp only [Except.map, Except.ok.injEq, Prod.mk.injEq, Option.map_eq_some_iff] at hsees hsent
    obtain ⟨hcheck, i, hi, htcp, hudp, hflow⟩ := hsees
    have hreach : RunsIn Router.step (fun _ => True) exampleRouter [] exampleRouter :=
      ⟨trivial, rfl⟩
    have hnew : ¬ exampleRouter.HasFlow "wan" queryFlow.lanKey := by
      rintro ⟨j, hj, hkey⟩
      cases hj
      exact absurd hkey (by decide)
    have hbefore : RunsIn Router.step (·.HasServices "wan" ∅ ∅) exampleRouter [] exampleRouter :=
      ⟨⟨_, rfl, rfl, rfl⟩, rfl⟩
    have hafter : RunsIn Router.step
        (fun r => r.HasServices "wan" ∅ ∅ ∧ r.HasFlow "wan" queryFlow.lanKey) r [] r :=
      ⟨⟨⟨i, hi, htcp, hudp⟩, i, hi, hflow⟩, rfl⟩
    have hmem : .forwarded "lan" "wan" translatedQuery #v[2, 0, 0, 0, 0, 9] none
        (some (.flow queryFlow)) ∈ out := by
      rw [hsent]
      exact List.mem_singleton_self _
    obtain ⟨i', nat, g, reply, hi', hrest⟩ := reply_translated hreach hnew hbefore rfl rfl
      (by rintro hook ⟨⟩) hstep hmem hafter (by rw [hcheck]; exact dnsAnswer_isReply) (by decide)
    exact ⟨r, out, i', nat, g, reply, rfl, hsent, hi', hrest⟩

/-- A service that is registered on the port of a flow takes the replies to packets which leave
through the flow later. -/
theorem service_takes_reply :
    outputs Router.step exampleRouter [.rxIpv4 exampleOracle "lan" dnsQuery,
        .nat "wan" (.setServices ∅ {32768}), .rxIpv4 exampleOracle "lan" dnsQuery,
        .rxIpv4 exampleOracle "wan" dnsAnswer] =
      .ok [[.forwarded "lan" "wan" translatedQuery #v[2, 0, 0, 0, 0, 9] none
          (some (.flow queryFlow))], [],
        [.forwarded "lan" "wan" translatedQuery #v[2, 0, 0, 0, 0, 9] none (some (.flow queryFlow))],
        [.rxUdp "wan" [0, 53, 128, 0, 0, 9, 169, 149, 4] #v[8, 8, 8, 8]]] ∧
    IsReply true translatedQuery dnsAnswer :=
  ⟨by decide +kernel, dnsAnswer_isReply⟩

end Router

end Halo
