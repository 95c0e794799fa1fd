import Halo.Nat.Origin
import Halo.Router.Forward

/-!
# What the handling of a packet does to a router

* `NatIf.TrafficTo`: the tables of an interface change by lookups and creations of flows only.
  `dnat` and `snat` change them in this way (`dnat_trafficTo`, `snat_trafficTo`).
* `sendOut_netIfMap`, `forwardRest_cases`, `rxIpv4_cases`: the stages of forwarding, opened once.
* `step_moves`: an event of a router moves the tables of each interface by traffic or by one event
  of its own (`NatIf.Moves`).
-/

namespace Halo

namespace NatIf

/-- Lookups and creations of flows lead from one state to the other. -/
def TrafficTo (s s' : NatIf) : Prop :=
  ∃ es : List NatEvent, (∀ e ∈ es, e.Traffic) ∧ s' = run NatIf.step s es

variable {s s' s'' : NatIf}

theorem TrafficTo.refl (s : NatIf) : s.TrafficTo s := ⟨[], by simp, rfl⟩

theorem TrafficTo.trans (h : s.TrafficTo s') (h' : s'.TrafficTo s'') : s.TrafficTo s'' := by
  obtain ⟨es, hes, rfl⟩ := h
  obtain ⟨es', hes', rfl⟩ := h'
  refine ⟨es ++ es', fun e he => ?_, (run_append s es es').symm⟩
  exact (List.mem_append.mp he).elim (hes e) (hes' e)

theorem TrafficTo.step (s : NatIf) {e : NatEvent} (he : e.Traffic) : s.TrafficTo (s.step e).1 :=
  ⟨[e], by simpa using he, rfl⟩

theorem natGetFlowByWan_trafficTo (s : NatIf) (remoteIpAddr : Ipv4Addr) (remotePort : UInt16)
    (wanIpAddr : Ipv4Addr) (wanPort : UInt16) (ipv4HeadProto : UInt8) :
    s.TrafficTo (s.natGetFlowByWan remoteIpAddr remotePort wanIpAddr wanPort ipv4HeadProto).1 :=
  .step s (e := .getFlowByWan remoteIpAddr remotePort wanIpAddr wanPort ipv4HeadProto) trivial

theorem natGetFlowByHash_trafficTo (s : NatIf) (remoteIpAddr : Ipv4Addr) (remotePort : UInt16)
    (lanHostIpAddr : Ipv4Addr) (lanHostPort : UInt16) (ipv4HeadProto : UInt8) :
    s.TrafficTo (s.natGetFlowByHash remoteIpAddr remotePort lanHostIpAddr lanHostPort
      ipv4HeadProto).1 :=
  .step s (e := .getFlowByHash remoteIpAddr remotePort lanHostIpAddr lanHostPort ipv4HeadProto)
    trivial

theorem natAddFlow_trafficTo (s : NatIf) (alloc : NatAlloc) (lanHostIpAddr remoteIpAddr : Ipv4Addr)
    (lanHostPort remotePort : UInt16) (ipv4HeadProto : UInt8) :
    s.TrafficTo (s.natAddFlow alloc lanHostIpAddr remoteIpAddr lanHostPort remotePort
      ipv4HeadProto).1 :=
  .step s (e := .addFlow alloc lanHostIpAddr remoteIpAddr lanHostPort remotePort ipv4HeadProto)
    trivial

theorem icmpTtlDeepNat_trafficTo (s : NatIf) (checkSumEnable : Bool) (pkt : Bytes) :
    s.TrafficTo (s.icmpTtlDeepNat checkSumEnable pkt).1 := by
  unfold icmpTtlDeepNat
  split
  · exact .refl s
  split
  · exact .refl s
  split
  · exact .refl s
  split
  · exact .refl s
  split
  · exact .refl s
  rename_i icmp _ _ _
  have h := natGetFlowByWan_trafficTo s (addrAt icmp.payload 16) (natGetSrcDstPort icmp.payload).2
    (addrAt icmp.payload 12) (natGetSrcDstPort icmp.payload).1 (byteAt icmp.payload 9)
  dsimp only
  split
  · rename_i heq
    rwa [heq] at h
  · rename_i heq
    rwa [heq] at h

theorem dnat_trafficTo (s : NatIf) (checkSumEnable : Bool) (pkt : Bytes)
    (ipv4SrcAddr ipv4DstAddr : Ipv4Addr) (ipv4HeadProto : UInt8) :
    s.TrafficTo (s.dnat checkSumEnable pkt ipv4SrcAddr ipv4DstAddr ipv4HeadProto).1 := by
  have hquoted := icmpTtlDeepNat_trafficTo s checkSumEnable pkt
  unfold dnat
  dsimp only
  split
  · rename_i heq
    rwa [heq] at hquoted
  rename_i s₁ pkt₁ heq
  rw [heq] at hquoted
  split
  · exact hquoted
  have h := natGetFlowByWan_trafficTo s₁ ipv4SrcAddr (natGetSrcDstPort pkt).1 ipv4DstAddr
    (natGetSrcDstPort pkt).2 ipv4HeadProto
  split
  · rename_i hflow
    rw [hflow] at h
    exact hquoted.trans h
  · rename_i hflow
    rw [hflow] at h
    exact hquoted.trans h

theorem flowFor_trafficTo (s : NatIf) (alloc : NatAlloc) (pkt : Bytes) (ipv4 : Ipv4Pkt) :
    s.TrafficTo (s.flowFor alloc pkt ipv4).1 := by
  have hhash := natGetFlowByHash_trafficTo s ipv4.dstAddr (natGetSrcDstPort pkt).2 ipv4.srcAddr
    (natGetSrcDstPort pkt).1 ipv4.ipHeadProto
  unfold flowFor
  dsimp only
  split
  · rename_i heq
    rwa [heq] at hhash
  · rename_i heq
    rw [heq] at hhash
    exact hhash.trans (natAddFlow_trafficTo _ _ _ _ _ _ _)

theorem snat_trafficTo (s : NatIf) (checkSumEnable : Bool) (alloc : NatAlloc) (pkt : Bytes)
    (ipv4 : Ipv4Pkt) (mappingFlow : Option NatPortMappingFlow) :
    s.TrafficTo (s.snat checkSumEnable alloc pkt ipv4 mappingFlow).1 := by
  have hflow := flowFor_trafficTo s alloc pkt ipv4
  unfold snat
  split
  · exact .refl s
  split
  · exact .refl s
  split
  · rename_i heq
    rwa [heq] at hflow
  · rename_i heq
    rwa [heq] at hflow

/-- Traffic changes nothing of what is configured. -/
theorem TrafficTo.config_eq (h : s.TrafficTo s') : s'.config = s.config := by
  obtain ⟨es, hes, rfl⟩ := h
  induction es generalizing s with
  | nil => rfl
  | cons e es ih =>
    rw [run_cons, ih fun e' he' => hes e' (List.mem_cons_of_mem _ he')]
    exact step_traffic_config s (hes e List.mem_cons_self)

theorem TrafficTo.moves (h : s.TrafficTo s') : Moves s s' := by
  obtain ⟨es, hes, rfl⟩ := h
  exact .traffic es hes rfl

end NatIf

theorem NetIf.translateOut_trafficTo (outNetIf : NetIf) (checkSumEnable : Bool) (alloc : NatAlloc)
    (pkt : Bytes) (ipv4 : Ipv4Pkt) (mappingFlow : Option NatPortMappingFlow) :
    outNetIf.nat.TrafficTo
      (outNetIf.translateOut checkSumEnable alloc pkt ipv4 mappingFlow).1 := by
  unfold translateOut
  split
  · exact NatIf.snat_trafficTo _ _ _ _ _ _
  · exact .refl _

namespace Router

/-- The interfaces are the same, and lookups and creations of flows lead from the tables of each to
its tables in the second router. -/
def TrafficTo (r r' : Router) : Prop :=
  ∀ name, r'.netIfMap name = none ∧ r.netIfMap name = none ∨
    ∃ i nat, r.netIfMap name = some i ∧ r'.netIfMap name = some { i with nat := nat } ∧
      i.nat.TrafficTo nat

variable {r r' r'' : Router}

theorem TrafficTo.of_netIfMap (h : r'.netIfMap = r.netIfMap) : r.TrafficTo r' := by
  intro name
  rw [h]
  cases hi : r.netIfMap name with
  | none => exact .inl ⟨rfl, rfl⟩
  | some i => exact .inr ⟨i, i.nat, rfl, rfl, .refl i.nat⟩

theorem TrafficTo.trans (h : r.TrafficTo r') (h' : r'.TrafficTo r'') : r.TrafficTo r'' := by
  intro name
  rcases h name with ⟨hr', hr⟩ | ⟨i, nat, hi, hi', htraffic⟩
  · rcases h' name with ⟨hr'', -⟩ | ⟨i', nat', hi', -, -⟩
    · exact .inl ⟨hr'', hr⟩
    · rw [hr'] at hi'
      cases hi'
  · rcases h' name with ⟨-, hr'⟩ | ⟨i', nat', hi₁, hi'', htraffic'⟩
    · rw [hi'] at hr'
      cases hr'
    · rw [hi'] at hi₁
      cases hi₁
      exact .inr ⟨i, nat', hi, hi'', htraffic.trans htraffic'⟩

variable {name : String} {i : NetIf}

theorem setNat_netIfMap_self (hi : r.netIfMap name = some i)
    (nat : NatIf) : (r.setNat name nat).netIfMap name = some { i with nat := nat } := by
  simp [setNat, hi]

theorem setNat_netIfMap_ne {name' : String} (hne : name' ≠ name) (nat : NatIf) :
    (r.setNat name nat).netIfMap name' = r.netIfMap name' :=
  Function.update_of_ne hne _ _

theorem TrafficTo.setNat (hi : r.netIfMap name = some i) {nat : NatIf}
    (h : i.nat.TrafficTo nat) : r.TrafficTo (r.setNat name nat) := by
  intro name'
  by_cases hne : name' = name
  · subst hne
    exact .inr ⟨i, nat, hi, setNat_netIfMap_self hi nat, h⟩
  · rw [setNat_netIfMap_ne hne]
    exact TrafficTo.of_netIfMap (r := r) rfl name'

/-! ## The stages of forwarding -/

section

variable {o : FwdOracle} {inNetIf outNetIfName : String} {i : NetIf} {pkt : Bytes} {ipv4 : Ipv4Pkt}
  {dnat : Option Dnat} {mappingFlow : Option NatPortMappingFlow} {nextHop : Option Ipv4Addr}
  {out : List RouterOut}

@[simp] theorem recordMappingFlow_netIfMap (r : Router) (o : FwdOracle) (inNetIf : String)
    (pkt : Bytes) (ipv4HeadProto : UInt8) (dnat : Option Dnat) :
    (r.recordMappingFlow o inNetIf pkt ipv4HeadProto dnat).1.netIfMap = r.netIfMap := by
  unfold recordMappingFlow
  split
  · dsimp only
    split <;> rfl
  · rfl

@[simp] theorem findMappingFlow_netIfMap (r : Router) (i : NetIf) (pkt : Bytes) (ipv4 : Ipv4Pkt) :
    (r.findMappingFlow i pkt ipv4).1.netIfMap = r.netIfMap := by
  unfold findMappingFlow
  split
  · rfl
  dsimp only
  split <;> rfl

/-- What `sendOut` does to the router: the output interface translates. -/
theorem sendOut_netIfMap
    (h : r.sendOut o inNetIf i pkt ipv4 dnat mappingFlow outNetIfName nextHop = .ok (r', out)) :
    r'.netIfMap = r.netIfMap ∨ ∃ outNetIf, r.netIfMap outNetIfName = some outNetIf ∧
      r'.netIfMap = (r.setNat outNetIfName (outNetIf.translateOut r.checkSumEnable o.alloc pkt ipv4
        mappingFlow).1).netIfMap := by
  unfold sendOut at h
  split at h
  · cases h
  rename_i outNetIf hout
  split at h
  · cases h
    exact .inl rfl
  refine .inr ⟨outNetIf, hout, ?_⟩
  dsimp only at h
  split at h
  · cases h
    rfl
  split at h
  · cases h
    rfl
  · cases h
    exact recordMappingFlow_netIfMap _ _ _ _ _ _

theorem sendOut_trafficTo
    (h : r.sendOut o inNetIf i pkt ipv4 dnat mappingFlow outNetIfName nextHop = .ok (r', out)) :
    r.TrafficTo r' := by
  rcases sendOut_netIfMap h with heq | ⟨outNetIf, hout, heq⟩
  · exact .of_netIfMap heq
  · exact (TrafficTo.setNat hout (outNetIf.translateOut_trafficTo _ _ _ _ _)).trans
      (.of_netIfMap heq)

/-- A packet that `sendOut` forwards. -/
theorem sendOut_forwarded
    (h : r.sendOut o inNetIf i pkt ipv4 dnat mappingFlow outNetIfName nextHop = .ok (r', out))
    {inName outName : String} {pkt' : Bytes} {mac : MacAddr} {dnat' : Option Dnat}
    {snat : Option Snat} (hmem : .forwarded inName outName pkt' mac dnat' snat ∈ out) :
    inName = inNetIf ∧ outName = outNetIfName ∧ dnat' = dnat ∧
      ∃ outNetIf, r.netIfMap outNetIfName = some outNetIf ∧
        (outNetIf.translateOut r.checkSumEnable o.alloc pkt ipv4 mappingFlow).2 =
          some (pkt', snat) ∧
        r'.netIfMap =
          (r.setNat outNetIfName (outNetIf.translateOut r.checkSumEnable o.alloc pkt ipv4
          mappingFlow).1).netIfMap := by
  unfold sendOut at h
  split at h
  · cases h
  rename_i outNetIf hout
  split at h
  · cases h
    simp at hmem
  dsimp only at h
  split at h
  · cases h
    simp at hmem
  rename_i pkt₁ snat₁ htranslate
  split at h
  · cases h
    simp at hmem
  cases h
  split at hmem
  · simp only [List.mem_singleton, RouterOut.forwarded.injEq] at hmem
    obtain ⟨rfl, rfl, rfl, rfl, rfl, rfl⟩ := hmem
    exact ⟨rfl, rfl, rfl, outNetIf, hout, htranslate, recordMappingFlow_netIfMap _ _ _ _ _ _⟩
  · simp at hmem

/-- A packet that the router builds itself is not a forwarded one. -/
theorem txIcmp_not_forwarded {icmp : IcmpPkt} {ipv4DstAddr : Ipv4Addr}
    (h : r.txIcmp o inNetIf i icmp ipv4DstAddr = .ok out) {inName outName : String} {pkt' : Bytes}
    {mac : MacAddr} {dnat' : Option Dnat} {snat : Option Snat} :
    .forwarded inName outName pkt' mac dnat' snat ∉ out := by
  unfold txIcmp at h
  split at h
  · cases h
    simp
  unfold txIpv4 at h
  split at h
  · cases h
    simp
  split at h
  · cases h
    simp
  split at h
  · cases h
  split at h
  · cases h
    simp
  split at h
  · cases h
  split at h
  · cases h
    simp
  split at h <;> cases h <;> simp

/-- Forwarding after the inward translation: the packet gets to `sendOut`, or no packet is forwarded
and at most the way back of a connection is refreshed. -/
theorem forwardRest_cases {ipv4SrcAddr : Ipv4Addr}
    (h : r.forwardRest o inNetIf i pkt ipv4SrcAddr dnat = .ok (r', out)) :
    ((r' = r ∨ ∃ pkt₁ ipv4, r' = (r.findMappingFlow i pkt₁ ipv4).1) ∧
      ∀ inName outName pkt' mac dnat' snat,
        .forwarded inName outName pkt' mac dnat' snat ∉ out) ∨
    ∃ pkt₁ ipv4 outNetIfName nextHop,
      (handleIpv4PktTtl r.checkSumEnable pkt).2 = true ∧
      r.hookPkt i (handleIpv4PktTtl r.checkSumEnable pkt).1 = some pkt₁ ∧
      parseIpv4Pkt r.checkSumEnable pkt₁ = .ok ipv4 ∧
      (r.findMappingFlow i pkt₁ ipv4).1.routeOut (r.findMappingFlow i pkt₁ ipv4).2 ipv4.dstAddr =
        .ok (some (outNetIfName, nextHop)) ∧
      (r.findMappingFlow i pkt₁ ipv4).1.sendOut o inNetIf i pkt₁ ipv4 dnat
        (r.findMappingFlow i pkt₁ ipv4).2 outNetIfName nextHop = .ok (r', out) := by
  unfold forwardRest at h
  split at h
  · rename_i pkt₁ httl
    obtain ⟨out₁, htx, heq⟩ := map_eq_ok.mp h
    cases heq
    exact .inl ⟨.inl rfl, fun _ _ _ _ _ _ => txIcmp_not_forwarded htx⟩
  rename_i pkt₀ httl
  split at h
  · cases h
    exact .inl ⟨.inl rfl, by simp⟩
  rename_i pkt₁ hhook
  split at h
  · cases h
    exact .inl ⟨.inl rfl, by simp⟩
  rename_i ipv4 hparse
  split at h
  rename_i r₁ mappingFlow hfind
  split at h
  · cases h
  · cases h
    exact .inl ⟨.inr ⟨pkt₁, ipv4, by rw [hfind]⟩, by simp⟩
  · rename_i outNetIfName nextHop hroute
    refine .inr ⟨pkt₁, ipv4, outNetIfName, nextHop, by rw [httl], by rw [httl]; exact hhook,
      hparse, ?_⟩
    rw [hfind]
    exact ⟨hroute, h⟩

theorem forwardRest_trafficTo {ipv4SrcAddr : Ipv4Addr}
    (h : r.forwardRest o inNetIf i pkt ipv4SrcAddr dnat = .ok (r', out)) : r.TrafficTo r' := by
  rcases forwardRest_cases h with
    ⟨rfl | ⟨pkt₁, ipv4, rfl⟩, -⟩ | ⟨pkt₁, ipv4, _, _, -, -, -, -, hsend⟩
  · exact .of_netIfMap rfl
  · exact .of_netIfMap (findMappingFlow_netIfMap r i pkt₁ ipv4)
  · exact (TrafficTo.of_netIfMap (findMappingFlow_netIfMap r i pkt₁ ipv4)).trans
      (sendOut_trafficTo hsend)

theorem ipv4RouteForward_trafficTo (hi : r.netIfMap inNetIf = some i)
    (h : r.ipv4RouteForward o inNetIf i pkt ipv4 = .ok (r', out)) : r.TrafficTo r' := by
  have hdnat := i.nat.dnat_trafficTo r.checkSumEnable pkt ipv4.srcAddr ipv4.dstAddr ipv4.ipHeadProto
  unfold ipv4RouteForward at h
  split at h
  · split at h
    · rename_i heq
      rw [heq] at hdnat
      cases h
      exact .setNat hi hdnat
    · rename_i heq
      rw [heq] at hdnat
      exact (TrafficTo.setNat hi hdnat).trans (forwardRest_trafficTo h)
  · exact forwardRest_trafficTo h

/-- Reception: the packet gets to `Ipv4RouteForward`, or the router stays as it is and no packet is
forwarded. -/
theorem rxIpv4_cases (h : r.rxIpv4 o inNetIf i pkt = .ok (r', out)) :
    (r' = r ∧ ∀ inName outName pkt' mac dnat' snat,
      .forwarded inName outName pkt' mac dnat' snat ∉ out) ∨
    ∃ ipv4, parseIpv4Pkt r.checkSumEnable pkt = .ok ipv4 ∧ ipv4.dstAddr ≠ broadcastIpv4Addr ∧
      r.ipv4RouteForward o inNetIf i pkt ipv4 = .ok (r', out) := by
  unfold rxIpv4 at h
  split at h
  · cases h
    exact .inl ⟨rfl, by simp⟩
  rename_i ipv4 hparse
  split at h
  · cases h
    refine .inl ⟨rfl, ?_⟩
    split <;> simp
  rename_i hbroadcast
  split at h
  · exact .inr ⟨ipv4, hparse, hbroadcast, h⟩
  split at h
  · split at h
    · cases h
      exact .inl ⟨rfl, by simp⟩
    split at h
    · -- the answer to an echo request is a packet of the router itself
      unfold rxIcmp at h
      split at h
      · cases h
        exact .inl ⟨rfl, by simp⟩
      split at h
      · obtain ⟨out₁, htx, heq⟩ := map_eq_ok.mp h
        cases heq
        exact .inl ⟨rfl, fun _ _ _ _ _ _ => txIcmp_not_forwarded htx⟩
      · cases h
        exact .inl ⟨rfl, by simp⟩
    · exact .inr ⟨ipv4, hparse, hbroadcast, h⟩
  split at h
  · split at h
    · cases h
      exact .inl ⟨rfl, by simp⟩
    · exact .inr ⟨ipv4, hparse, hbroadcast, h⟩
  split at h
  · cases h
    exact .inl ⟨rfl, by simp⟩
  · exact .inr ⟨ipv4, hparse, hbroadcast, h⟩

theorem rxIpv4_trafficTo (hi : r.netIfMap inNetIf = some i)
    (h : r.rxIpv4 o inNetIf i pkt = .ok (r', out)) : r.TrafficTo r' := by
  rcases rxIpv4_cases h with ⟨rfl, -⟩ | ⟨ipv4, -, -, hroute⟩
  · exact .of_netIfMap rfl
  · exact ipv4RouteForward_trafficTo hi hroute

end

/-! ## Events -/

/-- An event moves the tables of an interface and keeps whether it translates. -/
def Moves (r r' : Router) : Prop :=
  ∀ name, r'.netIfMap name = none ∧ r.netIfMap name = none ∨
    ∃ i i', r.netIfMap name = some i ∧ r'.netIfMap name = some i' ∧ i'.natEnable = i.natEnable ∧
      i.nat.Moves i'.nat

theorem TrafficTo.moves (h : r.TrafficTo r') : r.Moves r' := by
  intro name
  rcases h name with hnone | ⟨i, nat, hi, hi', htraffic⟩
  · exact .inl hnone
  · exact .inr ⟨i, { i with nat := nat }, hi, hi', rfl, htraffic.moves⟩

theorem Moves.setNat (hi : r.netIfMap name = some i) {nat : NatIf}
    (h : i.nat.Moves nat) : r.Moves (r.setNat name nat) := by
  intro name'
  by_cases hne : name' = name
  · subst hne
    exact .inr ⟨i, { i with nat := nat }, hi, setNat_netIfMap_self hi nat, rfl, h⟩
  · rw [setNat_netIfMap_ne hne]
    exact (TrafficTo.of_netIfMap (r := r) rfl).moves name'

/-- What an event of a router does to its interfaces. -/
theorem step_moves {e : RouterEvent} {out : List RouterOut} (h : r.step e = .ok (r', out)) :
    r.Moves r' := by
  have hsame : r.Moves r := (TrafficTo.of_netIfMap rfl).moves
  cases e with
  | rxIpv4 o netIf ethPayload =>
    simp only [Router.step] at h
    split at h
    · cases h
      exact hsame
    · rename_i i hi
      exact (rxIpv4_trafficTo hi h).moves
  | nat netIf e =>
    cases e with
    | clock t =>
      cases h
      exact hsame
    | _ =>
      simp only [Router.step] at h
      split at h
      · cases h
        exact hsame
      · rename_i i hi
        cases h
        exact .setNat hi (.event _ rfl)
  | clock timeNow =>
    cases h
    intro name
    cases hi : r.netIfMap name with
    | none => exact .inl ⟨by simp [hi], rfl⟩
    | some i =>
      exact .inr ⟨i, { i with nat := (i.nat.step (.clock timeNow)).1 }, rfl, by simp [hi], rfl,
        .event (.clock timeNow) rfl⟩
  | setGateway netIf gateway =>
    cases h
    intro name
    by_cases hne : name = netIf
    · subst hne
      cases hi : r.netIfMap name with
      | none => exact .inl ⟨by simp, rfl⟩
      | some i => exact .inr ⟨i, { i with gateway := gateway, hasGateway := true }, rfl, by simp,
          rfl, .refl _⟩
    · dsimp only
      rw [Function.update_of_ne hne]
      exact hsame name
  | _ =>
    cases h
    exact (TrafficTo.of_netIfMap rfl).moves

end Router

end Halo
