import Halo.Router.RoundTrip

/-!
# Which packets are translated inward

`RxIpv4` hands a packet for a foreign address to `Ipv4RouteForward` as well, and not all rules of
the inward translation look at the destination of the packet.

* `Inward`: the rules, with the flow or static mapping that each one finds; `dnat_some_iff`.
* `Inward.base`: every rule writes the address and the port of a LAN host into the packet.
* `inward_own_iff`: whatever the router around an interface does, only packets for the interface
  itself are translated inward and forwarded, unless a rule applies to a packet for another address.
-/

namespace Halo

namespace NatIf

variable {s s' : NatIf} {checkSumEnable : Bool} {pkt pkt' : Bytes} {ipv4 : Ipv4Pkt} {dnat : Dnat}

/-- `icmp` is a time exceeded message that quotes enough of a packet. -/
def Quotes (ipv4 : Ipv4Pkt) (icmp : IcmpPkt) : Prop :=
  ipv4.ipHeadProto = iphProtoIcmp ∧ parseIcmpPkt ipv4.payload = .ok icmp ∧
    icmp.icmpType = icmpTtl ∧ 28 ≤ icmp.payload.length

/-- The lookup of the flow of a quoted packet. -/
def quotedFlow (s : NatIf) (icmp : IcmpPkt) : NatIf × Option NatFlow :=
  s.natGetFlowByWan (addrAt icmp.payload 16) (natGetSrcDstPort icmp.payload).2
    (addrAt icmp.payload 12) (natGetSrcDstPort icmp.payload).1 (byteAt icmp.payload 9)

/-- A time exceeded message after the fix-up. -/
def fixUp (checkSumEnable : Bool) (pkt : Bytes) (icmp : IcmpPkt) (natFlow : NatFlow) : Bytes :=
  let lanHost := uToIpAddr natFlow.lanHostIpAddr
  let payload := natChangeSrc checkSumEnable icmp.payload lanHost natFlow.lanHostPort
  natChangeDst checkSumEnable (pkt.take 28 ++ payload ++ pkt.drop (28 + payload.length)) lanHost 0

/-- The rules of the inward translation: the state after it, the packet and the rule. -/
inductive Inward (s : NatIf) (checkSumEnable : Bool) (pkt : Bytes) (ipv4 : Ipv4Pkt) :
    NatIf → Bytes → Dnat → Prop
  /-- A quoted packet belongs to a flow. -/
  | icmpTtl {icmp : IcmpPkt} {s' : NatIf} {natFlow : NatFlow} (hquotes : Quotes ipv4 icmp)
      (hflow : s.quotedFlow icmp = (s', some natFlow)) :
      Inward s checkSumEnable pkt ipv4 s' (fixUp checkSumEnable pkt icmp natFlow) (.icmpTtl natFlow)
  /-- A static mapping has the destination port. -/
  | mapping {entry : NatPortMappingEntry}
      (hmapping : s.checkNatPortMappingWan (natGetSrcDstPort pkt).2 ipv4.ipHeadProto = some entry) :
      Inward s checkSumEnable pkt ipv4 s (natChangeDst checkSumEnable pkt
        (uToIpAddr entry.lanHostIpAddr) entry.lanHostPort) (.mapping entry)
  /-- The addresses and ports are those of a flow, and no other rule applies. -/
  | flow {s' : NatIf} {natFlow : NatFlow}
      (hquotes : ∀ icmp, Quotes ipv4 icmp → (s.quotedFlow icmp).2 = none)
      (hmapping : s.checkNatPortMappingWan (natGetSrcDstPort pkt).2 ipv4.ipHeadProto = none)
      (hflow : s.natGetFlowByWan ipv4.srcAddr (natGetSrcDstPort pkt).1 ipv4.dstAddr
        (natGetSrcDstPort pkt).2 ipv4.ipHeadProto = (s', some natFlow)) :
      Inward s checkSumEnable pkt ipv4 s' (natChangeDst checkSumEnable pkt
        (uToIpAddr natFlow.lanHostIpAddr) natFlow.lanHostPort) (.flow natFlow)

/-- A lookup that finds nothing changes nothing. -/
theorem natGetFlowByWan_none {remoteIpAddr wanIpAddr : Ipv4Addr} {remotePort wanPort : UInt16}
    {ipv4HeadProto : UInt8} (h : s.natGetFlowByWan remoteIpAddr remotePort wanIpAddr wanPort
      ipv4HeadProto = (s', none)) : s' = s := by
  unfold natGetFlowByWan at h
  split at h
  · cases h
    rfl
  · exact refresh_none h

/-- What the fix-up of time exceeded messages does. -/
theorem icmpTtlDeepNat_cases (hparse : parseIpv4Pkt checkSumEnable pkt = .ok ipv4) :
    (s.icmpTtlDeepNat checkSumEnable pkt = (s, pkt, none) ∧
      ∀ icmp, Quotes ipv4 icmp → (s.quotedFlow icmp).2 = none) ∨
    ∃ icmp s' natFlow, Quotes ipv4 icmp ∧ s.quotedFlow icmp = (s', some natFlow) ∧
      s.icmpTtlDeepNat checkSumEnable pkt =
        (s', fixUp checkSumEnable pkt icmp natFlow, some natFlow) := by
  by_cases hquotes : ∃ icmp, Quotes ipv4 icmp
  · obtain ⟨icmp, hquotes⟩ := hquotes
    have hunique : ∀ icmp', Quotes ipv4 icmp' → icmp' = icmp := by
      rintro icmp' ⟨-, hok, -, -⟩
      rw [hquotes.2.1] at hok
      cases hok
      rfl
    obtain ⟨hproto, hok, htype, hlen⟩ := hquotes
    cases hflow : s.quotedFlow icmp with
    | mk s₁ flow? =>
      have hunfold : s.icmpTtlDeepNat checkSumEnable pkt =
          (s₁, flow?.elim pkt (fixUp checkSumEnable pkt icmp), flow?) := by
        unfold icmpTtlDeepNat
        rw [hparse]
        dsimp only
        rw [if_neg (not_not.mpr hproto), hok]
        dsimp only
        rw [if_neg (not_not.mpr htype), if_neg (by omega)]
        unfold quotedFlow at hflow
        rw [hflow]
        cases flow? <;> rfl
      cases flow? with
      | none =>
        obtain rfl := natGetFlowByWan_none hflow
        refine .inl ⟨hunfold, fun icmp' hicmp' => ?_⟩
        rw [hunique icmp' hicmp', hflow]
      | some natFlow => exact .inr ⟨icmp, s₁, natFlow, ⟨hproto, hok, htype, hlen⟩, hflow, hunfold⟩
  · refine .inl ⟨?_, fun icmp hicmp => absurd ⟨icmp, hicmp⟩ hquotes⟩
    unfold icmpTtlDeepNat
    rw [hparse]
    dsimp only
    split
    · rfl
    rename_i hproto
    split
    · rfl
    rename_i icmp hok
    split
    · rfl
    rename_i htype
    split
    · rfl
    rename_i hlen
    exact absurd ⟨icmp, not_not.mp hproto, hok, not_not.mp htype, by omega⟩ hquotes

/-- A static mapping is for TCP and UDP only, so no quoted packet comes before it. -/
theorem not_quotes_of_mapping {entry : NatPortMappingEntry} {port : UInt16}
    (h : s.checkNatPortMappingWan port ipv4.ipHeadProto = some entry) (icmp : IcmpPkt) :
    ¬ Quotes ipv4 icmp := by
  rintro ⟨hproto, -⟩
  rw [checkNatPortMappingWan, hproto, if_pos (by decide)] at h
  cases h

theorem dnat_some_iff (hparse : parseIpv4Pkt checkSumEnable pkt = .ok ipv4) :
    s.dnat checkSumEnable pkt ipv4.srcAddr ipv4.dstAddr ipv4.ipHeadProto = (s', some (pkt', dnat)) ↔
      Inward s checkSumEnable pkt ipv4 s' pkt' dnat := by
  rcases icmpTtlDeepNat_cases (s := s) hparse with ⟨hnone, hquoted⟩ |
    ⟨icmp, s₁, natFlow, hquotes, hflow, hsome⟩
  · unfold NatIf.dnat
    rw [hnone]
    dsimp only
    constructor
    · intro h
      split at h
      · rename_i entry hmapping
        cases h
        exact .mapping hmapping
      rename_i hmapping
      split at h
      · cases h
      · rename_i s₂ natFlow hflow
        cases h
        exact .flow hquoted hmapping hflow
    · rintro (⟨hquotes, hflow⟩ | ⟨hmapping⟩ | ⟨-, hmapping, hflow⟩)
      · have hnoflow := hquoted _ hquotes
        rw [hflow] at hnoflow
        cases hnoflow
      · rw [hmapping]
      · rw [hmapping]
        dsimp only
        rw [hflow]
  · unfold NatIf.dnat
    rw [hsome]
    dsimp only
    constructor
    · intro h
      cases h
      exact .icmpTtl hquotes hflow
    · rintro (⟨hquotes', hflow'⟩ | ⟨hmapping⟩ | ⟨hquoted, -, -⟩)
      · obtain ⟨-, hok, -, -⟩ := hquotes
        obtain ⟨-, hok', -, -⟩ := hquotes'
        rw [hok] at hok'
        cases hok'
        rw [hflow] at hflow'
        cases hflow'
        rfl
      · exact absurd hquotes (not_quotes_of_mapping hmapping icmp)
      · have hnoflow := hquoted icmp hquotes
        rw [hflow] at hnoflow
        cases hnoflow

/-- An inward rule applies: the packet quotes one of a flow, a static mapping has its protocol and
destination port, or its addresses and ports are those of a flow. -/
def HasRule (s : NatIf) (pkt : Bytes) (ipv4 : Ipv4Pkt) : Prop :=
  (∃ icmp, Quotes ipv4 icmp ∧ (s.quotedFlow icmp).2.isSome) ∨
    (s.checkNatPortMappingWan (natGetSrcDstPort pkt).2 ipv4.ipHeadProto).isSome ∨
    (s.natGetFlowByWan ipv4.srcAddr (natGetSrcDstPort pkt).1 ipv4.dstAddr (natGetSrcDstPort pkt).2
      ipv4.ipHeadProto).2.isSome

theorem hasRule_iff : s.HasRule pkt ipv4 ↔
    ∃ s' pkt' dnat, s.Inward checkSumEnable pkt ipv4 s' pkt' dnat := by
  constructor
  · intro h
    by_cases hquoted : ∃ icmp, Quotes ipv4 icmp ∧ (s.quotedFlow icmp).2.isSome
    · obtain ⟨icmp, hquotes, hsome⟩ := hquoted
      obtain ⟨natFlow, hflow⟩ := Option.isSome_iff_exists.mp hsome
      exact ⟨_, _, _, .icmpTtl hquotes (Prod.ext rfl hflow)⟩
    cases hmapping : s.checkNatPortMappingWan (natGetSrcDstPort pkt).2 ipv4.ipHeadProto with
    | some entry => exact ⟨_, _, _, .mapping hmapping⟩
    | none =>
      rw [HasRule, hmapping] at h
      obtain ⟨natFlow, hflow⟩ :=
        Option.isSome_iff_exists.mp ((h.resolve_left hquoted).resolve_left (by decide))
      refine ⟨_, _, _, .flow (fun icmp hicmp => ?_) hmapping (Prod.ext rfl hflow)⟩
      exact Option.not_isSome_iff_eq_none.mp fun hsome => hquoted ⟨icmp, hicmp, hsome⟩
  · rintro ⟨s', pkt', dnat, ⟨hquotes, hflow⟩ | ⟨hmapping⟩ | ⟨-, -, hflow⟩⟩
    · exact .inl ⟨_, hquotes, by rw [hflow]; rfl⟩
    · exact .inr (.inl (by rw [hmapping]; rfl))
    · exact .inr (.inr (by rw [hflow]; rfl))

end NatIf

/-- The address that an inward rule writes. -/
def Dnat.lanHost : Dnat → Ipv4Addr
  | .icmpTtl natFlow | .flow natFlow => uToIpAddr natFlow.lanHostIpAddr
  | .mapping entry => uToIpAddr entry.lanHostIpAddr

/-- The port that an inward rule writes. A time exceeded message has none. -/
def Dnat.lanPort : Dnat → UInt16
  | .icmpTtl _ => 0
  | .mapping entry => entry.lanHostPort
  | .flow natFlow => natFlow.lanHostPort

namespace NatIf

variable {s s' : NatIf} {checkSumEnable : Bool} {pkt pkt' : Bytes} {ipv4 : Ipv4Pkt} {dnat : Dnat}

/-- A rule writes the LAN host into the packet, or into one with another quote. -/
theorem Inward.base (hparse : parseIpv4Pkt checkSumEnable pkt = .ok ipv4)
    (h : s.Inward checkSumEnable pkt ipv4 s' pkt' dnat) :
    ∃ base, AgreeOff (Set.Ici 28) pkt base ∧
      pkt' = natChangeDst checkSumEnable base dnat.lanHost dnat.lanPort := by
  cases h with
  | @icmpTtl icmp s' natFlow hquotes hflow =>
    refine ⟨_, ?_, rfl⟩
    set quote := natChangeSrc checkSumEnable icmp.payload (uToIpAddr natFlow.lanHostIpAddr)
      natFlow.lanHostPort
    have hlen : quote.length = icmp.payload.length :=
      (natChange_agreeOff_front _ _ checkSumEnable (by omega) (by omega)).length_eq
    obtain ⟨hheader, -, rfl⟩ := parseIpv4Pkt_ok_iff.mp hparse
    obtain ⟨-, hicmp, -, hlong⟩ := hquotes
    rw [(parseIcmpPkt_ok_iff.mp hicmp).2, icmpFields, ipv4Fields] at hlen hlong
    simp only [List.length_drop, List.length_take] at hlen hlong
    refine ⟨by simp only [List.length_append, List.length_take, List.length_drop]; omega,
      fun j hj => ?_⟩
    rw [Set.mem_Ici] at hj
    rw [List.append_assoc, byteAt_append_left (by rw [List.length_take]; omega),
      byteAt_take (by omega)]
  | mapping => exact ⟨pkt, .refl _ pkt, rfl⟩
  | flow => exact ⟨pkt, .refl _ pkt, rfl⟩

/-- No rule changes a byte in front of the header checksum. -/
theorem Inward.agreeOff (hparse : parseIpv4Pkt checkSumEnable pkt = .ok ipv4)
    (h : s.Inward checkSumEnable pkt ipv4 s' pkt' dnat) : AgreeOff (Set.Ici 10) pkt pkt' := by
  obtain ⟨base, hbase, rfl⟩ := h.base hparse
  refine (hbase.trans (natChange_agreeOff_front _ _ checkSumEnable (by omega) (by omega))).mono ?_
  rw [Set.union_eq_right.mpr (Set.Ici_subset_Ici.mpr (by omega))]

end NatIf

namespace Router

section

variable {r r' : Router} {o : FwdOracle} {inNetIf : String} {i : NetIf} {pkt : Bytes}
  {dnat : Option Dnat} {ipv4SrcAddr : Ipv4Addr} {checkSumEnable : Bool}

/-- A packet is forwarded, with the rule that translated it inward. -/
def Forwarded (res : Except Fault (Router × List RouterOut)) (dnat : Option Dnat) : Prop :=
  ∃ r' out inNetIf outNetIf pkt mac snat, res = .ok (r', out) ∧
    .forwarded inNetIf outNetIf pkt mac dnat snat ∈ out

/-- An interface of a LAN. -/
def lanIf : NetIf :=
  ⟨#[2, 0, 0, 0, 0, 1].toVector, false, zeroIpv4Addr, false,
    initNatIf 0 #[10, 0, 0, 1].toVector 0 []⟩

/-- That interface and the given one, and a default route to the LAN. -/
def lanRouter (checkSumEnable : Bool) (i : NetIf) : Router where
  checkSumEnable := checkSumEnable
  netIfMap name := if name = "wan" then some i else if name = "lan" then some lanIf else none
  routeTable := RouteTable.empty.addRoute ⟨zeroIpv4Addr, zeroIpv4Addr, zeroIpv4Addr, false, "lan"⟩
  natPortMappingFlowTable := ∅
  ipv4PktFwdHook := none
  timeNow := 0

theorem lanRouter_route (nat : NatIf) (ip : Ipv4Addr) :
    ((lanRouter checkSumEnable i).setNat "wan" nat).routeOut none ip =
      .ok (some ("lan", none)) := by
  have hroot : (lanRouter checkSumEnable i).routeTable.root =
      .node (some [⟨zeroIpv4Addr, zeroIpv4Addr, zeroIpv4Addr, false, "lan"⟩]) .nil .nil := by
    rfl
  have hlist : (lanRouter checkSumEnable i).routeTable.root.findList ip =
      some [⟨zeroIpv4Addr, zeroIpv4Addr, zeroIpv4Addr, false, "lan"⟩] := by
    simp [TrieNode.findList, hroot, TrieNode.findLoop, TrieNode.routeList]
  unfold routeOut findRoute setNat RouteTable.findRoute
  dsimp only
  rw [hlist]
  simp [Nat.mod_one]

/-- A live packet from the interface with NAT is sent to the LAN. -/
theorem lanRouter_forwards {nat : NatIf} {dnat : Dnat} (hnat : i.natEnable = true)
    (hheader : Ipv4Header pkt) (httl : 1 < byteAt pkt 8) :
    Forwarded
      (((lanRouter checkSumEnable i).setNat "wan" nat).forwardRest exampleOracle "wan"
        { i with nat := nat }
      pkt ipv4SrcAddr (some dnat)) (some dnat) := by
  have hlen := hheader.length_ge
  have halive : (handleIpv4PktTtl checkSumEnable pkt).2 = true := by
    rw [handleIpv4PktTtl, if_neg (by omega), if_neg (UInt8.not_le.mpr httl)]
  set pkt₁ := (handleIpv4PktTtl checkSumEnable pkt).1 with hpkt₁
  have hparse : parseIpv4Pkt checkSumEnable pkt₁ = .ok (ipv4Fields pkt₁) := by
    obtain ⟨-, -, heq⟩ := handleIpv4PktTtl_alive halive
    refine parseIpv4Pkt_ok_iff.mpr
      ⟨hheader.congr (handleIpv4PktTtl_agreeOff halive) fun j hj hj' => ?_, ?_, rfl⟩
    · simp only [Set.mem_insert_iff, Set.mem_singleton_iff]
      omega
    · rintro rfl
      rw [hpkt₁, heq]
      exact reCalcIpv4CheckSum_verifies (by rw [List.length_set]; omega)
  set r := (lanRouter checkSumEnable i).setNat "wan" nat
  obtain ⟨r', mac, hsend⟩ : ∃ r' mac,
      r.sendOut exampleOracle "wan" { i with nat := nat } pkt₁ (ipv4Fields pkt₁)
      (some dnat) none "lan" none =
        .ok (r', [.forwarded "wan" "lan" pkt₁ mac (some dnat) none]) := by
    unfold sendOut
    rw [show r.netIfMap "lan" = some lanIf from rfl]
    dsimp only
    rw [if_neg fun h => h.2 hnat]
    cases dnat <;> exact ⟨_, _, rfl⟩
  refine ⟨r', _, "wan", "lan", pkt₁, mac, none, ?_, List.mem_singleton_self _⟩
  unfold forwardRest
  rw [show handleIpv4PktTtl r.checkSumEnable pkt = (pkt₁, true) from Prod.ext rfl halive]
  dsimp only
  rw [show r.hookPkt { i with nat := nat } pkt₁ = some pkt₁ from rfl]
  dsimp only
  rw [show parseIpv4Pkt r.checkSumEnable pkt₁ = .ok (ipv4Fields pkt₁) from hparse]
  dsimp only
  rw [show r.findMappingFlow { i with nat := nat } pkt₁ (ipv4Fields pkt₁) =
    (r, none) from if_pos hnat]
  dsimp only
  rw [lanRouter_route]
  exact hsend

/-- Every router with the interface translates the packet inward and forwards it only if the packet
is for the interface itself. -/
def InwardOnlyOwn (checkSumEnable : Bool) (i : NetIf) (pkt : Bytes) : Prop :=
  ∀ (r : Router) (o : FwdOracle) (inNetIf : String) (dnat : Dnat),
    r.checkSumEnable = checkSumEnable →
    r.netIfMap inNetIf = some i → Forwarded (r.rxIpv4 o inNetIf i pkt) (some dnat) →
      addrAt pkt 16 = i.nat.ipAddr

/-- The packets for other addresses to which a rule applies are those that a router may translate
inward and forward: all but packets on their last hop and broadcasts. -/
theorem inward_own_iff (checkSumEnable : Bool) (hnat : i.natEnable = true) (pkt : Bytes) :
    InwardOnlyOwn checkSumEnable i pkt ↔
      addrAt pkt 16 = i.nat.ipAddr ∨ addrAt pkt 16 = broadcastIpv4Addr ∨ byteAt pkt 8 ≤ 1 ∨
        ∀ ipv4, parseIpv4Pkt checkSumEnable pkt = .ok ipv4 → ¬ i.nat.HasRule pkt ipv4 := by
  constructor
  · intro h
    by_contra hcondition
    push Not at hcondition
    obtain ⟨hown, hbroadcast, httl, ipv4, hparse, hrule⟩ := hcondition
    obtain ⟨nat, pkt', dnat, hinward⟩ := NatIf.hasRule_iff.mp hrule
    have hagree := hinward.agreeOff hparse
    refine hown (h (lanRouter checkSumEnable i) exampleOracle "wan" dnat rfl rfl ?_)
    obtain ⟨hheader, -, hfields⟩ := parseIpv4Pkt_ok_iff.mp hparse
    have hdst : ipv4.dstAddr = addrAt pkt 16 := by
      rw [hfields]
      rfl
    unfold rxIpv4
    rw [show (lanRouter checkSumEnable i).checkSumEnable = checkSumEnable from rfl, hparse]
    dsimp only
    rw [hdst, if_neg hbroadcast, if_pos hown]
    unfold ipv4RouteForward
    rw [if_pos hnat, show (lanRouter checkSumEnable i).checkSumEnable = checkSumEnable from rfl,
      (NatIf.dnat_some_iff hparse).mpr hinward]
    refine lanRouter_forwards hnat
      (hheader.congr hagree fun j hj _ => by rw [Set.mem_Ici]; omega) ?_
    rw [hagree.byteAt_eq 8 (by rw [Set.mem_Ici]; omega)]
    exact UInt8.not_le.mp httl
  · rintro hcondition r o inNetIf dnat rfl - ⟨r', out, inName, outName, pkt', mac, snat, h, hmem⟩
    obtain ⟨ipv4, hparse, hbroadcast, hforward⟩ := rxIpv4_forwarded h hmem
    obtain ⟨-, -, hfields⟩ := parseIpv4Pkt_ok_iff.mp hparse
    have hdst : ipv4.dstAddr = addrAt pkt 16 := by
      rw [hfields]
      rfl
    unfold ipv4RouteForward at hforward
    rw [if_pos hnat] at hforward
    split at hforward
    · cases hforward
      cases hmem
    rename_i nat pkt₁ dnat₁ hdnat
    have hinward := (NatIf.dnat_some_iff hparse).mp hdnat
    rcases hcondition with hown | hdst' | httl | hnone
    · exact hown
    · exact absurd (hdst.trans hdst') hbroadcast
    · rcases forwardRest_cases hforward with ⟨-, hnot⟩ | ⟨_, _, _, _, halive, -⟩
      · exact absurd hmem (hnot _ _ _ _ _ _)
      · obtain ⟨-, hone, -⟩ := handleIpv4PktTtl_alive halive
        rw [(hinward.agreeOff hparse).byteAt_eq 8 (by rw [Set.mem_Ici]; omega)] at hone
        exact absurd httl (UInt8.not_le.mpr hone)
    · exact absurd (NatIf.hasRule_iff.mpr ⟨_, _, _, hinward⟩) (hnone ipv4 hparse)

end

/-- The WAN interface 192.0.2.1 maps its TCP port 8080 to 10.0.0.5:80. -/
def mappingWan : NetIf where
  macAddr := #[2, 0, 0, 0, 0, 2].toVector
  natEnable := true
  gateway := zeroIpv4Addr
  hasGateway := false
  nat := initNatIf 0 #[192, 0, 2, 1].toVector 0 [⟨8080, 167772165, 80, 6⟩]

/-- A router with that interface and a LAN interface. -/
def mappingRouter : Router :=
  initRouter true
    (fun name =>
      if name = "lan" then
        some ⟨#[2, 0, 0, 0, 0, 1].toVector, #[10, 0, 0, 1].toVector, none, false, 0, []⟩
      else if name = "wan" then
        some ⟨#[2, 0, 0, 0, 0, 2].toVector, #[192, 0, 2, 1].toVector, none, true, 0,
        [⟨8080, 167772165, 80, 6⟩]⟩
      else none)
    (RouteTable.empty.addRoute ⟨#[10, 0, 0, 0].toVector, #[255, 0, 0, 0].toVector, zeroIpv4Addr,
      false, "lan"⟩) 0

/-- A SYN from 203.0.113.9:1234 to port 8080 of the interface. -/
def ownSyn : Bytes :=
  [69, 0, 0, 40, 0, 7, 0, 0, 128, 6, 60, 190, 203, 0, 113, 9, 192, 0, 2, 1, 4, 210, 31, 144,
    0, 0, 0, 1, 0, 0, 0, 0, 80, 2, 4, 0, 137, 116, 0, 0]

/-- The same to port 8080 of 198.51.100.7. -/
def straySyn : Bytes :=
  [69, 0, 0, 40, 0, 7, 0, 0, 128, 6, 212, 132, 203, 0, 113, 9, 198, 51, 100, 7, 4, 210, 31, 144,
    0, 0, 0, 1, 0, 0, 0, 0, 80, 2, 4, 0, 33, 59, 0, 0]

/-- The mapping makes the difference between a packet for the interface itself and one for another
address. -/
theorem inward_own_iff_syn : mappingWan.natEnable = true ∧ InwardOnlyOwn true mappingWan ownSyn ∧
    ¬ InwardOnlyOwn true mappingWan straySyn := by
  refine ⟨rfl, (inward_own_iff true rfl ownSyn).mpr (.inl (by decide)), fun h => ?_⟩
  rcases (inward_own_iff true rfl straySyn).mp h with h | h | h | h
  · exact absurd h (by decide)
  · exact absurd h (by decide)
  · exact absurd h (by decide)
  · exact h (ipv4Fields straySyn) (by decide +kernel) (.inr (.inl (by decide +kernel)))

/-- A packet for another address gets to the LAN host of a static mapping. -/
theorem mapping_ignores_destination :
    mappingRouter.netIfMap "wan" = some mappingWan ∧
    addrAt straySyn 16 = #v[198, 51, 100, 7] ∧ mappingWan.nat.ipAddr = #v[192, 0, 2, 1] ∧
    outputs Router.step mappingRouter [.rxIpv4 exampleOracle "wan" straySyn] =
      .ok [[.forwarded "wan" "lan" [69, 0, 0, 40, 0, 7, 0, 0, 127, 6, 245, 186, 203, 0, 113, 9,
        10, 0, 0, 5, 4, 210, 0, 80, 0, 0, 0, 1, 0, 0, 0, 0, 80, 2, 4, 0, 96, 177, 0, 0]
        #v[2, 0, 0, 0, 0, 9] (some (.mapping ⟨8080, 167772165, 80, 6⟩)) none]] := by
  refine ⟨rfl, by decide, by decide, by decide +kernel⟩

end Router

end Halo
