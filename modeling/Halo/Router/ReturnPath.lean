import Halo.Router.Inward

/-!
# The way back of a statically mapped connection

A packet that a static mapping lets in leaves a record in `NatPortMappingFlowTable`, under the
remote end, the end of the LAN host and the protocol (`connection`). The table is one for all
interfaces. A packet of the LAN host that finds its record leaves through the interface of the
record, whatever the routes say.

* `rxIpv4_record`: what the handling of a packet does to the table.
* `WayBack`, `Inside`: the record is there, and the route to the LAN host leads to an interface
  without NAT, so a packet from outside reaches the host with the source that it came with.
* `Undisturbed`: the rounds that do not end the guarantee. They keep the record (`Returns.step`).
* `mapping_reply_leaves_where_it_came_in`: the replies leave through the interface of the record.
-/

namespace Halo

namespace Router

/-- The key of the record of a packet that the mapping lets in: the remote end, the end of the LAN
host and the protocol. -/
def connection (pkt : Bytes) (entry : NatPortMappingEntry) : NatFlowHash :=
  ⟨ipAddrToU (addrAt pkt 12), (natGetSrcDstPort pkt).1, entry.lanHostIpAddr, entry.lanHostPort,
    byteAt pkt 9⟩

/-- The record of a connection has the interface and the port that the connection came in on. -/
def WayBack (r : Router) (key : NatFlowHash) (wan : String) (wanPort : UInt16) : Prop :=
  ∃ t, r.natPortMappingFlowTable.lookup key = some ⟨wan, wanPort, t⟩

/-- The route to the LAN host does not lead to an interface with NAT. -/
def Inside (r : Router) (host : UInt32) : Prop :=
  ∀ name nextHop outNetIf, r.findRoute (uToIpAddr host) = .ok (name, nextHop) →
    r.netIfMap name = some outNetIf → outNetIf.natEnable = false

variable {r r' : Router} {o : FwdOracle} {inNetIf outNetIfName wan : String} {i : NetIf}
  {pkt : Bytes} {ipv4 : Ipv4Pkt} {dnat : Option Dnat} {mappingFlow : Option NatPortMappingFlow}
  {nextHop : Option Ipv4Addr} {out : List RouterOut} {key : NatFlowHash} {wanPort : UInt16}

/-! ## The table -/

/-- A lookup changes nothing but the table. -/
theorem findMappingFlow_frame (r : Router) (i : NetIf) (pkt : Bytes) (ipv4 : Ipv4Pkt) :
    (r.findMappingFlow i pkt ipv4).1 = { r with
      natPortMappingFlowTable := (r.findMappingFlow i pkt ipv4).1.natPortMappingFlowTable } := by
  unfold findMappingFlow
  split
  · rfl
  dsimp only
  split <;> rfl

/-- A lookup refreshes a record and keeps its interface and port. -/
theorem findMappingFlow_wayBack (h : r.WayBack key wan wanPort) (i : NetIf) (pkt : Bytes)
    (ipv4 : Ipv4Pkt) : (r.findMappingFlow i pkt ipv4).1.WayBack key wan wanPort := by
  obtain ⟨t, ht⟩ := h
  unfold findMappingFlow
  split
  · exact ⟨t, ht⟩
  dsimp only
  split
  · exact ⟨t, ht⟩
  · rename_i flow hflow
    by_cases hkey : key = ⟨ipAddrToU ipv4.dstAddr, (natGetSrcDstPort pkt).2, ipAddrToU ipv4.srcAddr,
      (natGetSrcDstPort pkt).1, ipv4.ipHeadProto⟩
    · rw [← hkey, ht] at hflow
      cases hflow
      refine ⟨r.timeNow, ?_⟩
      rw [← hkey, AList.lookup_insert]
    · refine ⟨t, ?_⟩
      rwa [AList.lookup_insert_ne hkey]

/-- A packet of the LAN host finds the record of its connection. -/
theorem findMappingFlow_found (hlan : i.natEnable = false)
    (h : r.WayBack ⟨ipAddrToU ipv4.dstAddr, (natGetSrcDstPort pkt).2, ipAddrToU ipv4.srcAddr,
      (natGetSrcDstPort pkt).1, ipv4.ipHeadProto⟩ wan wanPort) :
    (r.findMappingFlow i pkt ipv4).2 = some ⟨wan, wanPort, r.timeNow⟩ := by
  obtain ⟨t, ht⟩ := h
  unfold findMappingFlow
  rw [if_neg (by simp [hlan])]
  dsimp only
  rw [ht]

/-- A packet with a record leaves through the interface of the record. -/
theorem routeOut_found {flow : NatPortMappingFlow} {ipv4DstAddr : Ipv4Addr}
    (h : r.routeOut (some flow) ipv4DstAddr = .ok (some (outNetIfName, nextHop))) :
    outNetIfName = flow.wanNetIf := by
  unfold routeOut at h
  split at h
  · cases h
  rename_i route hroute
  simp only [Except.ok.injEq, Option.filter_eq_some_iff] at h
  obtain ⟨h, -⟩ := h
  split at h
  · rename_i heq
    cases h
    exact heq
  split at h
  · cases h
  · split at h
    · cases h
      rfl
    · cases h

/-- A packet without a record leaves through the interface of its route. -/
theorem routeOut_none {ipv4DstAddr : Ipv4Addr}
    (h : r.routeOut none ipv4DstAddr = .ok (some (outNetIfName, nextHop))) :
    r.findRoute ipv4DstAddr = .ok (outNetIfName, nextHop) := by
  unfold routeOut at h
  split at h
  · cases h
  rename_i route hroute
  simp only [Except.ok.injEq, Option.filter_eq_some_iff] at h
  obtain ⟨h, -⟩ := h
  cases h
  exact hroute

/-- What `sendOut` does to the table: it stays as it is and no statically mapped packet is
forwarded, or one is forwarded and its way back is recorded. -/
theorem sendOut_record
    (h : r.sendOut o inNetIf i pkt ipv4 dnat mappingFlow outNetIfName nextHop = .ok (r', out)) :
    (r'.natPortMappingFlowTable = r.natPortMappingFlowTable ∧
      ∀ inName outName pkt' mac entry snat,
        .forwarded inName outName pkt' mac (some (.mapping entry)) snat ∉ out) ∨
    ∃ entry outNetIf pkt' snat mac, dnat = some (.mapping entry) ∧
      r.netIfMap outNetIfName = some outNetIf ∧
      (outNetIf.translateOut r.checkSumEnable o.alloc pkt ipv4 mappingFlow).2 = some (pkt', snat) ∧
      out = [.forwarded inNetIf outNetIfName pkt' mac dnat snat] ∧
      r'.natPortMappingFlowTable = r.natPortMappingFlowTable.insert
        ⟨ipAddrToU (addrAt pkt' 12), (natGetSrcDstPort pkt').1, entry.lanHostIpAddr,
          entry.lanHostPort, ipv4.ipHeadProto⟩ ⟨inNetIf, entry.wanPort, r.timeNow⟩ := by
  unfold sendOut at h
  split at h
  · cases h
  rename_i outNetIf hout
  split at h
  · cases h
    exact .inl ⟨rfl, by simp⟩
  dsimp only at h
  split at h
  · cases h
    exact .inl ⟨rfl, by simp⟩
  rename_i pkt' snat htranslate
  split at h
  · cases h
    exact .inl ⟨rfl, by simp⟩
  rename_i mac harp
  cases h
  unfold recordMappingFlow
  split
  · rename_i entry
    dsimp only
    split
    · exact .inl ⟨rfl, by simp⟩
    · exact .inr ⟨entry, outNetIf, pkt', snat, mac, rfl, hout, htranslate, rfl, rfl⟩
  · rename_i hother
    refine .inl ⟨rfl, ?_⟩
    intro inName outName pkt₁ mac₁ entry snat₁ hmem
    simp only [if_true, List.mem_singleton, RouterOut.forwarded.injEq] at hmem
    exact hother entry hmem.2.2.2.2.1.symm

/-! ## Reception -/

/-- The inward translation by a static mapping keeps the source and the protocol of a packet. -/
theorem natChangeDst_source (checkSumEnable : Bool) (ipAddr : Ipv4Addr) (port : UInt16)
    (hheader : Ipv4Header pkt) (hproto : byteAt pkt 9 ≠ iphProtoIcmp) :
    addrAt (natChangeDst checkSumEnable pkt ipAddr port) 12 = addrAt pkt 12 ∧
      (natGetSrcDstPort (natChangeDst checkSumEnable pkt ipAddr port)).1 =
        (natGetSrcDstPort pkt).1 ∧
      byteAt (natChangeDst checkSumEnable pkt ipAddr port) 9 = byteAt pkt 9 := by
  by_cases hlen : 26 ≤ pkt.length
  · have hframe :=
      natChange_agreeOff 22 checkSumEnable ipAddr port hlen (by omega : 12 ≤ 16) hheader.proto
    have hports := natChange_ports checkSumEnable ipAddr port hheader.proto hlen
      (by omega : 12 ≤ 16) (Nat.le_refl 16) (.inr rfl)
    have hcases := natPortIndex_cases (byteAt pkt 9) 22
    refine ⟨hframe.vecAt_eq fun k hk => ?_, ?_, ?_⟩
    · rw [mem_natChanged]
      omega
    · refine (congrArg Prod.fst hports).trans ?_
      simp [hproto]
    · refine hframe.byteAt_eq 9 ?_
      rw [mem_natChanged]
      omega
  · have hsame : natChangeDst checkSumEnable pkt ipAddr port = pkt := if_pos (by omega)
    simp [hsame]

/-- The outward translation leaves a packet without ports alone. -/
theorem translateOut_short {outNetIf : NetIf} {checkSumEnable : Bool} {alloc : NatAlloc}
    {pkt' : Bytes} {snat : Option Snat} (hshort : pkt.length < 26)
    (h : (outNetIf.translateOut checkSumEnable alloc pkt ipv4 mappingFlow).2 = some (pkt', snat)) :
    pkt' = pkt := by
  have hsame : ∀ ipAddr port, natChangeSrc checkSumEnable pkt ipAddr port = pkt :=
    fun _ _ => if_pos hshort
  unfold NetIf.translateOut NatIf.snat at h
  split at h
  · simp only [Option.map_eq_some_iff, Prod.mk.injEq] at h
    obtain ⟨x, hx, rfl, -⟩ := h
    split at hx
    · cases hx
      exact hsame _ _
    split at hx
    · cases hx
      exact hsame _ _
    split at hx
    · cases hx
    · cases hx
      exact hsame _ _
  · cases h
    rfl

/-- A packet that a static mapping let in is forwarded through the interface `outName`, and its way
back is recorded. -/
structure Admits (r r' : Router) (inNetIf : String) (pkt : Bytes) (entry : NatPortMappingEntry)
    (out : List RouterOut) (outName : String) : Prop where
  nat : ∃ i, r.netIfMap inNetIf = some i ∧ i.natEnable = true
  /-- The packet is routed to the LAN host if it has ports to translate. -/
  route : 26 ≤ pkt.length → ∃ nextHop,
    r.findRoute (uToIpAddr entry.lanHostIpAddr) = .ok (outName, nextHop)
  record : ∃ outNetIf pkt' mac snat, r.netIfMap outName = some outNetIf ∧
    out = [.forwarded inNetIf outName pkt' mac (some (.mapping entry)) snat] ∧
    -- only an outward translation changes the source
    (outNetIf.natEnable = false ∨ pkt.length < 26 →
      addrAt pkt' 12 = addrAt pkt 12 ∧ (natGetSrcDstPort pkt').1 = (natGetSrcDstPort pkt).1) ∧
    r'.natPortMappingFlowTable = r.natPortMappingFlowTable.insert
      ⟨ipAddrToU (addrAt pkt' 12), (natGetSrcDstPort pkt').1, entry.lanHostIpAddr,
        entry.lanHostPort, byteAt pkt 9⟩ ⟨inNetIf, entry.wanPort, r.timeNow⟩

/-- The records of all connections are kept, and no statically mapped packet is forwarded. -/
def KeepsRecords (r r' : Router) (out : List RouterOut) : Prop :=
  (∀ key wan wanPort, r.WayBack key wan wanPort → r'.WayBack key wan wanPort) ∧
    ∀ inName outName pkt' mac entry snat,
      .forwarded inName outName pkt' mac (some (.mapping entry)) snat ∉ out

theorem WayBack.congr (h : r'.natPortMappingFlowTable = r.natPortMappingFlowTable)
    (hback : r.WayBack key wan wanPort) : r'.WayBack key wan wanPort := by
  unfold WayBack at *
  rwa [h]

variable {ipv4SrcAddr : Ipv4Addr} {entry : NatPortMappingEntry}

theorem forwardRest_keepsRecords (hdnat : ∀ entry, dnat ≠ some (.mapping entry))
    (h : r.forwardRest o inNetIf i pkt ipv4SrcAddr dnat = .ok (r', out)) :
    r.KeepsRecords r' out := by
  rcases forwardRest_cases h with ⟨hr, hnone⟩ | ⟨pkt₁, ipv4, _, _, -, -, -, -, hsend⟩
  · refine ⟨fun key wan wanPort hback => ?_, fun _ _ _ _ _ _ => hnone _ _ _ _ _ _⟩
    rcases hr with rfl | ⟨pkt₁, ipv4, rfl⟩
    · exact hback
    · exact findMappingFlow_wayBack hback i pkt₁ ipv4
  · rcases sendOut_record hsend with ⟨htable, hnone⟩ | ⟨entry, _, _, _, _, hentry, -⟩
    · exact ⟨fun _ _ _ hback => (findMappingFlow_wayBack hback i pkt₁ ipv4).congr htable, hnone⟩
    · exact absurd hentry (hdnat entry)

theorem forwardRest_mapping (hnat : i.natEnable = true) (hhook : r.ipv4PktFwdHook = none)
    (h : r.forwardRest o inNetIf i pkt ipv4SrcAddr (some (.mapping entry)) = .ok (r', out)) :
    r.KeepsRecords r' out ∨ ∃ pkt₁ outName nextHop outNetIf pkt' snat mac,
      (handleIpv4PktTtl r.checkSumEnable pkt).2 = true ∧
      pkt₁ = (handleIpv4PktTtl r.checkSumEnable pkt).1 ∧
      r.findRoute (addrAt pkt₁ 16) = .ok (outName, nextHop) ∧ r.netIfMap outName = some outNetIf ∧
      (outNetIf.translateOut r.checkSumEnable o.alloc pkt₁ (ipv4Fields pkt₁) none).2 =
        some (pkt', snat) ∧
      out = [.forwarded inNetIf outName pkt' mac (some (.mapping entry)) snat] ∧
      r'.natPortMappingFlowTable = r.natPortMappingFlowTable.insert
        ⟨ipAddrToU (addrAt pkt' 12), (natGetSrcDstPort pkt').1, entry.lanHostIpAddr,
          entry.lanHostPort, byteAt pkt₁ 9⟩ ⟨inNetIf, entry.wanPort, r.timeNow⟩ := by
  have hfind : ∀ pkt₁ ipv4, r.findMappingFlow i pkt₁ ipv4 = (r, none) := fun _ _ => if_pos hnat
  rcases forwardRest_cases h with ⟨hr, hnone⟩ | ⟨pkt₁, ipv4, outName, nextHop, halive, hpkt, hparse,
    hroute, hsend⟩
  · refine .inl ⟨fun key wan wanPort hback => ?_, fun _ _ _ _ _ _ => hnone _ _ _ _ _ _⟩
    rcases hr with rfl | ⟨pkt₁, ipv4, rfl⟩
    · exact hback
    · exact findMappingFlow_wayBack hback i pkt₁ ipv4
  rw [hfind] at hroute hsend
  obtain ⟨-, -, rfl⟩ := parseIpv4Pkt_ok_iff.mp hparse
  rw [hookPkt, hhook] at hpkt
  rcases sendOut_record hsend with ⟨htable, hnone⟩
    | ⟨entry', outNetIf, pkt', snat, mac, hentry, hout, htranslate, hforwarded, htable⟩
  · exact .inl ⟨fun _ _ _ hback => hback.congr htable, hnone⟩
  · cases hentry
    exact .inr ⟨pkt₁, outName, nextHop, outNetIf, pkt', snat, mac, halive,
      (Option.some_inj.mp hpkt).symm, routeOut_none hroute, hout, htranslate, hforwarded, htable⟩

theorem setNat_natEnable {name name' : String} {nat : NatIf} {i' : NetIf}
    (h : (r.setNat name nat).netIfMap name' = some i') :
    ∃ i, r.netIfMap name' = some i ∧ i.natEnable = i'.natEnable := by
  by_cases hne : name' = name
  · subst hne
    simp only [setNat, Function.update_self, Option.map_eq_some_iff] at h
    obtain ⟨i, hi, rfl⟩ := h
    exact ⟨i, hi, rfl⟩
  · rw [setNat_netIfMap_ne hne] at h
    exact ⟨i', h, rfl⟩

/-- The handling of a packet keeps the records, or it admits the packet. -/
theorem rxIpv4_record (hhook : r.ipv4PktFwdHook = none) (hi : r.netIfMap inNetIf = some i)
    (h : r.rxIpv4 o inNetIf i pkt = .ok (r', out)) :
    r.KeepsRecords r' out ∨ ∃ entry outName, r.Admits r' inNetIf pkt entry out outName := by
  rcases rxIpv4_cases h with ⟨rfl, hnone⟩ | ⟨ipv4, hparse, -, hforward⟩
  · exact .inl ⟨fun _ _ _ hback => hback, fun _ _ _ _ _ _ => hnone _ _ _ _ _ _⟩
  unfold ipv4RouteForward at hforward
  split at hforward
  · rename_i hnat
    split at hforward
    · cases hforward
      exact .inl ⟨fun _ _ _ hback => hback, by simp⟩
    rename_i nat pkt₀ dnat hdnat
    have hinward := (NatIf.dnat_some_iff hparse).mp hdnat
    obtain ⟨hheader, -, rfl⟩ := parseIpv4Pkt_ok_iff.mp hparse
    cases hinward with
    | mapping hmapping =>
      rename_i entry
      rcases forwardRest_mapping (r := r.setNat inNetIf i.nat) (i := i) hnat hhook hforward with
        hkeeps | ⟨pkt₁, outName, nextHop, outNetIf, pkt', snat, mac, halive, rfl, hroute, hout,
          htranslate, hforwarded, htable⟩
      · exact .inl hkeeps
      have hproto : byteAt pkt 9 ≠ iphProtoIcmp := by
        intro hicmp
        rw [NatIf.checkNatPortMappingWan, if_pos (by simp [ipv4Fields, hicmp]; decide)] at hmapping
        cases hmapping
      have hsource := natChangeDst_source r.checkSumEnable (uToIpAddr entry.lanHostIpAddr)
        entry.lanHostPort hheader hproto
      obtain ⟨haddr, hdst, hports, hbyte⟩ := handleIpv4PktTtl_fields halive
      obtain ⟨outNetIf', hout', hsame⟩ := setNat_natEnable hout
      refine .inr ⟨entry, outName, ⟨i, hi, hnat⟩, fun hlen => ⟨nextHop, ?_⟩, outNetIf', pkt',
        mac, snat, hout', hforwarded, fun hplain => ?_, ?_⟩
      · rw [hdst] at hroute
        have hhost :=
          natChange_addrAt (uToIpAddr entry.lanHostIpAddr) entry.lanHostPort r.checkSumEnable
          hlen (by omega : 12 ≤ 16) (Nat.le_refl 16) (by omega : 20 ≤ 22) hheader.proto
        exact hhost ▸ hroute
      · have hpkt' : pkt' = (handleIpv4PktTtl r.checkSumEnable (natChangeDst r.checkSumEnable pkt
            (uToIpAddr entry.lanHostIpAddr) entry.lanHostPort)).1 := by
          rcases hplain with hplain | hshort
          · rw [NetIf.translateOut, if_neg (by simp [← hsame, hplain])] at htranslate
            cases htranslate
            rfl
          · refine translateOut_short ?_ htranslate
            refine (handleIpv4PktTtl_agreeOff halive).length_eq.trans_lt ?_
            exact (congrArg List.length (if_pos hshort)).trans_lt hshort
        rw [hpkt']
        exact ⟨haddr.trans hsource.1, (congrArg Prod.fst hports).trans hsource.2.1⟩
      · rw [hbyte, hsource.2.2] at htable
        exact htable
    | _ => exact .inl (forwardRest_keepsRecords (r := r.setNat inNetIf nat) (by simp) hforward)
  · exact .inl (forwardRest_keepsRecords (by simp) hforward)

variable (key) in
/-- The records of a LAN host that the routes lead inside to: only the connection of the packet gets
a new one. -/
theorem Admits.lookup {outName : String}
    (h : r.Admits r' inNetIf pkt entry out outName) (hinside : r.Inside key.lanHostIpAddr) :
    r'.natPortMappingFlowTable.lookup key =
      if key = connection pkt entry then some ⟨inNetIf, entry.wanPort, r.timeNow⟩
      else r.natPortMappingFlowTable.lookup key := by
  obtain ⟨outNetIf, pkt', mac, snat, hout, -, hsource, hrecord⟩ := h.record
  rw [hrecord, Table.lookup_insert_eq_ite]
  by_cases hhost : key.lanHostIpAddr = entry.lanHostIpAddr
  · have hplain : outNetIf.natEnable = false ∨ pkt.length < 26 := by
      by_cases hlen : 26 ≤ pkt.length
      · obtain ⟨nextHop, hroute⟩ := h.route hlen
        exact .inl (hinside outName nextHop outNetIf (by rwa [hhost]) hout)
      · exact .inr (by omega)
    obtain ⟨haddr, hport⟩ := hsource hplain
    rw [haddr, hport, connection]
  · -- the record is that of another LAN host
    rw [if_neg, if_neg]
    · rintro rfl
      exact hhost rfl
    · rintro rfl
      exact hhost rfl

/-! ## Events -/

/-- The routes and the hook are the same. -/
def SameSetup (r r' : Router) : Prop :=
  r'.routeTable = r.routeTable ∧ r'.ipv4PktFwdHook = r.ipv4PktFwdHook

theorem SameSetup.refl (r : Router) : r.SameSetup r := ⟨rfl, rfl⟩

theorem SameSetup.trans {r'' : Router} (h : r.SameSetup r') (h' : r'.SameSetup r'') :
    r.SameSetup r'' :=
  ⟨h'.1.trans h.1, h'.2.trans h.2⟩

theorem findMappingFlow_sameSetup (r : Router) (i : NetIf) (pkt : Bytes) (ipv4 : Ipv4Pkt) :
    r.SameSetup (r.findMappingFlow i pkt ipv4).1 := by
  rw [findMappingFlow_frame]
  exact ⟨rfl, rfl⟩

theorem sendOut_sameSetup
    (h : r.sendOut o inNetIf i pkt ipv4 dnat mappingFlow outNetIfName nextHop = .ok (r', out)) :
    r.SameSetup r' := by
  unfold sendOut at h
  split at h
  · cases h
  split at h
  · cases h
    exact .refl r
  dsimp only at h
  split at h
  · cases h
    exact ⟨rfl, rfl⟩
  split at h
  · cases h
    exact ⟨rfl, rfl⟩
  cases h
  unfold recordMappingFlow
  split
  · dsimp only
    split <;> exact ⟨rfl, rfl⟩
  · exact ⟨rfl, rfl⟩

theorem forwardRest_sameSetup
    (h : r.forwardRest o inNetIf i pkt ipv4SrcAddr dnat = .ok (r', out)) : r.SameSetup r' := by
  rcases forwardRest_cases h with
    ⟨rfl | ⟨pkt₁, ipv4, rfl⟩, -⟩ | ⟨pkt₁, ipv4, _, _, -, -, -, -, hsend⟩
  · exact .refl _
  · exact findMappingFlow_sameSetup r i pkt₁ ipv4
  · exact (findMappingFlow_sameSetup r i pkt₁ ipv4).trans (sendOut_sameSetup hsend)

theorem rxIpv4_sameSetup (h : r.rxIpv4 o inNetIf i pkt = .ok (r', out)) : r.SameSetup r' := by
  rcases rxIpv4_cases h with ⟨rfl, -⟩ | ⟨ipv4, -, -, hforward⟩
  · exact .refl _
  unfold ipv4RouteForward at hforward
  split at hforward
  · split at hforward
    · cases hforward
      exact ⟨rfl, rfl⟩
    · exact forwardRest_sameSetup (r := r.setNat inNetIf _) hforward
  · exact forwardRest_sameSetup hforward

/-- The interfaces keep their kind, so the same routes lead inside. -/
theorem Inside.of_moves {host : UInt32} (hinside : r.Inside host) (hmoves : r.Moves r')
    (hroutes : r'.routeTable = r.routeTable) : r'.Inside host := by
  intro name nextHop outNetIf hroute hout
  rw [findRoute, hroutes] at hroute
  rcases hmoves name with ⟨hnone, -⟩ | ⟨i, i', hi, hi', hnat, -⟩
  · rw [hnone] at hout
    cases hout
  · rw [hi'] at hout
    cases hout
    rw [hnat]
    exact hinside name nextHop i hroute hi

/-- One round of the sweep deletes exactly the records that were idle for more than a minute. -/
theorem natPortMappingFlowClear_lookup (r : Router) (key : NatFlowHash) :
    r.natPortMappingFlowClear.natPortMappingFlowTable.lookup key =
      (r.natPortMappingFlowTable.lookup key).filter fun flow =>
        ¬ r.timeNow - flow.lastAliveTime > 60 := by
  have hsweep := Table.lookup_sweep
    (fun _ (flow : NatPortMappingFlow) => decide (r.timeNow - flow.lastAliveTime > 60))
    r.natPortMappingFlowTable key
  simp only [Table.sweep, Table.sweepList, decide_eq_true_eq] at hsweep
  rw [natPortMappingFlowClear, hsweep]
  simp only [decide_not]

/-- The round is a sweep that deletes the record of the connection. -/
def Expires (key : NatFlowHash) (r : Router) (e : RouterEvent) : Prop :=
  e = .natPortMappingFlowClear ∧ ∃ flow, r.natPortMappingFlowTable.lookup key = some flow ∧
    r.timeNow - flow.lastAliveTime > 60

/-- The round admits a packet of the connection through another mapping or interface. -/
def AdmittedElsewhere (key : NatFlowHash) (wan : String) (entry : NatPortMappingEntry) (r : Router)
    (e : RouterEvent) : Prop :=
  ∃ o wan' pkt r' out outName pkt' mac entry' snat,
    e = .rxIpv4 o wan' pkt ∧ r.step e = .ok (r', out) ∧
    .forwarded wan' outName pkt' mac (some (.mapping entry')) snat ∈ out ∧
    connection pkt entry' = key ∧ (wan', entry') ≠ (wan, entry)

/-- The round keeps the way back: the record does not expire and the connection is not admitted
elsewhere. There is still no hook, and new routes leave the LAN host on the inside. -/
structure Undisturbed (key : NatFlowHash) (wan : String) (entry : NatPortMappingEntry) (r : Router)
    (e : RouterEvent) : Prop where
  alive : ¬ Expires key r e
  only : ¬ AdmittedElsewhere key wan entry r e
  hook : ∀ hook, e = .setIpv4PktFwdHook hook → hook = none
  inside : ∀ routeTable, e = .setRouteTable routeTable →
    { r with routeTable := routeTable }.Inside entry.lanHostIpAddr

/-- The connection has its way back through the interface `wan`. -/
structure Returns (key : NatFlowHash) (wan : String) (entry : NatPortMappingEntry) (r : Router) :
    Prop where
  hook : r.ipv4PktFwdHook = none
  inside : r.Inside entry.lanHostIpAddr
  nat : ∃ i, r.netIfMap wan = some i ∧ i.natEnable = true
  back : r.WayBack key wan entry.wanPort

theorem Moves.natEnable {name : String} {b : Bool} (h : r.Moves r')
    (hr : ∃ i, r.netIfMap name = some i ∧ i.natEnable = b) :
    ∃ i, r'.netIfMap name = some i ∧ i.natEnable = b := by
  obtain ⟨i, hi, hnat⟩ := hr
  rcases h name with ⟨-, hnone⟩ | ⟨j, j', hj, hj', hsame, -⟩
  · rw [hi] at hnone
    cases hnone
  · rw [hi] at hj
    cases hj
    exact ⟨j', hj', hsame.trans hnat⟩

/-- The handling of a packet keeps the way back, unless it admits the connection elsewhere. -/
theorem Returns.rxIpv4 (h : Returns key wan entry r)
    (hhost : key.lanHostIpAddr = entry.lanHostIpAddr)
    (honly : ¬ AdmittedElsewhere key wan entry r (.rxIpv4 o inNetIf pkt))
    (hi : r.netIfMap inNetIf = some i) (hrx : r.rxIpv4 o inNetIf i pkt = .ok (r', out)) :
    r'.WayBack key wan entry.wanPort := by
  rcases rxIpv4_record h.hook hi hrx with hkeeps | ⟨entry', outName, hadmits⟩
  · exact hkeeps.1 key wan entry.wanPort h.back
  have hlookup := hadmits.lookup key (hhost ▸ h.inside)
  by_cases hkey : key = connection pkt entry'
  · -- the connection is admitted again, through the same mapping and interface
    have hsame : (inNetIf, entry') = (wan, entry) := by
      by_contra hne
      obtain ⟨_, pkt', mac, snat, -, hout, -⟩ := hadmits.record
      refine honly ⟨o, inNetIf, pkt, r', out, outName, pkt', mac, entry', snat, rfl, ?_, ?_,
        hkey.symm, hne⟩
      · simp only [Router.step, hi, hrx]
      · rw [hout]
        exact List.mem_singleton_self _
    cases hsame
    exact ⟨r.timeNow, hlookup.trans (if_pos hkey)⟩
  · obtain ⟨t, ht⟩ := h.back
    exact ⟨t, (hlookup.trans (if_neg hkey)).trans ht⟩

/-- An undisturbed round keeps the way back. -/
theorem Returns.step {e : RouterEvent} (h : Returns key wan entry r)
    (hhost : key.lanHostIpAddr = entry.lanHostIpAddr) (hround : Undisturbed key wan entry r e)
    (hstep : r.step e = .ok (r', out)) : Returns key wan entry r' := by
  have hmoves := step_moves hstep
  have hnat := hmoves.natEnable h.nat
  -- all events but three leave the routes, the hook and the records alone
  have hframe : r.SameSetup r' → r'.WayBack key wan entry.wanPort → Returns key wan entry r' :=
    fun hsetup hback => ⟨hsetup.2.trans h.hook, h.inside.of_moves hmoves hsetup.1, hnat, hback⟩
  cases e with
  | rxIpv4 o netIf ethPayload =>
    simp only [Router.step] at hstep
    split at hstep
    · cases hstep
      exact h
    · rename_i i hi
      exact hframe (rxIpv4_sameSetup hstep) (h.rxIpv4 hhost hround.only hi hstep)
  | nat netIf e =>
    have hother : ∃ map, r' = { r with netIfMap := map } := by
      cases e <;> simp only [Router.step] at hstep
      case clock =>
        cases hstep
        exact ⟨r.netIfMap, rfl⟩
      all_goals
        split at hstep
        · cases hstep
          exact ⟨r.netIfMap, rfl⟩
        · cases hstep
          exact ⟨_, rfl⟩
    obtain ⟨map, rfl⟩ := hother
    exact hframe ⟨rfl, rfl⟩ h.back
  | setRouteTable routeTable =>
    cases hstep
    exact ⟨h.hook, hround.inside routeTable rfl, hnat, h.back⟩
  | setIpv4PktFwdHook hook =>
    cases hstep
    exact ⟨hround.hook hook rfl, h.inside, hnat, h.back⟩
  | natPortMappingFlowClear =>
    cases hstep
    obtain ⟨t, ht⟩ := h.back
    refine hframe ⟨rfl, rfl⟩ ⟨t, ?_⟩
    have halive : ¬ r.timeNow - t > 60 := fun hidle => hround.alive ⟨rfl, _, ht, hidle⟩
    rw [natPortMappingFlowClear_lookup, ht]
    exact Option.filter_eq_some_iff.mpr ⟨rfl, by simpa using halive⟩
  | _ =>
    cases hstep
    exact hframe ⟨rfl, rfl⟩ h.back

/-! ## Replies -/

/-- `reply` is a packet of the LAN host from the mapped port to the remote end that `pkt` came from.
A packet of less than 26 bytes has no ports. -/
structure Answers (entry : NatPortMappingEntry) (pkt reply : Bytes) : Prop where
  host : addrAt reply 12 = uToIpAddr entry.lanHostIpAddr
  hostPort : (natGetSrcDstPort reply).1 = entry.lanHostPort
  remote : addrAt reply 16 = addrAt pkt 12
  remotePort : (natGetSrcDstPort reply).2 = (natGetSrcDstPort pkt).1
  proto : byteAt reply 9 = byteAt pkt 9
  ports : 26 ≤ reply.length

/-- A reply that is forwarded leaves through the interface of the record, with the source that the
remote end knows. -/
theorem Returns.reply {pkt₀ pkt' : Bytes} {inName outName : String}
    {mac : MacAddr} {snat : Option Snat} (h : Returns (connection pkt₀ entry) wan entry r)
    (hanswers : Answers entry pkt₀ pkt) (hlan : i.natEnable = false)
    (hrx : r.rxIpv4 o inNetIf i pkt = .ok (r', out))
    (hmem : .forwarded inName outName pkt' mac dnat snat ∈ out) :
    outName = wan ∧ ∃ wanNetIf, r.netIfMap wan = some wanNetIf ∧
      addrAt pkt' 12 = wanNetIf.nat.ipAddr ∧ (natGetSrcDstPort pkt').1 = entry.wanPort := by
  obtain ⟨ipv4₀, hparse₀, -, hforward⟩ := rxIpv4_forwarded hrx hmem
  obtain ⟨hheader₀, -, -⟩ := parseIpv4Pkt_ok_iff.mp hparse₀
  unfold ipv4RouteForward at hforward
  rw [if_neg (by simp [hlan])] at hforward
  rcases forwardRest_cases hforward with ⟨-, hnone⟩
    | ⟨pkt₁, ipv4, outNetIfName, nextHop, halive, hpkt, hparse, hroute, hsend⟩
  · exact absurd hmem (hnone _ _ _ _ _ _)
  rw [hookPkt, h.hook] at hpkt
  obtain rfl := Option.some_inj.mp hpkt
  obtain ⟨hheader, -, rfl⟩ := parseIpv4Pkt_ok_iff.mp hparse
  obtain ⟨hsrc, hdst, hports, hproto⟩ := handleIpv4PktTtl_fields halive
  have hlen := (handleIpv4PktTtl_agreeOff halive).length_eq
  set pkt₁ := (handleIpv4PktTtl r.checkSumEnable pkt).1
  -- the packet finds the record
  have hfound : (r.findMappingFlow i pkt₁ (ipv4Fields pkt₁)).2 =
      some ⟨wan, entry.wanPort, r.timeNow⟩ := by
    refine findMappingFlow_found hlan ?_
    simp only [ipv4Fields, hsrc, hdst, hports, hproto, hanswers.host, hanswers.hostPort,
      hanswers.remote, hanswers.remotePort, hanswers.proto, ipAddrToU_uToIpAddr]
    exact h.back
  rw [hfound] at hroute hsend
  obtain rfl := routeOut_found hroute
  obtain ⟨-, rfl, -, outNetIf, hout, htranslate, -⟩ := sendOut_forwarded hsend hmem
  rw [findMappingFlow_netIfMap] at hout
  obtain ⟨wanNetIf, hwan, hnat⟩ := h.nat
  obtain rfl : outNetIf = wanNetIf := Option.some_inj.mp (hout.symm.trans hwan)
  refine ⟨rfl, outNetIf, hwan, ?_⟩
  -- and the interface gives it the address and the port
  have hcheck : (r.findMappingFlow i pkt₁ (ipv4Fields pkt₁)).1.checkSumEnable =
      r.checkSumEnable := by
    rw [findMappingFlow_frame]
  rw [NetIf.translateOut, if_pos hnat, hcheck] at htranslate
  cases htranslate
  have hlen₁ : 26 ≤ pkt₁.length := hlen ▸ hanswers.ports
  constructor
  · exact natChange_addrAt _ _ _ hlen₁ (Nat.le_refl 12) (by omega) (Nat.le_refl 20) hheader.proto
  · exact congrArg Prod.fst (natChange_ports r.checkSumEnable outNetIf.nat.ipAddr entry.wanPort
      hheader.proto hlen₁ (Nat.le_refl 12) (by omega) (.inl rfl))

/-- Replies of a statically mapped connection leave where it came in. A packet with ports comes in
on the interface `wan`, is let in by the mapping `entry` and is forwarded to an interface without
NAT. Whatever happens afterwards, until its record expires or the connection is admitted through
another mapping or interface, a packet of the LAN host from the mapped port to the remote end leaves
through `wan` if it is forwarded, with the address of `wan` and the mapped port of `wan` as its
source. -/
theorem mapping_reply_leaves_where_it_came_in {r₀ r₁ r₂ r₃ : Router} {o o' : FwdOracle}
    {wan lan lan' outName inName : String} {lanNetIf lanNetIf' : NetIf}
    {entry : NatPortMappingEntry} {pkt pkt' reply reply' : Bytes} {mac mac' : MacAddr}
    {snat snat' : Option Snat} {dnat : Option Dnat} {out out' : List RouterOut}
    {es : List RouterEvent} (hhook : r₀.ipv4PktFwdHook = none) (hports : 26 ≤ pkt.length)
    (hlan : r₀.netIfMap lan = some lanNetIf) (hplain : lanNetIf.natEnable = false)
    (hstep : r₀.step (.rxIpv4 o wan pkt) = .ok (r₁, out))
    (hmem : .forwarded wan lan pkt' mac (some (.mapping entry)) snat ∈ out)
    (hrun : RunsIn Router.step (fun _ => True) r₁ es r₂)
    (hrounds : EachRound Router.step (Undisturbed (connection pkt entry) wan entry) r₁ es)
    (hlan' : r₂.netIfMap lan' = some lanNetIf') (hplain' : lanNetIf'.natEnable = false)
    (hanswers : Answers entry pkt reply)
    (hstep' : r₂.step (.rxIpv4 o' lan' reply) = .ok (r₃, out'))
    (hmem' : .forwarded inName outName reply' mac' dnat snat' ∈ out') :
    outName = wan ∧ ∃ wanNetIf, r₂.netIfMap wan = some wanNetIf ∧
      addrAt reply' 12 = wanNetIf.nat.ipAddr ∧ (natGetSrcDstPort reply').1 = entry.wanPort := by
  -- the packet that comes in is recorded
  have hfirst : Returns (connection pkt entry) wan entry r₁ := by
    have hmoves := step_moves hstep
    simp only [Router.step] at hstep
    split at hstep
    · cases hstep
      cases hmem
    rename_i i hi
    rcases rxIpv4_record hhook hi hstep with ⟨-, hnone⟩ | ⟨entry₁, outName₁, hadmits⟩
    · exact absurd hmem (hnone _ _ _ _ _ _)
    obtain ⟨outNetIf, pkt₁, mac₁, snat₁, hout, rfl, -⟩ := hadmits.record
    simp only [List.mem_singleton, RouterOut.forwarded.injEq, Option.some.injEq,
      Dnat.mapping.injEq] at hmem
    obtain ⟨-, rfl, -, -, rfl, -⟩ := hmem
    have hinside : r₀.Inside entry.lanHostIpAddr := by
      intro name nextHop outNetIf' hroute hout'
      obtain ⟨nextHop₁, hroute₁⟩ := hadmits.route hports
      rw [hroute₁] at hroute
      cases hroute
      rw [hlan] at hout'
      cases hout'
      exact hplain
    have hsetup := rxIpv4_sameSetup hstep
    refine ⟨hsetup.2.trans hhook, hinside.of_moves hmoves hsetup.1, hmoves.natEnable hadmits.nat,
      r₀.timeNow, ?_⟩
    exact (hadmits.lookup (connection pkt entry) hinside).trans (if_pos rfl)
  -- and the record stays until the reply
  have hlast : Returns (connection pkt entry) wan entry r₂ :=
    hrun.invariant_of_rounds hrounds hfirst fun _ _ _ _ hr hround heq => hr.step rfl hround heq
  have hrx : r₂.rxIpv4 o' lan' lanNetIf' reply = .ok (r₃, out') := by
    rw [← hstep']
    simp only [Router.step, hlan']
  exact hlast.reply hanswers hplain' hrx hmem'

/-- `ownSyn` behind the mapping. -/
def mappedSyn : Bytes :=
  [69, 0, 0, 40, 0, 7, 0, 0, 127, 6, 245, 186, 203, 0, 113, 9, 10, 0, 0, 5, 4, 210, 0, 80, 0,
    0, 0, 1, 0, 0, 0, 0, 80, 2, 4, 0, 96, 177, 0, 0]

/-- The answer of 10.0.0.5:80 to `mappedSyn`. -/
def synAck : Bytes :=
  [69, 0, 0, 40, 0, 9, 0, 0, 64, 6, 52, 185, 10, 0, 0, 5, 203, 0, 113, 9, 0, 80, 4, 210, 0, 0, 0, 1,
    0, 0, 0, 2, 80, 18, 4, 0, 96, 159, 0, 0]

/-- `synAck` behind the WAN interface. -/
def translatedAck : Bytes :=
  [69, 0, 0, 40, 0, 9, 0, 0, 63, 6, 125, 188, 192, 0, 2, 1, 203, 0, 113, 9, 31, 144, 4, 210, 0,
    0, 0, 1, 0, 0, 0, 2, 80, 18, 4, 0, 137, 98, 0, 0]

/-- A connection to the mapped port, a gateway for the WAN interface, and the answer, for which
there is no route. -/
theorem mapping_reply_leaves_where_it_came_in_syn :
    ∃ r₁ r₂ r₃ out, mappingRouter.step (.rxIpv4 exampleOracle "wan" ownSyn) = .ok (r₁, out) ∧
      r₁.step (.setGateway "wan" #v[192, 0, 2, 254]) = .ok (r₂, []) ∧
      r₂.step (.rxIpv4 exampleOracle "lan" synAck) = .ok (r₃, [.forwarded "lan" "wan" translatedAck
        #v[2, 0, 0, 0, 0, 9] none (some (.mappingFlow ⟨"wan", 8080, 0⟩))]) ∧
      ∃ wanNetIf, r₂.netIfMap "wan" = some wanNetIf ∧
        addrAt translatedAck 12 = wanNetIf.nat.ipAddr ∧
          (natGetSrcDstPort translatedAck).1 = 8080 := by
  have hrun : outputs Router.step mappingRouter [.rxIpv4 exampleOracle "wan" ownSyn,
      .setGateway "wan" #v[192, 0, 2, 254], .rxIpv4 exampleOracle "lan" synAck] =
      .ok [[.forwarded "wan" "lan" mappedSyn #v[2, 0, 0, 0, 0, 9]
        (some (.mapping ⟨8080, 167772165, 80, 6⟩)) none], [], [.forwarded "lan" "wan" translatedAck
        #v[2, 0, 0, 0, 0, 9] none (some (.mappingFlow ⟨"wan", 8080, 0⟩))]] := by
    decide +kernel
  obtain ⟨r₁, out₁, outs₁, hstep₁, hrun₁, heq₁⟩ := outputs_cons_ok hrun
  cases heq₁
  obtain ⟨r₂, out₂, outs₂, hstep₂, hrun₂, heq₂⟩ := outputs_cons_ok hrun₁
  cases heq₂
  obtain ⟨r₃, out₃, outs₃, hstep₃, -, heq₃⟩ := outputs_cons_ok hrun₂
  cases heq₃
  have hround : Undisturbed (connection ownSyn ⟨8080, 167772165, 80, 6⟩) "wan"
    ⟨8080, 167772165, 80, 6⟩
      r₁ (.setGateway "wan" #v[192, 0, 2, 254]) := by
    constructor
    · rintro ⟨⟨⟩, -⟩
    · rintro ⟨_, _, _, _, _, _, _, _, _, _, ⟨⟩, -⟩
    · rintro _ ⟨⟩
    · rintro _ ⟨⟩
  have hlan : ∃ i, mappingRouter.netIfMap "lan" = some i ∧ i.natEnable = false := ⟨_, rfl, rfl⟩
  obtain ⟨i, hi, hplain⟩ := hlan
  obtain ⟨i₂, hi₂, hplain₂⟩ := (step_moves hstep₂).natEnable ((step_moves hstep₁).natEnable
    ⟨i, hi, hplain⟩)
  have hbetween : RunsIn Router.step (fun _ => True) r₁ [.setGateway "wan" #v[192, 0, 2, 254]] r₂ :=
    ⟨trivial, r₂, [], hstep₂, trivial, rfl⟩
  have hrounds : EachRound Router.step
    (Undisturbed (connection ownSyn ⟨8080, 167772165, 80, 6⟩) "wan"
      ⟨8080, 167772165, 80, 6⟩) r₁ [.setGateway "wan" #v[192, 0, 2, 254]] :=
    ⟨hround, fun _ _ _ => trivial⟩
  have hanswers : Answers ⟨8080, 167772165, 80, 6⟩ ownSyn synAck :=
    ⟨by decide, by decide, by decide, by decide, by decide, by decide⟩
  refine ⟨r₁, r₂, r₃, _, hstep₁, hstep₂, hstep₃, ?_⟩
  exact (mapping_reply_leaves_where_it_came_in rfl (by decide) hi hplain hstep₁
    (List.mem_singleton_self _)
    hbetween hrounds hi₂ hplain₂ hanswers hstep₃ (List.mem_singleton_self _)).2

end Router

end Halo
