import Halo.Router.Inward

/-!
# Packets between routers

A network of routers may have loops, and the tables of its routers may change while a packet is on
its way. A router takes one from the time to live of a packet that it forwards, whatever it
translates (`Hop.ttl`), so the packet stops after at most 254 hops (`hops_end`).
-/

namespace Halo

namespace Router

variable {r r' : Router} {o : FwdOracle} {name : String} {i : NetIf} {pkt pkt' : Bytes}
  {out : List RouterOut} {ipv4 : Ipv4Pkt} {checkSumEnable : Bool}

/-- The hook of the router, if it has one, leaves the time to live alone. -/
def HookKeepsTtl (r : Router) : Prop :=
  ∀ hook, r.ipv4PktFwdHook = some hook → ∀ p dir, byteAt (hook p dir).2 8 = byteAt p 8

/-- A router receives a packet and forwards it. -/
def Hop (pkt pkt' : Bytes) : Prop :=
  ∃ (r r' : Router) (o : FwdOracle) (inNetIf outNetIf : String) (out : List RouterOut)
    (mac : MacAddr) (dnat : Option Dnat) (snat : Option Snat), r.HookKeepsTtl ∧
    r.step (.rxIpv4 o inNetIf pkt) = .ok (r', out) ∧
      .forwarded inNetIf outNetIf pkt' mac dnat snat ∈ out

theorem translateOut_ttl {outNetIf : NetIf} {alloc : NatAlloc}
    {mappingFlow : Option NatPortMappingFlow} {snat : Option Snat}
    (h : (outNetIf.translateOut checkSumEnable alloc pkt ipv4 mappingFlow).2 = some (pkt', snat)) :
    byteAt pkt' 8 = byteAt pkt 8 := by
  have hsrc ip port : byteAt (natChangeSrc checkSumEnable pkt ip port) 8 = byteAt pkt 8 :=
    (natChange_agreeOff_front _ _ _ (by omega) (by omega)).byteAt_eq 8 (by rw [Set.mem_Ici]; omega)
  unfold NetIf.translateOut NatIf.snat at h
  split at h
  · obtain ⟨x, hx, h⟩ := Option.map_eq_some_iff.mp h
    cases h
    repeat' split at hx
    all_goals first
      | cases hx; exact hsrc _ _
      | cases hx
  · cases h
    rfl

theorem forwardRest_ttl {srcAddr : Ipv4Addr} {dnat dnat' : Option Dnat} {inName outName : String}
    {mac : MacAddr} {snat : Option Snat} (hhook : r.HookKeepsTtl)
    (h : r.forwardRest o name i pkt srcAddr dnat = .ok (r', out))
    (hmem : .forwarded inName outName pkt' mac dnat' snat ∈ out) :
    1 ≤ (byteAt pkt' 8).toNat ∧ (byteAt pkt' 8).toNat + 1 = (byteAt pkt 8).toNat := by
  obtain ⟨-, hnone⟩ | ⟨pkt₁, ipv4, outNetIfName, nextHop, halive, hhooked, -, -, hsend⟩ :=
    forwardRest_cases h
  · exact absurd hmem (hnone _ _ _ _ _ _)
  obtain ⟨-, -, -, outNetIf, -, htranslated, -⟩ := sendOut_forwarded hsend hmem
  obtain ⟨hlen, hone, hpkt⟩ := handleIpv4PktTtl_alive halive
  have hdown : byteAt (handleIpv4PktTtl r.checkSumEnable pkt).1 8 = byteAt pkt 8 - 1 := by
    rw [hpkt, (reCalcIpv4CheckSum_agreeOff _ _).byteAt_eq 8 (by decide), byteAt_set_self (by omega)]
  have hkept : byteAt pkt₁ 8 = byteAt (handleIpv4PktTtl r.checkSumEnable pkt).1 8 := by
    unfold hookPkt at hhooked
    split at hhooked
    · cases hhooked
      rfl
    · rename_i hook hsome
      generalize (if i.natEnable then 1 else 0) = dir at hhooked
      dsimp only at hhooked
      split at hhooked
      · cases hhooked
      · cases hhooked
        exact hhook hook hsome _ _
  rw [translateOut_ttl htranslated, hkept, hdown, UInt8.toNat_sub_of_le _ _ (UInt8.le_of_lt hone)]
  have hone' : 1 < (byteAt pkt 8).toNat := UInt8.lt_iff_toNat_lt.mp hone
  show 1 ≤ (byteAt pkt 8).toNat - 1 ∧ (byteAt pkt 8).toNat - 1 + 1 = (byteAt pkt 8).toNat
  omega

/-- A packet that is forwarded had a time to live over one and leaves with one less. -/
theorem Hop.ttl (h : Hop pkt pkt') :
    1 ≤ (byteAt pkt' 8).toNat ∧ (byteAt pkt' 8).toNat + 1 = (byteAt pkt 8).toNat := by
  obtain ⟨r, r', o, inNetIf, outNetIf, out, mac, dnat, snat, hhook, hstep, hmem⟩ := h
  unfold step at hstep
  dsimp only at hstep
  split at hstep
  · cases hstep
    cases hmem
  obtain ⟨ipv4, hparse, -, hforward⟩ := rxIpv4_forwarded hstep hmem
  unfold ipv4RouteForward at hforward
  split at hforward
  · split at hforward
    · cases hforward
      cases hmem
    · rename_i nat pkt₁ dnat₁ hdnat
      have hagree := ((NatIf.dnat_some_iff hparse).mp hdnat).agreeOff hparse
      rw [← hagree.byteAt_eq 8 (by rw [Set.mem_Ici]; omega)]
      exact forwardRest_ttl (r := r.setNat inNetIf nat) hhook hforward hmem
  · exact forwardRest_ttl hhook hforward hmem

/-- Through any routers in any states, a packet is only forwarded with a time to live above one,
which counts its hops down, so that no packet makes more than 254 hops. -/
theorem hops_end {n : Nat} {p : Nat → Bytes} (h : ∀ k < n, Hop (p k) (p (k + 1))) :
    (∀ k < n, 1 < (byteAt (p k) 8).toNat) ∧ n + (byteAt (p n) 8).toNat = (byteAt (p 0) 8).toNat ∧
      n ≤ 254 := by
  have habove : ∀ k < n, 1 < (byteAt (p k) 8).toNat := by
    intro k hk
    have := (h k hk).ttl
    omega
  have hcount : n + (byteAt (p n) 8).toNat = (byteAt (p 0) 8).toNat ∧
      (n = 0 ∨ 1 ≤ (byteAt (p n) 8).toNat) := by
    clear habove
    induction n with
    | zero => exact ⟨Nat.zero_add _, .inl rfl⟩
    | succ n ih =>
      have hlast := (h n (Nat.lt_succ_self n)).ttl
      have hbefore := ih fun k hk => h k (by omega)
      omega
  have hbyte := (byteAt (p 0) 8).toNat_lt
  exact ⟨habove, by omega, by omega⟩

/-- A query with the time to live 64 on its way out. -/
theorem hops_end_query : Hop dnsQuery translatedQuery ∧ 1 < (byteAt dnsQuery 8).toNat ∧
    1 + (byteAt translatedQuery 8).toNat = (byteAt dnsQuery 8).toNat := by
  have hsent : (exampleRouter.step (.rxIpv4 exampleOracle "lan" dnsQuery)).map Prod.snd =
      .ok [.forwarded "lan" "wan" translatedQuery #v[2, 0, 0, 0, 0, 9]
        none (some (.flow queryFlow))] := by
    decide +kernel
  cases hstep : exampleRouter.step (.rxIpv4 exampleOracle "lan" dnsQuery) with
  | error fault =>
    rw [hstep] at hsent
    cases hsent
  | ok x =>
    rw [hstep] at hsent
    have hhop : Hop dnsQuery translatedQuery :=
      ⟨exampleRouter, x.1, exampleOracle, "lan", "wan", x.2, _, none, _,
      by rintro hook ⟨⟩, hstep, by rw [Except.ok.inj hsent]; exact List.mem_singleton_self _⟩
    have hend := hops_end (n := 1) (p := fun k => if k = 0 then dnsQuery else translatedQuery) (by
      intro k hk
      obtain rfl : k = 0 := by omega
      exact hhop)
    exact ⟨hhop, hend.1 0 (by omega), hend.2.1⟩

end Router

end Halo
