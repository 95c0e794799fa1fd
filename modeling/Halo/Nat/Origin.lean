import Halo.Nat.Consistent

/-!
# Where flow records come from and how long they last

* `step_origin`: a record after an event was there before, with another time at most, or it is new.
  A new one has a LAN key that was not there and a port that no local service and no static mapping
  has.
* `Has.step`: a record lasts as long as its LAN key.
* `NatEvent.Traffic`: the events that packets cause. They remove no flow and leave the configuration
  alone (`step_traffic_key`, `step_traffic_config`).
* `RepliesPass s k`: replies to the flow with the LAN key `k` get to its record. It holds from a
  moment without such a flow on, while the local services stay the same (`RepliesPass.step`).
-/

namespace Halo

/-- The events that packets cause. -/
def NatEvent.Traffic : NatEvent → Prop
  | .addFlow .. | .getFlowByHash .. | .getFlowByWan .. => True
  | _ => False

/-- The records differ in their times only. -/
def NatFlow.Same (f g : NatFlow) : Prop := g = { f with lastAliveTime := g.lastAliveTime }

namespace NatFlow.Same

variable {f g h : NatFlow}

theorem refl (f : NatFlow) : f.Same f := rfl

theorem setTime (f : NatFlow) (t : UInt32) : f.Same { f with lastAliveTime := t } := rfl

theorem trans (hfg : f.Same g) (hgh : g.Same h) : f.Same h := by
  unfold NatFlow.Same at *
  rw [hgh, hfg]

theorem lanKey_eq (h : f.Same g) : g.lanKey = f.lanKey := by
  rw [show g = _ from h]
  rfl

theorem wanKey_eq (h : f.Same g) : g.wanKey = f.wanKey := by
  rw [show g = _ from h]
  rfl

end NatFlow.Same

namespace NatIf

variable {s s' : NatIf}

/-! ## The configuration -/

/-- What the events of traffic leave alone. -/
def config (s : NatIf) :
    Int × Ipv4Addr × List NatPortMappingEntry × Finset UInt16 × Finset UInt16 :=
  (s.natType, s.ipAddr, s.natPortMappingTable, s.tcpServiceMap, s.udpServiceMap)

theorem refresh_config (s : NatIf) (p : FlowPtr) : (s.refresh p).1.config = s.config := by
  unfold refresh
  split <;> rfl

theorem dropEmptyPorts_config (s : NatIf) (r : UInt32) :
    (s.dropEmptyPorts r).config = s.config := by
  unfold dropEmptyPorts
  split
  · rfl
  · split <;> rfl

theorem createFlow_config (s : NatIf) (alloc : NatAlloc) (key : NatFlowHash)
    (ports : Finset UInt16) : (s.createFlow alloc key ports).1.config = s.config := by
  unfold createFlow
  split
  · rfl
  split
  · rfl
  dsimp only
  split
  · rfl
  split
  · rfl
  split <;> rfl

theorem natAddFlow_config (s : NatIf) (alloc : NatAlloc) (lanHostIpAddr remoteIpAddr : Ipv4Addr)
    (lanHostPort remotePort : UInt16) (ipv4HeadProto : UInt8) :
    (s.natAddFlow alloc lanHostIpAddr remoteIpAddr lanHostPort remotePort ipv4HeadProto).1.config =
      s.config := by
  unfold natAddFlow
  split
  · rfl
  dsimp only
  split
  · exact refresh_config s _
  split
  · exact createFlow_config s _ _ _
  split
  · rfl
  · exact (dropEmptyPorts_config _ _).trans (createFlow_config _ _ _ _)

variable {e : NatEvent} {ipv4HeadProto : UInt8} {w : UInt16} {ports : Finset UInt16}
  {key k : NatFlowHash} {f g : NatFlow} {p : FlowPtr}

theorem step_traffic_config (s : NatIf) (he : e.Traffic) : (s.step e).1.config = s.config := by
  cases e with
  | addFlow alloc lan remote lanPort remotePort proto =>
    exact natAddFlow_config s alloc lan remote lanPort remotePort proto
  | getFlowByHash remote remotePort lan lanPort proto =>
    change (s.natGetFlowByHash remote remotePort lan lanPort proto).1.config = s.config
    unfold natGetFlowByHash
    split
    · rfl
    · exact refresh_config s _
  | getFlowByWan remote remotePort wan wanPort proto =>
    change (s.natGetFlowByWan remote remotePort wan wanPort proto).1.config = s.config
    unfold natGetFlowByWan
    split
    · rfl
    · exact refresh_config s _
  | _ => cases he

/-! ## Ports whose packets get to the flows -/

/-- No local service and no static mapping takes the packets for the port `w`. -/
structure PortFree (s : NatIf) (ipv4HeadProto : UInt8) (w : UInt16) : Prop where
  ne_zero : w ≠ 0
  tcp : ipv4HeadProto = iphProtoTcp → w ∉ s.tcpServiceMap
  udp : ipv4HeadProto = iphProtoUdp → w ∉ s.udpServiceMap
  mapping : s.checkNatPortMappingWan w ipv4HeadProto = none

theorem PortFree.congr (h : s.PortFree ipv4HeadProto w)
    (htcp : s'.tcpServiceMap = s.tcpServiceMap) (hudp : s'.udpServiceMap = s.udpServiceMap)
    (hmapping : s'.natPortMappingTable = s.natPortMappingTable) : s'.PortFree ipv4HeadProto w where
  ne_zero := h.ne_zero
  tcp := by
    rw [htcp]
    exact h.tcp
  udp := by
    rw [hudp]
    exact h.udp
  mapping := by
    have := h.mapping
    unfold checkNatPortMappingWan at this ⊢
    rwa [hmapping]

theorem searchPort_ne_zero {fuel : Nat}
    {start : UInt16} (h : s.searchPort ports ipv4HeadProto fuel start = some w) : w ≠ 0 := by
  induction fuel generalizing start with
  | zero => cases h
  | succ fuel ih =>
    unfold searchPort at h
    dsimp only at h
    split at h
    · cases h
    rename_i hne
    split at h
    · exact ih h
    · cases h
      exact hne

/-- A port that the search finds is free. -/
theorem choosePort_free (h : s.choosePort ports ipv4HeadProto = some w) :
    s.PortFree ipv4HeadProto w := by
  have htaken := searchPort_spec h
  simp only [portTaken, Bool.or_eq_false_iff, Bool.and_eq_false_imp, decide_eq_true_eq,
    decide_eq_false_iff_not] at htaken
  obtain ⟨⟨⟨-, htcp⟩, hudp⟩, hmapping⟩ := htaken
  exact ⟨searchPort_ne_zero h, htcp, hudp, Option.not_isSome_iff_eq_none.mp (by simp [hmapping])⟩

/-! ## The records after an event -/

/-- What `natAddFlow` does with the LAN key `key`. -/
inductive Added (s : NatIf) (key : NatFlowHash) : NatIf × Option NatFlow → Prop
  | found {p : FlowPtr} (hkey : s.natFlowTable.lookup key = some p) : Added s key (s.refresh p)
  | refused {s' : NatIf} (hflows : ∀ q, s'.flows.lookup q = s.flows.lookup q)
      (hlan : ∀ k, s'.natFlowTable.lookup k = s.natFlowTable.lookup k) : Added s key (s', none)
  | created {s' : NatIf} (p : FlowPtr) (w : UInt16) (hkey : s.natFlowTable.lookup key = none)
      (hport : key.lanHostPort ≠ 0) (hfree : s.PortFree key.ipv4HeadProto w)
      (hflows : ∀ q, s'.flows.lookup q =
        if q = p then some (s.newFlow key w) else s.flows.lookup q)
      (hlan : ∀ k, s'.natFlowTable.lookup k =
        if k = key then some p else s.natFlowTable.lookup k) :
      Added s key (s', some (s.newFlow key w))

/-- A flow that is created has the port that the search found. -/
theorem createFlow_port {alloc : NatAlloc} (h : (s.createFlow alloc key ports).2 = some f) :
    s.PortFree key.ipv4HeadProto f.wanPort := by
  unfold createFlow at h
  split at h
  · cases h
  rename_i w hchoose
  have hfree := choosePort_free hchoose
  split at h
  · cases h
  dsimp only at h
  split at h
  · cases h
  split at h
  · cases h
  split at h
  · cases h
  · cases h
    exact hfree

theorem createFlow_added (alloc : NatAlloc)
    (hr : s.natPortAlloc.lookup key.remoteIpAddr = some ports)
    (hkey : s.natFlowTable.lookup key = none) (hport : key.lanHostPort ≠ 0) :
    Added s key (s.createFlow alloc key ports) := by
  have hcreated := createFlow_created alloc hr hkey
  have hfree : ∀ f, (s.createFlow alloc key ports).2 = some f →
      s.PortFree key.ipv4HeadProto f.wanPort := fun _ h => createFlow_port h
  generalize s.createFlow alloc key ports = res at hcreated hfree
  cases hcreated with
  | failed hsame => exact .refused hsame.flows hsame.lan
  | done p w hins hp hports hw =>
    exact .created p w hkey hport (hfree _ rfl) hins.flows hins.lan

/-- The port sets are not part of what `Added` says. -/
theorem Added.of_ports {r : UInt32} {res : NatIf × Option NatFlow}
    (h : Added (s.setPorts r ports) key res) (hkey : s.natFlowTable.lookup key = none) :
    Added s key (res.1.dropEmptyPorts r, res.2) := by
  cases h with
  | found hfound => exact absurd (hkey.symm.trans hfound) (by simp)
  | refused hflows hlan =>
    refine .refused (fun q => ?_) (fun k => ?_)
    · rw [dropEmptyPorts_flows]
      exact hflows q
    · rw [dropEmptyPorts_natFlowTable]
      exact hlan k
  | created p w _ hport hfree hflows hlan =>
    refine .created p w hkey hport ⟨hfree.ne_zero, hfree.tcp, hfree.udp, hfree.mapping⟩
      (fun q => ?_) (fun k => ?_)
    · rw [dropEmptyPorts_flows]
      exact hflows q
    · rw [dropEmptyPorts_natFlowTable]
      exact hlan k

theorem natAddFlow_added (s : NatIf) (alloc : NatAlloc) (lanHostIpAddr remoteIpAddr : Ipv4Addr)
    (lanHostPort remotePort : UInt16) (ipv4HeadProto : UInt8) :
    Added s (s.flowHash remoteIpAddr remotePort lanHostIpAddr lanHostPort ipv4HeadProto)
      (s.natAddFlow alloc lanHostIpAddr remoteIpAddr lanHostPort remotePort ipv4HeadProto) := by
  unfold natAddFlow
  split
  · exact .refused (fun _ => rfl) (fun _ => rfl)
  rename_i hport
  have hlanPort : lanHostPort ≠ 0 := fun h => hport (.inl h)
  dsimp only
  split
  · rename_i p hkey
    exact .found hkey
  rename_i hkey
  split
  · rename_i ports hr
    exact createFlow_added alloc hr hkey hlanPort
  split
  · exact .refused (fun _ => rfl) (fun _ => rfl)
  · exact (createFlow_added (s := s.setPorts _ ∅) alloc (AList.lookup_insert s.natPortAlloc) hkey
      hlanPort).of_ports hkey

/-- A record after a refresh. -/
theorem refresh_has {q : FlowPtr} (h : (s.refresh p).1.Has q g) : ∃ f, s.Has q f ∧ f.Same g := by
  cases hf : s.flows.lookup p with
  | none =>
    have heq : s.refresh p = (s, none) := by simp only [NatIf.refresh, hf]
    rw [heq] at h
    exact ⟨g, h, .refl g⟩
  | some f =>
    rw [refresh_of_has hf, Has, Table.lookup_insert_eq_ite] at h
    split at h
    · rename_i hq
      cases h
      exact ⟨f, hq ▸ hf, .setTime f _⟩
    · exact ⟨g, h, .refl g⟩

theorem refresh_natFlowTable (s : NatIf) (p : FlowPtr) :
    (s.refresh p).1.natFlowTable = s.natFlowTable := by
  unfold refresh
  split <;> rfl

/-- What holds of a record that an event creates. -/
structure Fresh (s : NatIf) (f : NatFlow) : Prop where
  key : s.natFlowTable.lookup f.lanKey = none
  port : f.lanHostPort ≠ 0
  free : s.PortFree f.ipv4HeadProto f.wanPort

theorem Added.origin {res : NatIf × Option NatFlow} (h : Added s key res) (hg : res.1.Has p g) :
    (∃ f, s.Has p f ∧ f.Same g) ∨ s.Fresh g := by
  cases h with
  | found => exact .inl (refresh_has hg)
  | refused hflows => exact .inl ⟨g, (hflows p).symm.trans hg, .refl g⟩
  | created q w hkey hport hfree hflows hlan =>
    rw [Has, hflows] at hg
    split at hg
    · cases hg
      exact .inr ⟨hkey, hport, hfree⟩
    · exact .inl ⟨g, hg, .refl g⟩

/-- The sweep creates no record. -/
theorem clearEntry_has {e : Σ _ : NatFlowHash, FlowPtr} (h : (s.clearEntry e).Has p f) :
    s.Has p f := by
  unfold clearEntry at h
  split at h
  · exact h
  split at h
  · -- the removal erases one record
    have herase : ∀ t : NatIf, t.flows = s.flows →
        Has { t with flows := t.flows.erase e.2 } p f → s.Has p f := by
      intro t ht hhas
      rw [Has, Table.lookup_erase_eq_ite, ht] at hhas
      split at hhas
      · cases hhas
      · exact hhas
    refine herase _ ?_ h
    split
    · rfl
    · exact dropEmptyPorts_flows _ _
  · exact h

theorem clearEntries_has {es : List (Σ _ : NatFlowHash, FlowPtr)}
    (h : (es.foldl clearEntry s).Has p f) : s.Has p f := by
  induction es generalizing s with
  | nil => exact h
  | cons e es ih => exact clearEntry_has (ih h)

/-- A record after an event was there before, or it is fresh. -/
theorem step_origin (e : NatEvent) (h : (s.step e).1.Has p g) :
    (∃ f, s.Has p f ∧ f.Same g) ∨ s.Fresh g := by
  cases e with
  | addFlow alloc lan remote lanPort remotePort proto =>
    exact (natAddFlow_added s alloc lan remote lanPort remotePort proto).origin h
  | getFlowByHash remote remotePort lan lanPort proto =>
    change (s.natGetFlowByHash remote remotePort lan lanPort proto).1.Has p g at h
    unfold natGetFlowByHash at h
    split at h
    · exact .inl ⟨g, h, .refl g⟩
    · exact .inl (refresh_has h)
  | getFlowByWan remote remotePort wan wanPort proto =>
    change (s.natGetFlowByWan remote remotePort wan wanPort proto).1.Has p g at h
    unfold natGetFlowByWan at h
    split at h
    · exact .inl ⟨g, h, .refl g⟩
    · exact .inl (refresh_has h)
  | sweep => exact .inl ⟨g, clearEntries_has h, .refl g⟩
  | reorder table =>
    refine .inl ⟨g, ?_, .refl g⟩
    unfold NatIf.step at h
    dsimp only at h
    split at h <;> exact h
  | _ => exact .inl ⟨g, h, .refl g⟩

/-! ## How long a record lasts -/

theorem step_traffic_key (he : e.Traffic)
    (hk : (s.natFlowTable.lookup k).isSome) : ((s.step e).1.natFlowTable.lookup k).isSome := by
  cases e with
  | addFlow alloc lan remote lanPort remotePort proto =>
    have hadded := natAddFlow_added s alloc lan remote lanPort remotePort proto
    change ((s.natAddFlow alloc lan remote lanPort remotePort proto).1.natFlowTable.lookup k).isSome
    generalize s.natAddFlow alloc lan remote lanPort remotePort proto = res at hadded
    cases hadded with
    | found => rwa [refresh_natFlowTable]
    | refused _ hlan => rwa [hlan]
    | created p w _ _ _ _ hlan =>
      rw [hlan]
      split
      · rfl
      · exact hk
  | getFlowByHash remote remotePort lan lanPort proto =>
    change ((s.natGetFlowByHash remote remotePort lan lanPort proto).1.natFlowTable.lookup k).isSome
    unfold natGetFlowByHash
    split
    · exact hk
    · rwa [refresh_natFlowTable]
  | getFlowByWan remote remotePort wan wanPort proto =>
    change ((s.natGetFlowByWan remote remotePort wan wanPort proto).1.natFlowTable.lookup k).isSome
    unfold natGetFlowByWan
    split
    · exact hk
    · rwa [refresh_natFlowTable]
  | _ => cases he

/-- A record whose LAN key is still there after an event is still there itself. -/
theorem Has.step (hf : s.Has p f) (hs : s.Consistent) (e : NatEvent)
    (hkey : ((s.step e).1.natFlowTable.lookup f.lanKey).isSome) :
    ∃ g, (s.step e).1.Has p g ∧ f.Same g := by
  obtain ⟨q, hq⟩ := Option.isSome_iff_exists.mp hkey
  obtain ⟨g, hg, hgkey⟩ := ((hs.step e).lan_iff _ _).mp hq
  rcases step_origin e hg with ⟨f', hf', hsame⟩ | hfresh
  · have hkeys : f'.lanKey = f.lanKey := hsame.lanKey_eq.symm.trans hgkey
    obtain rfl := hs.lanKey_inj hf hf' hkeys
    obtain rfl := hf.unique hf'
    exact ⟨g, hg, hsame⟩
  · -- the key was there already
    have hold := (hs.lan_iff f.lanKey p).mpr ⟨f, hf, rfl⟩
    rw [← hgkey, hfresh.key] at hold
    cases hold

/-! ## Replies -/

theorem clearEntry_config (s : NatIf) (e : Σ _ : NatFlowHash, FlowPtr) :
    (s.clearEntry e).config = s.config := by
  unfold clearEntry
  split
  · rfl
  split
  · unfold NatIf.removeFlow
    dsimp only
    split
    · rfl
    · exact dropEmptyPorts_config _ _
  · rfl

theorem clearEntries_config (s : NatIf) (es : List (Σ _ : NatFlowHash, FlowPtr)) :
    (es.foldl clearEntry s).config = s.config := by
  induction es generalizing s with
  | nil => rfl
  | cons e es ih => exact (ih (s.clearEntry e)).trans (clearEntry_config s e)

/-- No event changes the static mappings or the type of the NAT. -/
theorem step_fixed (s : NatIf) (e : NatEvent) : (s.step e).1.natType = s.natType ∧
    (s.step e).1.natPortMappingTable = s.natPortMappingTable := by
  have hconfig : ∀ s' : NatIf, s'.config = s.config →
      s'.natType = s.natType ∧ s'.natPortMappingTable = s.natPortMappingTable := by
    intro s' h
    exact ⟨congrArg (·.1) h, congrArg (·.2.2.1) h⟩
  cases e with
  | setIpAddr => exact ⟨rfl, rfl⟩
  | sweep => exact hconfig _ (clearEntries_config s _)
  | clock => exact ⟨rfl, rfl⟩
  | setServices => exact ⟨rfl, rfl⟩
  | reorder table =>
    unfold NatIf.step
    dsimp only
    split <;> exact ⟨rfl, rfl⟩
  | _ => exact hconfig _ (step_traffic_config s trivial)

/-- The local services are the same. -/
def SameServices (s s' : NatIf) : Prop :=
  s'.tcpServiceMap = s.tcpServiceMap ∧ s'.udpServiceMap = s.udpServiceMap

/-- Replies to a flow with the LAN key `k` get to its record. -/
def RepliesPass (s : NatIf) (k : NatFlowHash) : Prop :=
  ∀ p f, s.Has p f → f.lanKey = k → f.lanHostPort ≠ 0 ∧ s.PortFree f.ipv4HeadProto f.wanPort

/-- Without a flow there is nothing to reply to. -/
theorem repliesPass_of_absent (hs : s.Consistent) (hk : s.natFlowTable.lookup k = none) :
    s.RepliesPass k := by
  rintro p f hf rfl
  rw [(hs.lan_iff f.lanKey p).mpr ⟨f, hf, rfl⟩] at hk
  cases hk

theorem RepliesPass.step (h : s.RepliesPass k) (e : NatEvent)
    (hservices : SameServices s (s.step e).1) : (s.step e).1.RepliesPass k := by
  intro p g hg hgkey
  have hmapping := (step_fixed s e).2
  rcases step_origin e hg with ⟨f, hf, hsame⟩ | hfresh
  · obtain ⟨hport, hfree⟩ := h p f hf (hsame.lanKey_eq.symm.trans hgkey)
    rw [show g = _ from hsame]
    exact ⟨hport, hfree.congr hservices.1 hservices.2 hmapping⟩
  · exact ⟨hfresh.port, hfresh.free.congr hservices.1 hservices.2 hmapping⟩

theorem step_traffic_services (s : NatIf) (he : e.Traffic) : SameServices s (s.step e).1 := by
  have hconfig := step_traffic_config s he
  exact ⟨congrArg (·.2.2.2.1) hconfig, congrArg (·.2.2.2.2) hconfig⟩

/-! ## Events of a whole router -/

/-- How an event of a router changes the tables of one of its interfaces. -/
inductive Moves (s s' : NatIf) : Prop
  | traffic (es : List NatEvent) (hes : ∀ e ∈ es, e.Traffic) (heq : s' = run NatIf.step s es)
  | event (e : NatEvent) (heq : s' = (s.step e).1)

namespace Moves

theorem refl (s : NatIf) : Moves s s := .traffic [] (by simp) rfl

theorem consistent (h : Moves s s') (hs : s.Consistent) : s'.Consistent := by
  cases h with
  | traffic es _ heq =>
    rw [heq]
    exact invariant_run (fun _ e ht => ht.step e) hs es
  | event e heq =>
    rw [heq]
    exact hs.step e

theorem natType_eq (h : Moves s s') : s'.natType = s.natType := by
  cases h with
  | traffic es _ heq =>
    rw [heq]
    exact invariant_run (fun t e ht => (step_fixed t e).1.trans ht) rfl es
  | event e heq =>
    rw [heq]
    exact (step_fixed s e).1

theorem repliesPass (h : Moves s s') {k : NatFlowHash} (hk : s.RepliesPass k)
    (hservices : SameServices s s') : s'.RepliesPass k := by
  cases h with
  | traffic es hes heq =>
    rw [heq]
    clear hservices heq
    induction es generalizing s with
    | nil => exact hk
    | cons e es ih =>
      have hservices := step_traffic_services s (hes e List.mem_cons_self)
      exact ih (hk.step e hservices) fun e' he' => hes e' (List.mem_cons_of_mem _ he')
  | event e heq =>
    rw [heq] at hservices ⊢
    exact hk.step e hservices

theorem has (h : Moves s s') (hs : s.Consistent) {p : FlowPtr} {f : NatFlow} (hf : s.Has p f)
    (hkey : (s'.natFlowTable.lookup f.lanKey).isSome) : ∃ g, s'.Has p g ∧ f.Same g := by
  cases h with
  | traffic es hes heq =>
    rw [heq]
    clear hkey heq
    induction es generalizing s f with
    | nil => exact ⟨f, hf, .refl f⟩
    | cons e es ih =>
      have hkey : (s.natFlowTable.lookup f.lanKey).isSome := by
        rw [(hs.lan_iff f.lanKey p).mpr ⟨f, hf, rfl⟩]
        rfl
      obtain ⟨g, hg, hsame⟩ := hf.step hs e (step_traffic_key (hes e List.mem_cons_self) hkey)
      obtain ⟨g', hg', hsame'⟩ := ih (hs.step e) hg fun e' he' =>
        hes e' (List.mem_cons_of_mem _ he')
      exact ⟨g', hg', hsame.trans hsame'⟩
  | event e heq =>
    rw [heq] at hkey ⊢
    exact hf.step hs e hkey

end Moves

end NatIf

end Halo
