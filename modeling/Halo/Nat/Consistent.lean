import Halo.Nat.Flow

/-!
# The NAT tables stay consistent

* `Consistent`: both flow tables have exactly the allocated records, each under its own key, and the
  port sets have exactly the ports of the records.
* `Agrees`: the same up to empty port sets, which there are during a call. `Agrees.insertFlow`,
  `Agrees.removeFlow`, `Agrees.setTime`: the three changes of the records keep it.
* `createFlow_created`: a creation adds one record, or it undoes what it did.
* `natIf_consistent`: it holds in every reachable state.
-/

namespace Halo

namespace NatIf

variable {s s' : NatIf}

/-- `p` is an allocated record with the contents `f`. -/
def Has (s : NatIf) (p : FlowPtr) (f : NatFlow) : Prop := s.flows.lookup p = some f

/-- The port `w` is marked as used for the remote address `r`. -/
def PortUsed (s : NatIf) (r : UInt32) (w : UInt16) : Prop :=
  ∃ ports, s.natPortAlloc.lookup r = some ports ∧ w ∈ ports

/-- The consistency of the NAT tables up to empty port sets. -/
structure Agrees (s : NatIf) : Prop where
  /-- Every record keeps its own LAN key. -/
  hash_eq : ∀ p f, s.Has p f → f.natFlowHash = f.lanKey
  /-- The LAN table has exactly the records, each under its LAN key. -/
  lan_iff : ∀ k p, s.natFlowTable.lookup k = some p ↔ ∃ f, s.Has p f ∧ f.lanKey = k
  /-- The WAN table has exactly the records, each under its WAN key. -/
  wan_iff : ∀ k p, s.natWanFlowTable.lookup k = some p ↔ ∃ f, s.Has p f ∧ f.wanKey = k
  /-- The used ports of a remote address are exactly the WAN ports of its flows. -/
  port_iff : ∀ r w, s.PortUsed r w ↔ ∃ p f, s.Has p f ∧ f.remoteIpAddr = r ∧ f.wanPort = w
  /-- A used port belongs to one flow. -/
  port_inj : ∀ p f p' f', s.Has p f → s.Has p' f' → f.remoteIpAddr = f'.remoteIpAddr →
    f.wanPort = f'.wanPort → p = p'

/-- The consistency of the NAT tables. -/
structure Consistent (s : NatIf) : Prop extends Agrees s where
  /-- There is no empty port set. -/
  ports_nonempty : ∀ r ports, s.natPortAlloc.lookup r = some ports → ports.Nonempty

/-! ## States with the same tables -/

/-- The tables have the same contents. -/
structure SameTables (s s' : NatIf) : Prop where
  flows : ∀ p, s'.flows.lookup p = s.flows.lookup p
  lan : ∀ k, s'.natFlowTable.lookup k = s.natFlowTable.lookup k
  wan : ∀ k, s'.natWanFlowTable.lookup k = s.natWanFlowTable.lookup k
  ports : ∀ r, s'.natPortAlloc.lookup r = s.natPortAlloc.lookup r

theorem SameTables.has_iff (h : SameTables s s') (p : FlowPtr) (f : NatFlow) :
    s'.Has p f ↔ s.Has p f := by
  unfold Has
  rw [h.flows]

theorem SameTables.portUsed_iff (h : SameTables s s') (r : UInt32) (w : UInt16) :
    s'.PortUsed r w ↔ s.PortUsed r w := by
  unfold PortUsed
  rw [h.ports]

theorem Agrees.congr (hs : s.Agrees) (h : SameTables s s') : s'.Agrees where
  hash_eq := by
    intro p f hf
    exact hs.hash_eq p f ((h.has_iff p f).mp hf)
  lan_iff := by
    intro k p
    simp only [h.lan, h.has_iff]
    exact hs.lan_iff k p
  wan_iff := by
    intro k p
    simp only [h.wan, h.has_iff]
    exact hs.wan_iff k p
  port_iff := by
    intro r w
    simp only [h.portUsed_iff, h.has_iff]
    exact hs.port_iff r w
  port_inj := by
    intro p f p' f' hf hf'
    exact hs.port_inj p f p' f' ((h.has_iff p f).mp hf) ((h.has_iff p' f').mp hf')

theorem Consistent.congr (hs : s.Consistent) (h : SameTables s s') : s'.Consistent where
  toAgrees := hs.toAgrees.congr h
  ports_nonempty := by
    intro r ports hr
    exact hs.ports_nonempty r ports (h.ports r ▸ hr)

/-! ## Port sets -/

theorem portUsed_setPorts (s : NatIf) (r : UInt32) (ports : Finset UInt16) (r' : UInt32)
    (w : UInt16) :
    (s.setPorts r ports).PortUsed r' w ↔ if r' = r then w ∈ ports else s.PortUsed r' w := by
  unfold PortUsed setPorts
  by_cases h : r' = r
  · subst h
    simp [AList.lookup_insert]
  · simp [AList.lookup_insert_ne h, h]

/-- Dropping an empty port set changes no used port. -/
theorem portUsed_dropEmptyPorts (s : NatIf) (r r' : UInt32) (w : UInt16) :
    (s.dropEmptyPorts r).PortUsed r' w ↔ s.PortUsed r' w := by
  unfold dropEmptyPorts
  cases hr : s.natPortAlloc.lookup r with
  | none => rfl
  | some ports =>
    dsimp only
    split
    · rename_i hcard
      have hempty : ports = ∅ := Finset.card_eq_zero.mp hcard
      unfold PortUsed
      by_cases h : r' = r
      · subst h
        simp [AList.lookup_erase, hr, hempty]
      · simp [AList.lookup_erase_ne h]
    · rfl

@[simp] theorem dropEmptyPorts_flows (s : NatIf) (r : UInt32) :
    (s.dropEmptyPorts r).flows = s.flows := by
  unfold dropEmptyPorts
  split
  · rfl
  · split <;> rfl

@[simp] theorem dropEmptyPorts_natFlowTable (s : NatIf) (r : UInt32) :
    (s.dropEmptyPorts r).natFlowTable = s.natFlowTable := by
  unfold dropEmptyPorts
  split
  · rfl
  · split <;> rfl

@[simp] theorem dropEmptyPorts_natWanFlowTable (s : NatIf) (r : UInt32) :
    (s.dropEmptyPorts r).natWanFlowTable = s.natWanFlowTable := by
  unfold dropEmptyPorts
  split
  · rfl
  · split <;> rfl

variable {r : UInt32} {p : FlowPtr} {f g : NatFlow} {ports : Finset UInt16} {key : NatFlowHash}

/-- After `dropEmptyPorts r` no port set is empty, when only that of `r` may have been. -/
theorem dropEmptyPorts_nonempty
    (h : ∀ r' ports, r' ≠ r → s.natPortAlloc.lookup r' = some ports → ports.Nonempty) :
    ∀ r' ports, (s.dropEmptyPorts r).natPortAlloc.lookup r' = some ports → ports.Nonempty := by
  intro r' ports hlook
  unfold dropEmptyPorts at hlook
  cases hr : s.natPortAlloc.lookup r with
  | none =>
    rw [hr] at hlook
    by_cases hne : r' = r
    · rw [hne, hr] at hlook
      cases hlook
    · exact h r' ports hne hlook
  | some ports' =>
    rw [hr] at hlook
    dsimp only at hlook
    split at hlook
    · by_cases hne : r' = r
      · rw [hne, AList.lookup_erase] at hlook
        cases hlook
      · exact h r' ports hne ((AList.lookup_erase_ne hne).symm.trans hlook)
    · rename_i hcard
      by_cases hne : r' = r
      · rw [hne, hr] at hlook
        cases hlook
        exact Finset.card_ne_zero.mp hcard
      · exact h r' ports hne hlook

/-! ## The changes of the records -/

/-- `s'` is `s` with the record `f` at `p`, filed under its keys and with its port marked. -/
structure Inserts (p : FlowPtr) (f : NatFlow) (s s' : NatIf) : Prop where
  flows : ∀ q, s'.flows.lookup q = if q = p then some f else s.flows.lookup q
  lan : ∀ k, s'.natFlowTable.lookup k = if k = f.lanKey then some p else s.natFlowTable.lookup k
  wan : ∀ k, s'.natWanFlowTable.lookup k =
    if k = f.wanKey then some p else s.natWanFlowTable.lookup k
  ports : ∀ r w, s'.PortUsed r w ↔ (r = f.remoteIpAddr ∧ w = f.wanPort) ∨ s.PortUsed r w

/-- `s'` is `s` without the record `f` at `p`, its entries and the mark of its port. -/
structure Removes (p : FlowPtr) (f : NatFlow) (s s' : NatIf) : Prop where
  flows : ∀ q, s'.flows.lookup q = if q = p then none else s.flows.lookup q
  lan : ∀ k, s'.natFlowTable.lookup k = if k = f.lanKey then none else s.natFlowTable.lookup k
  wan : ∀ k, s'.natWanFlowTable.lookup k = if k = f.wanKey then none else s.natWanFlowTable.lookup k
  ports : ∀ r w, s'.PortUsed r w ↔ ¬ (r = f.remoteIpAddr ∧ w = f.wanPort) ∧ s.PortUsed r w

theorem Inserts.has_iff (h : Inserts p f s s') (q : FlowPtr)
    (g : NatFlow) : s'.Has q g ↔ (q = p ∧ g = f) ∨ (q ≠ p ∧ s.Has q g) := by
  unfold Has
  rw [h.flows]
  by_cases hq : q = p
  · simp [hq, eq_comm]
  · simp [hq]

theorem Removes.has_iff (h : Removes p f s s') (q : FlowPtr) (g : NatFlow) :
    s'.Has q g ↔ q ≠ p ∧ s.Has q g := by
  unfold Has
  rw [h.flows]
  by_cases hq : q = p
  · simp [hq]
  · simp [hq]

theorem Has.unique (hf : s.Has p f) (hg : s.Has p g) : f = g :=
  Option.some_inj.mp (hf.symm.trans hg)

/-- The records of a state that agrees have different WAN keys. -/
theorem Agrees.wanKey_inj (hs : s.Agrees) {q : FlowPtr} (hf : s.Has p f)
    (hg : s.Has q g) (h : g.wanKey = f.wanKey) : q = p := by
  have hp := (hs.wan_iff f.wanKey p).mpr ⟨f, hf, rfl⟩
  have hq := (hs.wan_iff f.wanKey q).mpr ⟨g, hg, h⟩
  exact Option.some_inj.mp (hq.symm.trans hp)

theorem Agrees.lanKey_inj (hs : s.Agrees) {q : FlowPtr} (hf : s.Has p f)
    (hg : s.Has q g) (h : g.lanKey = f.lanKey) : q = p := by
  have hp := (hs.lan_iff f.lanKey p).mpr ⟨f, hf, rfl⟩
  have hq := (hs.lan_iff f.lanKey q).mpr ⟨g, hg, h⟩
  exact Option.some_inj.mp (hq.symm.trans hp)

/-- A new record with an unused LAN key and an unused port. The WAN key is then unused as well,
since it has the port. -/
theorem Agrees.insertFlow (hs : s.Agrees) (h : Inserts p f s s')
    (hp : s.flows.lookup p = none) (hhash : f.natFlowHash = f.lanKey)
    (hlan : s.natFlowTable.lookup f.lanKey = none) (hport : ¬ s.PortUsed f.remoteIpAddr f.wanPort) :
    s'.Agrees := by
  have hold : ∀ q g, s.Has q g → q ≠ p := by
    rintro q g hg rfl
    rw [Has, hp] at hg
    cases hg
  have hunused : ∀ q g, s.Has q g → ¬ (g.remoteIpAddr = f.remoteIpAddr ∧ g.wanPort = f.wanPort) :=
    fun q g hg heq => hport ((hs.port_iff _ _).mpr ⟨q, g, hg, heq⟩)
  have hlanKey : ∀ q g, s.Has q g → g.lanKey ≠ f.lanKey := by
    intro q g hg heq
    have := (hs.lan_iff f.lanKey q).mpr ⟨g, hg, heq⟩
    rw [hlan] at this
    cases this
  have hwanKey : ∀ q g, s.Has q g → g.wanKey ≠ f.wanKey := by
    intro q g hg heq
    exact hunused q g hg ⟨congrArg NatWanFlowHash.remoteIpAddr heq,
      congrArg NatWanFlowHash.wanPort heq⟩
  have hhas : ∀ q g, s'.Has q g ↔ (q = p ∧ g = f) ∨ s.Has q g := by
    intro q g
    rw [h.has_iff]
    exact or_congr_right (and_iff_right_of_imp (hold q g))
  constructor
  · intro q g hg
    rcases (hhas q g).mp hg with ⟨-, rfl⟩ | hg
    · exact hhash
    · exact hs.hash_eq q g hg
  · intro k q
    simp only [hhas, h.lan]
    split
    · rename_i hk
      subst hk
      constructor
      · rintro ⟨⟩
        exact ⟨f, .inl ⟨rfl, rfl⟩, rfl⟩
      · rintro ⟨g, ⟨rfl, -⟩ | hg, hk⟩
        · rfl
        · exact absurd hk (hlanKey q g hg)
    · rename_i hk
      rw [hs.lan_iff]
      constructor
      · rintro ⟨g, hg, hkey⟩
        exact ⟨g, .inr hg, hkey⟩
      · rintro ⟨g, ⟨-, rfl⟩ | hg, hkey⟩
        · exact absurd hkey.symm hk
        · exact ⟨g, hg, hkey⟩
  · intro k q
    simp only [hhas, h.wan]
    split
    · rename_i hk
      subst hk
      constructor
      · rintro ⟨⟩
        exact ⟨f, .inl ⟨rfl, rfl⟩, rfl⟩
      · rintro ⟨g, ⟨rfl, -⟩ | hg, hk⟩
        · rfl
        · exact absurd hk (hwanKey q g hg)
    · rename_i hk
      rw [hs.wan_iff]
      constructor
      · rintro ⟨g, hg, hkey⟩
        exact ⟨g, .inr hg, hkey⟩
      · rintro ⟨g, ⟨-, rfl⟩ | hg, hkey⟩
        · exact absurd hkey.symm hk
        · exact ⟨g, hg, hkey⟩
  · intro r w
    simp only [hhas, h.ports, hs.port_iff]
    constructor
    · rintro (⟨rfl, rfl⟩ | ⟨q, g, hg, hrw⟩)
      · exact ⟨p, f, .inl ⟨rfl, rfl⟩, rfl, rfl⟩
      · exact ⟨q, g, .inr hg, hrw⟩
    · rintro ⟨q, g, ⟨rfl, rfl⟩ | hg, hrw⟩
      · exact .inl ⟨hrw.1.symm, hrw.2.symm⟩
      · exact .inr ⟨q, g, hg, hrw⟩
  · intro q g q' g' hg hg' hr hw
    rcases (hhas q g).mp hg with ⟨rfl, rfl⟩ | hg <;>
      rcases (hhas q' g').mp hg' with ⟨rfl, rfl⟩ | hg'
    · rfl
    · exact absurd ⟨hr.symm, hw.symm⟩ (hunused q' g' hg')
    · exact absurd ⟨hr, hw⟩ (hunused q g hg)
    · exact hs.port_inj q g q' g' hg hg' hr hw

/-- The removal of a record. -/
theorem Agrees.removeFlow (hs : s.Agrees) (h : Removes p f s s') (hf : s.Has p f) : s'.Agrees := by
  constructor
  · intro q g hg
    exact hs.hash_eq q g ((h.has_iff q g).mp hg).2
  · intro k q
    simp only [h.has_iff, h.lan]
    split
    · rename_i hk
      subst hk
      constructor
      · rintro ⟨⟩
      · rintro ⟨g, ⟨hq, hg⟩, hk⟩
        exact absurd (hs.lanKey_inj hf hg hk) hq
    · rename_i hk
      rw [hs.lan_iff]
      refine exists_congr fun g => and_congr_left fun hkey => ?_
      refine (and_iff_right_of_imp ?_).symm
      rintro hg rfl
      exact hk (hkey.symm.trans (congrArg NatFlow.lanKey (hg.unique hf)))
  · intro k q
    simp only [h.has_iff, h.wan]
    split
    · rename_i hk
      subst hk
      constructor
      · rintro ⟨⟩
      · rintro ⟨g, ⟨hq, hg⟩, hk⟩
        exact absurd (hs.wanKey_inj hf hg hk) hq
    · rename_i hk
      rw [hs.wan_iff]
      refine exists_congr fun g => and_congr_left fun hkey => ?_
      refine (and_iff_right_of_imp ?_).symm
      rintro hg rfl
      exact hk (hkey.symm.trans (congrArg NatFlow.wanKey (hg.unique hf)))
  · intro r w
    simp only [h.has_iff, h.ports, hs.port_iff]
    constructor
    · rintro ⟨hne, q, g, hg, rfl, rfl⟩
      refine ⟨q, g, ⟨?_, hg⟩, rfl, rfl⟩
      rintro rfl
      cases hg.unique hf
      exact hne ⟨rfl, rfl⟩
    · rintro ⟨q, g, ⟨hq, hg⟩, rfl, rfl⟩
      exact ⟨fun heq => hq (hs.port_inj q g p f hg hf heq.1 heq.2), q, g, hg, rfl, rfl⟩
  · intro q g q' g' hg hg'
    exact hs.port_inj q g q' g' ((h.has_iff q g).mp hg).2 ((h.has_iff q' g').mp hg').2

/-! ## The operations -/

theorem refresh_of_has (hf : s.Has p f) :
    s.refresh p = ({ s with flows := s.flows.insert p { f with lastAliveTime := s.timeNow } },
      some { f with lastAliveTime := s.timeNow }) := by
  unfold refresh
  rw [show s.flows.lookup p = some f from hf]

/-- A new time in a record changes none of its keys. -/
theorem Agrees.setTime (t : UInt32) (hs : s.Agrees) (hf : s.Has p f) :
    Agrees { s with flows := s.flows.insert p { f with lastAliveTime := t } } := by
  set s' : NatIf := { s with flows := s.flows.insert p { f with lastAliveTime := t } } with hs'
  have hhas : ∀ q g, s'.Has q g ↔
      (q = p ∧ g = { f with lastAliveTime := t }) ∨ (q ≠ p ∧ s.Has q g) := by
    intro q g
    unfold Has
    by_cases hq : q = p
    · subst hq
      simp [hs', AList.lookup_insert, eq_comm]
    · simp [hs', AList.lookup_insert_ne hq, hq]
  -- what does not read the time of a record holds of the same records as before
  have hex : ∀ (P : NatFlow → Prop), (∀ g, P { g with lastAliveTime := t } ↔ P g) → ∀ q,
      (∃ g, s'.Has q g ∧ P g) ↔ ∃ g, s.Has q g ∧ P g := by
    intro P hP q
    constructor
    · rintro ⟨g, hg, hPg⟩
      rcases (hhas q g).mp hg with ⟨rfl, rfl⟩ | ⟨-, hg⟩
      · exact ⟨f, hf, (hP f).mp hPg⟩
      · exact ⟨g, hg, hPg⟩
    · rintro ⟨g, hg, hPg⟩
      by_cases hq : q = p
      · subst hq
        cases hg.unique hf
        exact ⟨_, (hhas _ _).mpr (.inl ⟨rfl, rfl⟩), (hP f).mpr hPg⟩
      · exact ⟨g, (hhas _ _).mpr (.inr ⟨hq, hg⟩), hPg⟩
  constructor
  · intro q g hg
    rcases (hhas q g).mp hg with ⟨rfl, rfl⟩ | ⟨-, hg⟩
    · exact hs.hash_eq q f hf
    · exact hs.hash_eq q g hg
  · intro k q
    exact (hs.lan_iff k q).trans (hex (·.lanKey = k) (fun _ => Iff.rfl) q).symm
  · intro k q
    exact (hs.wan_iff k q).trans (hex (·.wanKey = k) (fun _ => Iff.rfl) q).symm
  · intro r w
    refine (hs.port_iff r w).trans (exists_congr fun q => ?_)
    exact (hex (fun g => g.remoteIpAddr = r ∧ g.wanPort = w) (fun _ => Iff.rfl) q).symm
  · intro q g q' g' hg hg' hr hw
    obtain ⟨h, hh, hhr, hhw⟩ := (hex (fun x => x.remoteIpAddr = g.remoteIpAddr ∧
      x.wanPort = g.wanPort) (fun _ => Iff.rfl) q).mp ⟨g, hg, rfl, rfl⟩
    obtain ⟨h', hh', hhr', hhw'⟩ := (hex (fun x => x.remoteIpAddr = g'.remoteIpAddr ∧
      x.wanPort = g'.wanPort) (fun _ => Iff.rfl) q').mp ⟨g', hg', rfl, rfl⟩
    exact hs.port_inj q h q' h' hh hh' (by rw [hhr, hhr', hr]) (by rw [hhw, hhw', hw])

theorem Consistent.refresh (hs : s.Consistent) (p : FlowPtr) : (s.refresh p).1.Consistent := by
  cases hf : s.flows.lookup p with
  | none =>
    have : s.refresh p = (s, none) := by simp only [NatIf.refresh, hf]
    rw [this]
    exact hs
  | some f =>
    rw [refresh_of_has hf]
    exact ⟨hs.toAgrees.setTime s.timeNow hf, hs.ports_nonempty⟩

/-- The port that a search finds is not taken. -/
theorem searchPort_spec {ipv4HeadProto : UInt8} {fuel : Nat}
    {start w : UInt16} (h : s.searchPort ports ipv4HeadProto fuel start = some w) :
    s.portTaken ports ipv4HeadProto w = false := by
  induction fuel generalizing start with
  | zero => cases h
  | succ fuel ih =>
    unfold searchPort at h
    dsimp only at h
    split at h
    · cases h
    split at h
    · exact ih h
    · rename_i htaken
      cases h
      exact Bool.eq_false_iff.mpr htaken

theorem not_mem_of_not_portTaken {ipv4HeadProto : UInt8} {w : UInt16}
    (h : s.portTaken ports ipv4HeadProto w = false) : w ∉ ports := by
  intro hw
  simp [portTaken, hw] at h

theorem mallocFlow_spec {choice : Option FlowPtr} (h : s.mallocFlow choice = some p) :
    s.flows.lookup p = none := by
  unfold mallocFlow at h
  obtain ⟨-, hp⟩ := Option.filter_eq_some_iff.mp h
  exact Option.isNone_iff_eq_none.mp hp

/-- What `createFlow` does where the LAN key is new and `ports` is the port set of the remote
address: nothing, or one new record with a port that is not taken. -/
inductive Created (s : NatIf) (key : NatFlowHash) (ports : Finset UInt16) :
    NatIf × Option NatFlow → Prop
  | failed {s' : NatIf} (hsame : SameTables s s') : Created s key ports (s', none)
  | done {s' : NatIf} (p : FlowPtr) (w : UInt16)
      (hins : Inserts p (s.newFlow key w) s s') (hp : s.flows.lookup p = none)
      (hports : s'.natPortAlloc = s.natPortAlloc.insert key.remoteIpAddr (insert w ports))
      (hw : s.portTaken ports key.ipv4HeadProto w = false) :
      Created s key ports (s', some (s.newFlow key w))

theorem createFlow_created (alloc : NatAlloc)
    (hr : s.natPortAlloc.lookup key.remoteIpAddr = some ports)
    (hkey : s.natFlowTable.lookup key = none) :
    Created s key ports (s.createFlow alloc key ports) := by
  unfold createFlow
  split
  · exact .failed ⟨fun _ => rfl, fun _ => rfl, fun _ => rfl, fun _ => rfl⟩
  rename_i w hchoose
  have htaken := searchPort_spec hchoose
  have hw := not_mem_of_not_portTaken htaken
  -- the port set is the old one again after the port is given back
  have hports : ∀ r, (((s.natPortAlloc.insert key.remoteIpAddr (insert w ports)).insert
      key.remoteIpAddr ((insert w ports).erase w)).lookup r) = s.natPortAlloc.lookup r := by
    rw [Finset.erase_insert hw]
    exact Table.lookup_insert_insert hr _
  split
  · exact .failed ⟨fun _ => rfl, fun _ => rfl, fun _ => rfl, fun _ => rfl⟩
  dsimp only
  split
  · exact .failed ⟨fun _ => rfl, fun _ => rfl, fun _ => rfl, hports⟩
  rename_i p hmalloc
  have hp : s.flows.lookup p = none := mallocFlow_spec hmalloc
  split
  · exact .failed ⟨Table.lookup_erase_insert hp _, fun _ => rfl, fun _ => rfl, hports⟩
  split
  · exact .failed ⟨Table.lookup_erase_insert hp _, Table.lookup_erase_insert hkey _,
      fun _ => rfl, hports⟩
  · refine .done p w ⟨Table.lookup_insert_eq_ite _ _ _, Table.lookup_insert_eq_ite _ _ _,
      Table.lookup_insert_eq_ite _ _ _, fun r v => ?_⟩ hp rfl htaken
    refine (portUsed_setPorts s key.remoteIpAddr (insert w ports) r v).trans ?_
    by_cases h : r = key.remoteIpAddr
    · subst h
      simp [PortUsed, hr, newFlow]
    · simp [h, newFlow]

/-- A created flow keeps the tables in agreement. -/
theorem Created.agrees {res : NatIf × Option NatFlow} (h : Created s key ports res) (hs : s.Agrees)
    (hr : s.natPortAlloc.lookup key.remoteIpAddr = some ports)
    (hkey : s.natFlowTable.lookup key = none) : res.1.Agrees := by
  cases h with
  | failed hsame => exact hs.congr hsame
  | done p w hins hp _ hw =>
    refine hs.insertFlow hins hp rfl hkey ?_
    rintro ⟨ports', hr', hw'⟩
    rw [show (s.newFlow key w).remoteIpAddr = key.remoteIpAddr from rfl, hr] at hr'
    cases hr'
    exact not_mem_of_not_portTaken hw hw'

/-- Creation adds no empty port set. -/
theorem Created.nonempty_of {res : NatIf × Option NatFlow} (h : Created s key ports res)
    (hr : ∀ P, s.natPortAlloc.lookup r = some P → P.Nonempty) :
    ∀ P, res.1.natPortAlloc.lookup r = some P → P.Nonempty := by
  intro P hP
  cases h with
  | failed hsame => exact hr P (hsame.ports r ▸ hP)
  | done p w hins hp hports hw =>
    rw [hports, Table.lookup_insert_eq_ite] at hP
    split at hP
    · cases hP
      exact Finset.insert_nonempty w ports
    · exact hr P hP

/-- An empty port set for an address that has none marks no port. -/
theorem Agrees.setPorts_empty (hs : s.Agrees) (hr : s.natPortAlloc.lookup r = none) :
    (s.setPorts r ∅).Agrees where
  hash_eq := hs.hash_eq
  lan_iff := hs.lan_iff
  wan_iff := hs.wan_iff
  port_inj := hs.port_inj
  port_iff := by
    intro r' w
    rw [portUsed_setPorts]
    refine Iff.trans ?_ (hs.port_iff r' w)
    split
    · rename_i h
      subst h
      simp [PortUsed, hr]
    · rfl

theorem Agrees.dropEmptyPorts (hs : s.Agrees) (r : UInt32) : (s.dropEmptyPorts r).Agrees := by
  have hhas : ∀ p f, (s.dropEmptyPorts r).Has p f ↔ s.Has p f := by simp [Has]
  constructor
  · intro p f hf
    exact hs.hash_eq p f ((hhas p f).mp hf)
  · simpa [hhas] using hs.lan_iff
  · simpa [hhas] using hs.wan_iff
  · simpa [hhas, portUsed_dropEmptyPorts] using hs.port_iff
  · simpa only [hhas] using hs.port_inj

theorem Consistent.natAddFlow (hs : s.Consistent) (alloc : NatAlloc)
    (lanHostIpAddr remoteIpAddr : Ipv4Addr) (lanHostPort remotePort : UInt16)
    (ipv4HeadProto : UInt8) :
    (s.natAddFlow alloc lanHostIpAddr remoteIpAddr lanHostPort remotePort
      ipv4HeadProto).1.Consistent := by
  unfold NatIf.natAddFlow
  split
  · exact hs
  dsimp only
  split
  · exact hs.refresh _
  rename_i hkey
  split
  · -- the port set of the remote address exists
    rename_i ports hr
    have hcreated := createFlow_created alloc hr hkey
    exact ⟨hcreated.agrees hs.toAgrees hr hkey,
      fun r => hcreated.nonempty_of (hs.ports_nonempty r)⟩
  · rename_i hr
    split
    · exact hs
    · -- a new port set, which the deferred clean-up removes where it is empty
      have hcreated := createFlow_created (s := s.setPorts _ ∅) alloc
        (AList.lookup_insert s.natPortAlloc) hkey
      have hagrees := hcreated.agrees (hs.toAgrees.setPorts_empty hr)
        (AList.lookup_insert s.natPortAlloc) hkey
      refine ⟨hagrees.dropEmptyPorts _, dropEmptyPorts_nonempty fun r' P hne => ?_⟩
      refine hcreated.nonempty_of (fun P' hP' => hs.ports_nonempty r' P' ?_) P
      exact (AList.lookup_insert_ne hne).symm.trans hP'

/-! ## The sweep -/

theorem removeFlow_removes (hs : s.Consistent) (hf : s.Has p f) :
    Removes p f s (s.removeFlow f.lanKey p f) ∧
      ∀ r ports, (s.removeFlow f.lanKey p f).natPortAlloc.lookup r = some ports →
        ports.Nonempty := by
  obtain ⟨ports, hports, -⟩ := (hs.port_iff _ _).mpr ⟨p, f, hf, rfl, rfl⟩
  unfold NatIf.removeFlow
  dsimp only
  rw [hports]
  dsimp only
  constructor
  · constructor
    · intro q
      rw [dropEmptyPorts_flows]
      exact Table.lookup_erase_eq_ite _ _ _
    · intro k
      rw [dropEmptyPorts_natFlowTable]
      exact Table.lookup_erase_eq_ite _ _ _
    · intro k
      rw [dropEmptyPorts_natWanFlowTable]
      exact Table.lookup_erase_eq_ite _ _ _
    · intro r w
      refine (portUsed_dropEmptyPorts _ _ r w).trans ((portUsed_setPorts _ _ _ r w).trans ?_)
      by_cases h : r = f.remoteIpAddr
      · subst h
        simp [PortUsed, hports, Finset.mem_erase]
      · simp [h, PortUsed]
  · refine dropEmptyPorts_nonempty fun r' P hne hP => hs.ports_nonempty r' P ?_
    exact (AList.lookup_insert_ne hne).symm.trans hP

theorem Consistent.removeFlow (hs : s.Consistent) (hf : s.Has p f) :
    (s.removeFlow f.lanKey p f).Consistent := by
  obtain ⟨hremoves, hnonempty⟩ := removeFlow_removes hs hf
  exact ⟨hs.toAgrees.removeFlow hremoves hf, hnonempty⟩

/-- The visit of an entry of the flow table: nothing, or the removal of its idle record. -/
theorem clearEntry_cases (hs : s.Consistent) {k : NatFlowHash}
    (hk : s.natFlowTable.lookup k = some p) :
    s.clearEntry ⟨k, p⟩ = s ∨ ∃ f, s.Has p f ∧ f.lanKey = k ∧
      s.timeNow - f.lastAliveTime > 60 ∧ s.clearEntry ⟨k, p⟩ = s.removeFlow f.lanKey p f := by
  obtain ⟨f, hf, rfl⟩ := (hs.lan_iff k p).mp hk
  unfold clearEntry
  rw [show s.flows.lookup p = some f from hf]
  dsimp only
  split
  · rename_i hidle
    exact .inr ⟨f, hf, rfl, hidle, rfl⟩
  · exact .inl rfl

/-- The loop of the sweep. The entries that it has not visited yet are still in the table, since it
deletes visited ones only. -/
theorem Consistent.clearEntries (es : List (Σ _ : NatFlowHash, FlowPtr)) (hnodup : es.NodupKeys)
    (hs : s.Consistent) (hmem : ∀ k p, ⟨k, p⟩ ∈ es → s.natFlowTable.lookup k = some p) :
    (es.foldl clearEntry s).Consistent := by
  induction es generalizing s with
  | nil => exact hs
  | cons e es ih =>
    obtain ⟨k, p⟩ := e
    have hk := hmem k p List.mem_cons_self
    obtain ⟨hnotin, hrest⟩ := List.nodupKeys_cons.mp hnodup
    rw [List.foldl_cons]
    rcases clearEntry_cases hs hk with heq | ⟨f, hf, rfl, -, heq⟩
    · rw [heq]
      exact ih hrest hs fun k' p' h => hmem k' p' (List.mem_cons_of_mem _ h)
    · rw [heq]
      refine ih hrest (hs.removeFlow hf) fun k' p' h => ?_
      have hne : k' ≠ f.lanKey := by
        rintro rfl
        have hin := List.mem_keys_of_mem h
        exact hnotin hin
      rw [(removeFlow_removes hs hf).1.lan, if_neg hne]
      exact hmem k' p' (List.mem_cons_of_mem _ h)

theorem Consistent.natTableClear (hs : s.Consistent) : s.natTableClear.Consistent :=
  hs.clearEntries _ s.natFlowTable.nodupKeys fun _ _ h => AList.mem_lookup_iff.mpr h

/-! ## Runs -/

theorem Consistent.step (hs : s.Consistent) (e : NatEvent) : (s.step e).1.Consistent := by
  have hsame : ∀ s' : NatIf, SameTables s s' → s'.Consistent := fun _ h => hs.congr h
  cases e with
  | addFlow alloc lan remote lanPort remotePort proto =>
    exact hs.natAddFlow alloc lan remote lanPort remotePort proto
  | getFlowByHash remote remotePort lan lanPort proto =>
    change (s.natGetFlowByHash remote remotePort lan lanPort proto).1.Consistent
    unfold natGetFlowByHash
    split
    · exact hs
    · exact hs.refresh _
  | getFlowByWan remote remotePort wan wanPort proto =>
    change (s.natGetFlowByWan remote remotePort wan wanPort proto).1.Consistent
    unfold natGetFlowByWan
    split
    · exact hs
    · exact hs.refresh _
  | sweep => exact hs.natTableClear
  | reorder table =>
    unfold NatIf.step
    dsimp only
    split
    · rename_i hperm
      exact hsame _ ⟨fun _ => rfl, fun _ => AList.perm_lookup hperm, fun _ => rfl, fun _ => rfl⟩
    · exact hs
  | _ => exact hsame _ ⟨fun _ => rfl, fun _ => rfl, fun _ => rfl, fun _ => rfl⟩

theorem consistent_init (natType : Int) (ipAddr : Ipv4Addr) (timeNow : UInt32)
    (natPortMappingTable : List NatPortMappingEntry) :
    (initNatIf natType ipAddr timeNow natPortMappingTable).Consistent := by
  have hhas : ∀ p f, ¬ (initNatIf natType ipAddr timeNow natPortMappingTable).Has p f := by
    rintro p f ⟨⟩
  constructor
  · constructor
    · intro p f hf
      exact absurd hf (hhas p f)
    · intro k p
      exact ⟨fun h => (by cases h), fun ⟨f, hf, _⟩ => absurd hf (hhas p f)⟩
    · intro k p
      exact ⟨fun h => (by cases h), fun ⟨f, hf, _⟩ => absurd hf (hhas p f)⟩
    · intro r w
      exact ⟨fun ⟨_, h, _⟩ => (by cases h), fun ⟨p, f, hf, _⟩ => absurd hf (hhas p f)⟩
    · intro p f p' f' hf
      exact absurd hf (hhas p f)
  · rintro r ports ⟨⟩

/-- The NAT tables are consistent after every run from initialisation, for every NAT type and
every pattern of allocation failures. -/
theorem natIf_consistent (natType : Int) (ipAddr : Ipv4Addr) (timeNow : UInt32)
    (natPortMappingTable : List NatPortMappingEntry) (es : List NatEvent) :
    (run NatIf.step (initNatIf natType ipAddr timeNow natPortMappingTable) es).Consistent :=
  invariant_run (fun _ e hs => hs.step e) (consistent_init natType ipAddr timeNow
    natPortMappingTable) es

end NatIf

end Halo
