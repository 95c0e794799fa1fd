import Halo.Base.Trace
import Halo.Switch.Vlan

/-!
# Where a switch sends a frame

The table of a switch is compared with the history of its frames.

* `lastSeen`: the port on which the last frame from an address arrived, read off the events.
* `Knows`: the table has exactly the addresses that were seen, each with the stored name of its
  port. Every event keeps it (`Knows.step`), so it holds after every run (`Knows.run`).
* `Delivered`: a known destination gets the frame on its port only and not back on the ingress port,
  an unknown one on every other port of the VLAN.
* `delivered_iff`: exactly when the next frame is delivered in this way.
-/

namespace Halo

open Function

/-- No allocation of the call fails. -/
structure LearnAlloc.Succeeds (alloc : LearnAlloc) : Prop where
  record : alloc.record.isSome = true
  setOk : alloc.setOk = true

/-- A frame arrives on a port of the switch and finds memory for its source; nothing is aged out. -/
def SwitchEvent.Processed (s : Switch) : SwitchEvent → Prop
  | .frame port alloc _ => (s.switchPortMap.lookup port).isSome ∧ alloc.Succeeds
  | .sweep => False
  | .clock _ => True
  | .reorder _ _ => True

/-- The ports of the addresses after one more event. -/
def SwitchEvent.see (seen : MacAddr → Option Bytes) : SwitchEvent → MacAddr → Option Bytes
  | .frame port _ ethFrm =>
    match parseEthFrm ethFrm with
    | .error _ => seen
    | .ok eth => if IsGroup eth.srcMac then seen
      else Function.update seen eth.srcMac (some port)
  | _ => seen

/-- The port on which the most recent frame from each address arrived. -/
def lastSeen (es : List SwitchEvent) : MacAddr → Option Bytes :=
  es.foldl SwitchEvent.see fun _ => none

theorem lastSeen_concat (es : List SwitchEvent) (e : SwitchEvent) :
    lastSeen (es ++ [e]) = e.see (lastSeen es) := by
  simp [lastSeen]

/-- A name is kept whole exactly if it has at most 63 bytes. -/
theorem StaticString64.stored_eq_self_iff {v : Bytes} :
    StaticString64.stored v = v ↔ v.length ≤ 63 := by
  unfold StaticString64.stored
  rw [List.take_eq_self_iff]
  constructor
  · intro h
    exact h.trans (min_le_right _ _)
  · intro h
    rw [Nat.mod_eq_of_lt (by omega)]
    exact le_min le_rfl h

namespace Switch

variable {s s' : Switch} {seen : MacAddr → Option Bytes} {p : SwitchPortConfig} {eth : EthFrm}

/-! ## The table and the history -/

/-- The table has the addresses that were seen, each with the stored name of its port. -/
structure Knows (s : Switch) (seen : MacAddr → Option Bytes) : Prop where
  named : ∀ name q, s.switchPortMap.lookup name = some q → q.name = name
  port : ∀ d name, seen d = some name → (s.switchPortMap.lookup name).isSome
  table : ∀ d, (s.switchMacAddrTable.lookup d).map (·.netIf.get) =
    (seen d).map StaticString64.stored

theorem Knows.of_lookup_some (hs : s.Knows seen) {d : MacAddr} {r : SwitchMacAddr}
    (h : s.switchMacAddrTable.lookup d = some r) :
    ∃ name, seen d = some name ∧ StaticString64.stored name = r.netIf.get := by
  have htable := hs.table d
  rw [h] at htable
  exact Option.map_eq_some_iff.mp htable.symm

theorem Knows.of_lookup_none (hs : s.Knows seen) {d : MacAddr}
    (h : s.switchMacAddrTable.lookup d = none) : seen d = none := by
  have htable := hs.table d
  rw [h] at htable
  exact Option.map_eq_none_iff.mp htable.symm

theorem Knows.learned (hs : s.Knows seen) {name : Bytes} (hp : s.switchPortMap.lookup name = some p)
    {netIf : StaticString64} (hget : netIf.get = StaticString64.stored name) (src : MacAddr) :
    (s.learned src netIf).Knows (update seen src (some name)) where
  named := hs.named
  port := by
    intro d name' h
    by_cases hd : d = src
    · rw [hd, update_self] at h
      cases h
      exact Option.isSome_of_eq_some hp
    · rw [update_of_ne hd] at h
      exact hs.port d name' h
  table := by
    intro d
    unfold Switch.learned
    dsimp only
    rw [Table.lookup_insert_eq_ite]
    by_cases hd : d = src
    · rw [if_pos hd, hd, update_self, Option.map_some, Option.map_some, hget]
    · rw [if_neg hd, update_of_ne hd]
      exact hs.table d

theorem learnRecord_isSome {alloc : LearnAlloc} (halloc : alloc.Succeeds) (src : MacAddr) :
    (s.learnRecord alloc src).isSome := by
  unfold learnRecord
  split
  · rfl
  · rw [if_pos halloc.setOk]
    exact halloc.record

theorem Knows.step (hs : s.Knows seen) {e : SwitchEvent} (he : e.Processed s)
    {txs : List Transmission} (h : s.step e = .ok (s', txs)) : s'.Knows (e.see seen) := by
  cases e with
  | sweep => cases he
  | clock t =>
    cases h
    exact ⟨hs.named, hs.port, hs.table⟩
  | reorder ports macs =>
    simp only [Switch.step] at h
    split at h
    · rename_i hperm
      cases h
      have hports : ∀ k, ports.lookup k = s.switchPortMap.lookup k :=
        fun k => AList.perm_lookup hperm.1
      have hmacs : ∀ k, macs.lookup k = s.switchMacAddrTable.lookup k :=
        fun k => AList.perm_lookup hperm.2
      refine ⟨fun name q hq => hs.named name q ((hports name).symm.trans hq), fun d name hd => ?_,
        fun d => ?_⟩
      · rw [hports]
        exact hs.port d name hd
      · rw [hmacs]
        exact hs.table d
    · cases h
      exact hs
  | frame name alloc ethFrm =>
    obtain ⟨hport, halloc⟩ := he
    obtain ⟨p, hp⟩ := Option.isSome_iff_exists.mp hport
    simp only [Switch.step, hp, rxEthernet] at h
    unfold SwitchEvent.see
    dsimp only
    cases hparse : parseEthFrm ethFrm with
    | error e =>
      rw [hparse] at h
      cases h
      exact hs
    | ok eth =>
      rw [hparse] at h
      dsimp only at h ⊢
      by_cases hgroup : eth.srcMac[0] &&& 0x01 = 0x01
      · rw [handleEthernet, if_pos hgroup] at h
        cases h
        rw [if_pos hgroup]
        exact hs
      · rw [if_neg hgroup]
        by_cases hname : p.name = []
        · rw [handleEthernet_nil hgroup (learnRecord_isSome halloc _) hname] at h
          cases h
        · obtain ⟨netIf, hget, hres⟩ := handleEthernet_eq hgroup
            (learnRecord_isSome (s := s) halloc _) hname
          rw [hres] at h
          obtain ⟨txs', -, heq⟩ := map_eq_ok.mp h
          cases heq
          rw [hs.named name p hp] at hget
          exact hs.learned hp hget _

theorem Knows.run {es : List SwitchEvent} (hs : s.Knows seen)
    (hrun : RunsIn Switch.step (fun _ => True) s es s')
    (hes : EachRound Switch.step (fun s e => e.Processed s) s es) :
    s'.Knows (es.foldl SwitchEvent.see seen) := by
  induction es generalizing s seen with
  | nil =>
    obtain ⟨-, rfl⟩ := hrun
    exact hs
  | cons e es ih =>
    obtain ⟨-, s₁, txs, heq, hrun⟩ := hrun
    exact ih (hs.step hes.1 heq) hrun (hes.2 s₁ txs heq)

theorem knows_init (ports : List SwitchPortConfig) (timeNow : UInt32) :
    (initSwitch ports timeNow).Knows fun _ => none := by
  refine ⟨?_, by rintro d name ⟨⟩, fun d => rfl⟩
  -- a port is filed under its own name, whichever ports were filed before
  have hports : ∀ (m : Table Bytes SwitchPortConfig),
      (∀ name q, m.lookup name = some q → q.name = name) →
      ∀ name q, (ports.foldl (fun m p => m.insert p.name p) m).lookup name = some q →
        q.name = name := by
    induction ports with
    | nil => exact fun m hm => hm
    | cons p ports ih =>
      intro m hm
      refine ih (m.insert p.name p) fun name q hq => ?_
      rw [Table.lookup_insert_eq_ite] at hq
      split at hq
      · rename_i hname
        cases hq
        exact hname.symm
      · exact hm name q hq
  exact hports ∅ (by rintro name q ⟨⟩)

/-! ## The next frame -/

/-- The frame `eth` from port `p` is delivered, where `lastPort` is the port on which its
destination was last seen and `s` is the switch that has learned its source. -/
structure Delivered (s : Switch) (lastPort : Option Bytes) (p : SwitchPortConfig) (eth : EthFrm)
    (txs : List Transmission) : Prop where
  /-- A known destination gets it at most once, on its port and not back on the ingress port. -/
  known : ∀ r, s.switchMacAddrTable.lookup eth.dstMac = some r →
    lastPort = some r.netIf.get ∧ txs.length ≤ 1 ∧
      ∀ tx ∈ txs, tx.port.name = r.netIf.get ∧ tx.port.name ≠ p.name
  /-- An unknown one gets it once on every other port of the VLAN. -/
  unknown : s.switchMacAddrTable.lookup eth.dstMac = none → (txs.map (·.port)).Nodup ∧
    ∀ q, q ∈ txs.map (·.port) ↔
      s.switchPortMap.lookup q.name = some q ∧ q.name ≠ p.name ∧ q.vlanId = p.vlanId
  frame : ∀ tx ∈ txs, buildEthFrm eth = .ok tx.frame

/-- The condition for it, on the history before the frame. -/
structure Deliverable (s : Switch) (seen : MacAddr → Option Bytes) (p : SwitchPortConfig)
    (eth : EthFrm) : Prop where
  /-- A frame from a group address is dropped, so nobody may have to get it. -/
  group : IsGroup eth.srcMac → (∀ name, seen eth.dstMac = some name → name.length ≤ 63) ∧
    (seen eth.dstMac = none → ∀ name q, s.switchPortMap.lookup name = some q →
      q.vlanId = p.vlanId → q.name = p.name)
  /-- The destination is not on the ingress port, and its port has a name that a record can keep. -/
  unicast : ¬ IsGroup eth.srcMac → p.name ≠ [] ∧ eth.dstMac ≠ eth.srcMac ∧
    ∀ name, seen eth.dstMac = some name → name.length ≤ 63 ∧ name ≠ p.name

theorem flood_eq {frame : Bytes} (hbuild : buildEthFrm eth = .ok frame) :
    s.flood p eth = (s.switchPortMap.entries.filter fun e =>
      e.2.name ≠ p.name ∧ e.2.vlanId = p.vlanId).map fun e => ⟨e.2, frame⟩ := by
  unfold flood
  induction s.switchPortMap.entries with
  | nil => rfl
  | cons e es ih =>
    rw [List.flatMap_cons, ih, List.filter_cons]
    by_cases hname : e.2.name = p.name
    · simp [hname]
    · by_cases hvlan : e.2.vlanId = p.vlanId
      · simp [hname, hvlan, txEthernet, hbuild]
      · simp [hname, hvlan]

/-- Flooding sends the frame once on every other port of the VLAN. -/
theorem flood_ports (hs : s.Knows seen) {frame : Bytes} (hbuild : buildEthFrm eth = .ok frame) :
    ((s.flood p eth).map (·.port)).Nodup ∧ ∀ q, q ∈ (s.flood p eth).map (·.port) ↔
      s.switchPortMap.lookup q.name = some q ∧ q.name ≠ p.name ∧ q.vlanId = p.vlanId := by
  rw [flood_eq hbuild, List.map_map]
  have hentry : ∀ e ∈ s.switchPortMap.entries, e.2.name = e.1 := fun e he =>
    hs.named e.1 e.2 (AList.mem_lookup_iff.mpr he)
  constructor
  · -- ports with different keys have different names
    have hkeys : ((s.switchPortMap.entries.filter fun e =>
        e.2.name ≠ p.name ∧ e.2.vlanId = p.vlanId).map (·.2.name)).Nodup := by
      refine List.Nodup.sublist (List.filter_sublist.map _) ?_
      rw [List.map_congr_left hentry]
      exact s.switchPortMap.nodupKeys
    exact List.Nodup.of_map (·.name) (by rwa [List.map_map])
  · intro q
    simp only [List.mem_map, List.mem_filter, Function.comp_apply, decide_eq_true_eq]
    constructor
    · rintro ⟨e, ⟨he, hcond⟩, rfl⟩
      refine ⟨?_, hcond⟩
      rw [hentry e he]
      exact AList.mem_lookup_iff.mpr he
    · rintro ⟨hq, hcond⟩
      exact ⟨⟨q.name, q⟩, ⟨AList.mem_lookup_iff.mp hq, hcond⟩, rfl⟩

/-- A frame that is sent to the port of its destination. -/
theorem forward_delivered_iff (hs : s.Knows seen) (hfit : eth.payload.length ≤ 1500) :
    (∃ txs, s.forward p eth = .ok txs ∧ Delivered s (seen eth.dstMac) p eth txs) ↔
      ∀ name, seen eth.dstMac = some name → name.length ≤ 63 ∧ name ≠ p.name := by
  obtain ⟨frame, hbuild⟩ := buildEthFrm_ok hfit
  cases hd : s.switchMacAddrTable.lookup eth.dstMac with
  | none =>
    rw [hs.of_lookup_none hd]
    refine iff_of_true ⟨s.flood p eth, by simp only [forward, hd], ?_⟩ (by rintro name ⟨⟩)
    refine ⟨by rw [hd]; rintro r ⟨⟩, fun _ => flood_ports hs hbuild, fun tx htx => ?_⟩
    rw [flood_eq hbuild, List.mem_map] at htx
    obtain ⟨e, -, rfl⟩ := htx
    exact hbuild
  | some r =>
    obtain ⟨name, hseen, hstored⟩ := hs.of_lookup_some hd
    rw [hseen]
    constructor
    · rintro ⟨txs, hforward, hdelivered⟩ name' hname'
      cases hname'
      obtain ⟨hlast, -, hports⟩ := hdelivered.known r hd
      have hname : name = r.netIf.get := Option.some.inj hlast
      have hlen := StaticString64.stored_eq_self_iff.mp (hstored.trans hname.symm)
      refine ⟨hlen, ?_⟩
      obtain ⟨q, hq⟩ := Option.isSome_iff_exists.mp (hs.port _ _ hseen)
      rw [forward, hd] at hforward
      dsimp only at hforward
      rw [← hname, hq] at hforward
      dsimp only at hforward
      rw [txEthernet, hbuild] at hforward
      cases hforward
      obtain ⟨hport, hne⟩ := hports _ (List.mem_singleton_self _)
      rw [hname, ← hport]
      exact hne
    · intro h
      obtain ⟨hlen, hne⟩ := h name rfl
      have hname : r.netIf.get = name :=
        hstored.symm.trans (StaticString64.stored_eq_self_iff.mpr hlen)
      obtain ⟨q, hq⟩ := Option.isSome_iff_exists.mp (hs.port _ _ hseen)
      refine ⟨[⟨q, frame⟩], ?_, ?_, by rw [hd]; rintro ⟨⟩, ?_⟩
      · rw [forward, hd]
        dsimp only
        rw [hname, hq]
        dsimp only
        rw [txEthernet, hbuild]
      · intro r' hr'
        rw [hd] at hr'
        cases hr'
        refine ⟨by rw [hname], le_rfl, fun tx htx => ?_⟩
        cases List.mem_singleton.mp htx
        dsimp only
        rw [hname, hs.named name q hq]
        exact ⟨rfl, hne⟩
      · intro tx htx
        cases List.mem_singleton.mp htx
        exact hbuild

/-- A frame from a group address is delivered exactly if nobody has to get it. -/
theorem nothing_delivered_iff (hs : s.Knows seen) :
    Delivered s (seen eth.dstMac) p eth [] ↔
      (∀ name, seen eth.dstMac = some name → name.length ≤ 63) ∧
      (seen eth.dstMac = none → ∀ name q, s.switchPortMap.lookup name = some q →
        q.vlanId = p.vlanId → q.name = p.name) := by
  cases hd : s.switchMacAddrTable.lookup eth.dstMac with
  | none =>
    rw [hs.of_lookup_none hd]
    constructor
    · intro h
      refine ⟨by rintro name ⟨⟩, fun _ name q hq hvlan => ?_⟩
      by_contra hne
      obtain ⟨-, hports⟩ := h.unknown hd
      have := (hports q).mpr ⟨by rw [hs.named name q hq]; exact hq, hne, hvlan⟩
      cases this
    · rintro ⟨-, h⟩
      refine ⟨by rw [hd]; rintro r ⟨⟩, fun _ => ⟨List.nodup_nil, fun q => ?_⟩, by rintro tx ⟨⟩⟩
      refine iff_of_false (by rintro ⟨⟩) ?_
      rintro ⟨hq, hne, hvlan⟩
      exact hne (h rfl _ q hq hvlan)
  | some r =>
    obtain ⟨name, hseen, hstored⟩ := hs.of_lookup_some hd
    rw [hseen]
    constructor
    · intro h
      refine ⟨fun name' hname' => ?_, by rintro ⟨⟩⟩
      cases hname'
      obtain ⟨hlast, -⟩ := h.known r hd
      exact StaticString64.stored_eq_self_iff.mp (hstored.trans (Option.some.inj hlast).symm)
    · rintro ⟨h, -⟩
      have hname := StaticString64.stored_eq_self_iff.mpr (h name rfl)
      refine ⟨fun r' hr' => ?_, by rw [hd]; rintro ⟨⟩, by rintro tx ⟨⟩⟩
      rw [hd] at hr'
      cases hr'
      exact ⟨by rw [← hstored, hname], Nat.zero_le 1, by rintro tx ⟨⟩⟩

/-- **The next frame.** After every run of every switch without ageing and failing allocations, the
next frame is delivered exactly if its condition holds. -/
theorem delivered_iff (ports : List SwitchPortConfig) (timeNow : UInt32) {es : List SwitchEvent}
    (hrun : RunsIn Switch.step (fun _ => True) (initSwitch ports timeNow) es s)
    (hes : EachRound Switch.step (fun s e => e.Processed s) (initSwitch ports timeNow) es)
    {name : Bytes} (hp : s.switchPortMap.lookup name = some p) {alloc : LearnAlloc}
    (halloc : alloc.Succeeds) {ethFrm : Bytes} (hparse : parseEthFrm ethFrm = .ok eth) :
    (∃ s₁ txs, s.step (.frame name alloc ethFrm) = .ok (s₁, txs) ∧
      Delivered s₁ (lastSeen (es ++ [.frame name alloc ethFrm]) eth.dstMac) p eth txs) ↔
      Deliverable s (lastSeen es) p eth := by
  have hs : s.Knows (lastSeen es) := (knows_init ports timeNow).run hrun hes
  have hstep : s.step (.frame name alloc ethFrm) = s.handleEthernet p alloc eth := by
    simp only [step, hp, rxEthernet, hparse]
  rw [hstep, lastSeen_concat, SwitchEvent.see, hparse]
  dsimp only
  by_cases hgroup : eth.srcMac[0] &&& 0x01 = 0x01
  · rw [if_pos hgroup, handleEthernet, if_pos hgroup]
    constructor
    · rintro ⟨s₁, txs, heq, h⟩
      cases heq
      exact ⟨fun _ => (nothing_delivered_iff hs).mp h, fun hne => absurd hgroup hne⟩
    · intro h
      exact ⟨s, [], rfl, (nothing_delivered_iff hs).mpr (h.group hgroup)⟩
  rw [if_neg hgroup]
  by_cases hname : p.name = []
  · rw [handleEthernet_nil hgroup (learnRecord_isSome halloc _) hname]
    refine iff_of_false ?_ fun h => (h.unicast hgroup).1 hname
    rintro ⟨s₁, txs, ⟨⟩, -⟩
  obtain ⟨netIf, hget, hres⟩ :=
    handleEthernet_eq hgroup (learnRecord_isSome (s := s) halloc _) hname
  have hpname := hs.named name p hp
  have hs₁ := hs.learned hp (hpname ▸ hget) eth.srcMac
  have hforward := forward_delivered_iff (p := p) hs₁ (payload_length_of_parse hparse)
  have hok : (∃ s₁ txs, s.handleEthernet p alloc eth = .ok (s₁, txs) ∧
      Delivered s₁ (update (lastSeen es) eth.srcMac (some name) eth.dstMac) p eth txs) ↔
      ∃ txs, (s.learned eth.srcMac netIf).forward p eth = .ok txs ∧
        Delivered (s.learned eth.srcMac netIf)
          (update (lastSeen es) eth.srcMac (some name) eth.dstMac) p eth txs := by
    rw [hres]
    constructor
    · rintro ⟨s₁, txs, heq, h⟩
      obtain ⟨txs', htxs, hpair⟩ := map_eq_ok.mp heq
      cases hpair
      exact ⟨txs, htxs, h⟩
    · rintro ⟨txs, heq, h⟩
      exact ⟨_, txs, by rw [heq]; rfl, h⟩
  rw [hok, hforward]
  by_cases hsame : eth.dstMac = eth.srcMac
  · -- the port of the destination is the ingress port
    rw [hsame, update_self]
    refine iff_of_false (fun h => (h name rfl).2 hpname.symm) fun h => ?_
    exact (h.unicast hgroup).2.1 hsame
  · rw [update_of_ne hsame]
    constructor
    · intro h
      exact ⟨fun hg => absurd hg hgroup, fun _ => ⟨hname, hsame, h⟩⟩
    · intro h
      exact (h.unicast hgroup).2.2

/-- The ports `a` and `b` of one VLAN. -/
def oneVlan : List SwitchPortConfig := [⟨[0x61], 1⟩, ⟨[0x62], 1⟩]

/-- A frame between two hosts on different ports. -/
theorem delivered_iff_other_port :
    ∃ s s₁ txs, (initSwitch oneVlan 0).step (.frame [0x62] roomForAll (hostFrame 9 2)) =
        .ok (s, [⟨⟨[0x61], 1⟩, hostFrame 9 2⟩]) ∧
      s.step (.frame [0x61] roomForAll (hostFrame 2 1)) = .ok (s₁, txs) ∧
      Delivered s₁ (some [0x62]) ⟨[0x61], 1⟩
        ⟨(hostFrame 2 1).drop 14, #v[2, 0, 0, 0, 0, 2], #v[2, 0, 0, 0, 0, 1],
          ethProtoIpv4⟩ txs := by
  have hfirst : ((initSwitch oneVlan 0).step (.frame [0x62] roomForAll (hostFrame 9 2))).map
      Prod.snd = .ok [⟨⟨[0x61], 1⟩, hostFrame 9 2⟩] := by
    decide +kernel
  obtain ⟨⟨s, txs⟩, hstep, rfl⟩ := map_eq_ok.mp hfirst
  have hroom : roomForAll.Succeeds := ⟨rfl, rfl⟩
  have hrun : RunsIn Switch.step (fun _ => True) (initSwitch oneVlan 0)
      [.frame [0x62] roomForAll (hostFrame 9 2)] s := ⟨trivial, s, _, hstep, trivial, rfl⟩
  have hes : EachRound Switch.step (fun s e => e.Processed s) (initSwitch oneVlan 0)
      [.frame [0x62] roomForAll (hostFrame 9 2)] := ⟨⟨rfl, hroom⟩, fun _ _ _ => trivial⟩
  have hports : s.switchPortMap.lookup [0x61] = some ⟨[0x61], 1⟩ := by
    have hmap : ((initSwitch oneVlan 0).step (.frame [0x62] roomForAll (hostFrame 9 2))).map
        (fun x => x.1.switchPortMap.lookup [0x61]) = .ok (some ⟨[0x61], 1⟩) := by
      decide +kernel
    rw [hstep] at hmap
    exact Except.ok.inj hmap
  have hseen : lastSeen [.frame [0x62] roomForAll (hostFrame 9 2)] #v[2, 0, 0, 0, 0, 2] =
      some [0x62] := by
    decide +kernel
  have hiff := delivered_iff oneVlan 0 hrun hes hports hroom
    (show parseEthFrm (hostFrame 2 1) = .ok ⟨(hostFrame 2 1).drop 14, #v[2, 0, 0, 0, 0, 2],
      #v[2, 0, 0, 0, 0, 1], ethProtoIpv4⟩ by decide +kernel)
  obtain ⟨s₁, txs, hstep', hdelivered⟩ := hiff.mpr ⟨fun hgroup => absurd hgroup (by decide),
    fun _ => ⟨by decide, by decide, fun name hname => by
      rw [hseen] at hname
      cases hname
      decide⟩⟩
  exact ⟨s, s₁, txs, hstep, hstep', hdelivered⟩

/-- Two hosts on the port `a`: a frame between them is sent back out of `a`. -/
theorem sent_back_on_ingress_port :
    ∃ s s₁ frame, (initSwitch oneVlan 0).step (.frame [0x61] roomForAll (hostFrame 9 2)) =
        .ok (s, [⟨⟨[0x62], 1⟩, hostFrame 9 2⟩]) ∧
      s.switchPortMap.lookup [0x61] = some ⟨[0x61], 1⟩ ∧
      s.step (.frame [0x61] roomForAll (hostFrame 2 1)) = .ok (s₁, [⟨⟨[0x61], 1⟩, frame⟩]) :=
  ⟨_, _, _, rfl, rfl, rfl⟩

end Switch

end Halo
