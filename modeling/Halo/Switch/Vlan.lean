import Halo.Base.Table
import Halo.Mem.StaticString
import Halo.Protocol.Ethernet

/-!
# The learning switch (`engine/ethernet_engine.go`, `engine/engine.go`)

A switch learns on which port a source address was last seen and sends a frame to the port of its
destination, or to every other port of the VLAN when the destination is unknown. This file models
`SwitchPort.RxEthernet` with all its branches, the ageing sweep and the clock, and the runs of a
switch over any sequence of them.

The two paths of `HandleEthernet` treat VLANs differently: flooding skips the ports of other VLANs
(`flood_vlan`), the unicast to a learned port does not look at the VLAN. So isolation holds for a
frame exactly when the port recorded for its destination is in the VLAN of the ingress port
(`rxEthernet_isolated_iff`), and over a run when that holds at each of its frames (`isolated_iff`).

The order of a `Table` is the iteration order of the Go map or hash map; the event `reorder` lets
it change at any time.
-/

namespace Halo

/-- `SwitchPortConfig`; the name is the key of the port in the switch. -/
structure SwitchPortConfig where
  name : Bytes
  vlanId : UInt16
  deriving DecidableEq

/-- `SwitchMacAddr`. -/
structure SwitchMacAddr where
  macAddr : MacAddr
  netIf : StaticString64
  createTime : UInt32
  deriving DecidableEq

/-- `Switch`: its ports, the learned addresses and the clock. -/
structure Switch where
  switchPortMap : Table Bytes SwitchPortConfig
  switchMacAddrTable : Table MacAddr SwitchMacAddr
  timeNow : UInt32

/-- A frame sent on a port. -/
structure Transmission where
  port : SwitchPortConfig
  frame : Bytes
  deriving DecidableEq

/-- What the allocator does in one call of `HandleEthernet`: the memory for a new record (with
arbitrary contents, `none` when it fails), and whether the table takes the record. -/
structure LearnAlloc where
  record : Option SwitchMacAddr
  setOk : Bool

/-- The address is a group address: such a source is not learned. -/
abbrev IsGroup (mac : MacAddr) : Prop := mac[0] &&& 0x01 = 0x01

namespace Switch

/-- `InitSwitch`: a later port replaces an earlier one of the same name. -/
def initSwitch (ports : List SwitchPortConfig) (timeNow : UInt32) : Switch :=
  ⟨ports.foldl (fun m p => m.insert p.name p) ∅, ∅, timeNow⟩

/-- `SwitchPort.TxEthernet`. -/
def txEthernet (port : SwitchPortConfig) (eth : EthFrm) : List Transmission :=
  match buildEthFrm eth with
  | .ok frame => [⟨port, frame⟩]
  | .error _ => []

/-- The memory of the record of a source address: the known one, else a new one if the allocator
and the table have room for it. -/
def learnRecord (s : Switch) (alloc : LearnAlloc) (src : MacAddr) : Option SwitchMacAddr :=
  match s.switchMacAddrTable.lookup src with
  | some r => some r
  | none => if alloc.setOk then alloc.record else none

/-- The flooding of a frame whose destination is unknown. -/
def flood (s : Switch) (p : SwitchPortConfig) (eth : EthFrm) : List Transmission :=
  s.switchPortMap.entries.flatMap fun e =>
    if e.2.name = p.name then [] else if e.2.vlanId ≠ p.vlanId then [] else txEthernet e.2 eth

/-- The part of `HandleEthernet` after the source address has been recorded. -/
def forward (s : Switch) (p : SwitchPortConfig) (eth : EthFrm) : Except Fault (List Transmission) :=
  match s.switchMacAddrTable.lookup eth.dstMac with
  | some dstMacAddr =>
    match s.switchPortMap.lookup dstMacAddr.netIf.get with
    | some switchPort => .ok (txEthernet switchPort eth)
    | none => .error .nilDereference
  | none => .ok (flood s p eth)

/-- The switch after the source address `src` has been recorded. -/
def learned (s : Switch) (src : MacAddr) (netIf : StaticString64) : Switch :=
  { s with switchMacAddrTable := s.switchMacAddrTable.insert src ⟨src, netIf, s.timeNow⟩ }

/-- `SwitchPort.HandleEthernet` on port `p`. -/
def handleEthernet (s : Switch) (p : SwitchPortConfig) (alloc : LearnAlloc) (eth : EthFrm) :
    Except Fault (Switch × List Transmission) :=
  if eth.srcMac[0] &&& 0x01 = 0x01 then .ok (s, [])
  else
    match s.learnRecord alloc eth.srcMac with
    | none => .ok (s, [])
    | some srcMacAddr => do
      let netIf ← srcMacAddr.netIf.set p.name
      let s := s.learned eth.srcMac netIf
      let txs ← s.forward p eth
      return (s, txs)

/-- `SwitchPort.RxEthernet` on port `p`. -/
def rxEthernet (s : Switch) (p : SwitchPortConfig) (alloc : LearnAlloc) (ethFrm : Bytes) :
    Except Fault (Switch × List Transmission) :=
  match parseEthFrm ethFrm with
  | .error _ => .ok (s, [])
  | .ok eth => handleEthernet s p alloc eth

/-- One round of `SwitchMacAddrClear`. -/
def switchMacAddrClear (s : Switch) : Switch :=
  { s with switchMacAddrTable :=
      s.switchMacAddrTable.sweep fun _ r => s.timeNow > r.createTime + 300 }

end Switch

/-- What can happen to a switch. -/
inductive SwitchEvent where
  /-- A frame arrives on the port of this name. -/
  | frame (port : Bytes) (alloc : LearnAlloc) (ethFrm : Bytes)
  /-- One round of the ageing task. -/
  | sweep
  /-- The clock task sets the time. -/
  | clock (timeNow : UInt32)
  /-- The iteration orders change. -/
  | reorder (ports : Table Bytes SwitchPortConfig) (macs : Table MacAddr SwitchMacAddr)

namespace Switch

/-- One event: the new state and the frames it sends. A frame on a port that the switch does not
have, and a reordering into another map, do nothing. -/
def step (s : Switch) : SwitchEvent → Except Fault (Switch × List Transmission)
  | .frame port alloc ethFrm =>
    match s.switchPortMap.lookup port with
    | some p => s.rxEthernet p alloc ethFrm
    | none => .ok (s, [])
  | .sweep => .ok (s.switchMacAddrClear, [])
  | .clock timeNow => .ok ({ s with timeNow := timeNow }, [])
  | .reorder ports macs =>
    if ports.entries.Perm s.switchPortMap.entries ∧ macs.entries.Perm s.switchMacAddrTable.entries
    then .ok ({ s with switchPortMap := ports, switchMacAddrTable := macs }, [])
    else .ok (s, [])

/-- The transmissions `txs` of an event stay in the VLAN on which its frame arrived. -/
def SentInVlan (s : Switch) (txs : List Transmission) : SwitchEvent → Prop
  | .frame port _ _ => ∀ p, s.switchPortMap.lookup port = some p →
    ∀ tx ∈ txs, tx.port.vlanId = p.vlanId
  | _ => True

/-- In the run `es` from `s`, every transmission of every frame is on a port of the VLAN on which
the frame arrived. A fault ends the run, with nothing sent. -/
def Isolated (s : Switch) : List SwitchEvent → Prop
  | [] => True
  | e :: es =>
    match s.step e with
    | .error _ => True
    | .ok (s', txs) => s.SentInVlan txs e ∧ Isolated s' es

/-- The name of the port that the table has for the destination of a frame that arrives on `p`:
the one `p` itself is recorded under when the frame is addressed to its own source, else the one
in the destination's record. -/
def dstPortName (s : Switch) (p : SwitchPortConfig) (eth : EthFrm) : Option Bytes :=
  if eth.dstMac = eth.srcMac then some (StaticString64.stored p.name)
  else (s.switchMacAddrTable.lookup eth.dstMac).map fun r => r.netIf.get

/-- The frame is parsed, its source is not a group address, and its source is known or there is
room to learn it. -/
def Learns (s : Switch) (alloc : LearnAlloc) (ethFrm : Bytes) (eth : EthFrm) : Prop :=
  parseEthFrm ethFrm = .ok eth ∧ eth.srcMac[0] &&& 0x01 ≠ 0x01 ∧
    (s.learnRecord alloc eth.srcMac).isSome

/-- The port recorded for the destination of the frame, if any, is in the VLAN of the ingress
port `p`. -/
def DstInVlan (s : Switch) (p : SwitchPortConfig) (alloc : LearnAlloc) (ethFrm : Bytes) : Prop :=
  ∀ eth, s.Learns alloc ethFrm eth → p.name ≠ [] →
    ∀ name, s.dstPortName p eth = some name →
      ∀ q, s.switchPortMap.lookup name = some q → q.vlanId = p.vlanId

/-- In the run `es` from `s`, the port recorded for the destination of each frame, when the frame
arrives, is in the VLAN of its ingress port. -/
def DstsInVlan (s : Switch) : List SwitchEvent → Prop
  | [] => True
  | e :: es =>
    (match e with
      | .frame port alloc ethFrm =>
        ∀ p, s.switchPortMap.lookup port = some p → s.DstInVlan p alloc ethFrm
      | _ => True) ∧
    match s.step e with
    | .error _ => True
    | .ok (s', _) => DstsInVlan s' es

/-! ## One frame -/

/-- The frames that a result has sent are on ports of the VLAN `v`; a fault has sent nothing. -/
def SentOn (v : UInt16) : Except Fault (Switch × List Transmission) → Prop
  | .error _ => True
  | .ok (_, txs) => ∀ tx ∈ txs, tx.port.vlanId = v

/-- Flooding stays in the VLAN of the ingress port. -/
theorem flood_vlan (s : Switch) (p : SwitchPortConfig) (eth : EthFrm) :
    ∀ tx ∈ s.flood p eth, tx.port.vlanId = p.vlanId := by
  intro tx htx
  simp only [flood, List.mem_flatMap] at htx
  obtain ⟨e, -, htx⟩ := htx
  split at htx
  · cases htx
  · split at htx
    · cases htx
    · rename_i hv
      unfold txEthernet at htx
      split at htx
      · rw [List.mem_singleton] at htx
        subst htx
        exact not_ne_iff.mp hv
      · cases htx

variable {eth : EthFrm} {s : Switch} {p : SwitchPortConfig}

/-- A payload that fits is sent once, on the port. -/
theorem txEthernet_eq (port : SwitchPortConfig) (h : eth.payload.length ≤ 1500) :
    ∃ frame, txEthernet port eth = [⟨port, frame⟩] := by
  obtain ⟨frame, hf⟩ := buildEthFrm_ok h
  exact ⟨frame, by simp [txEthernet, hf]⟩

/-- The forwarding of a frame stays in the VLAN when the port found for its destination is in it,
and only then. -/
theorem forward_vlan_iff (hfit : eth.payload.length ≤ 1500) :
    (∀ txs, s.forward p eth = .ok txs → ∀ tx ∈ txs, tx.port.vlanId = p.vlanId) ↔
      ∀ r, s.switchMacAddrTable.lookup eth.dstMac = some r →
        ∀ q, s.switchPortMap.lookup r.netIf.get = some q → q.vlanId = p.vlanId := by
  cases hd : s.switchMacAddrTable.lookup eth.dstMac with
  | none =>
    have hf : s.forward p eth = .ok (s.flood p eth) := by simp only [forward, hd]
    rw [hf]
    refine ⟨fun _ r hr => (by cases hr), fun _ txs htxs => ?_⟩
    cases htxs
    exact flood_vlan s p eth
  | some r =>
    cases hq : s.switchPortMap.lookup r.netIf.get with
    | none =>
      have hf : s.forward p eth = .error .nilDereference := by simp only [forward, hd, hq]
      rw [hf]
      refine ⟨fun _ r' hr' q hq' => ?_, fun _ txs htxs => (by cases htxs)⟩
      cases hr'
      rw [hq] at hq'
      cases hq'
    | some q =>
      obtain ⟨frame, htx⟩ := txEthernet_eq q hfit
      have hf : s.forward p eth = .ok [⟨q, frame⟩] := by simp only [forward, hd, hq, htx]
      rw [hf]
      constructor
      · intro h r' hr' q' hq'
        cases hr'
        rw [hq] at hq'
        cases hq'
        exact h _ rfl _ (List.mem_singleton.mpr rfl)
      · intro h txs htxs tx hmem
        cases htxs
        rw [List.mem_singleton] at hmem
        subst hmem
        exact h r rfl q hq

/-- The record of the destination after the source has been learned on `p`. -/
theorem lookup_learned (s : Switch) (p : SwitchPortConfig) (eth : EthFrm)
    (rec' : SwitchMacAddr) (hname : rec'.netIf.get = StaticString64.stored p.name) (name : Bytes) :
    (∃ r, (s.switchMacAddrTable.insert eth.srcMac rec').lookup eth.dstMac = some r ∧
      r.netIf.get = name) ↔ s.dstPortName p eth = some name := by
  unfold dstPortName
  by_cases h : eth.dstMac = eth.srcMac
  · rw [if_pos h, h, AList.lookup_insert]
    constructor
    · rintro ⟨r, hr, hn⟩
      cases hr
      rw [← hn, hname]
    · intro hn
      exact ⟨rec', rfl, by rw [hname]; exact Option.some.inj hn⟩
  · rw [if_neg h, AList.lookup_insert_ne h]
    exact Option.map_eq_some_iff.symm

/-- What `HandleEthernet` does with a source address that it can record. -/
theorem handleEthernet_eq {alloc : LearnAlloc}
    (hgroup : eth.srcMac[0] &&& 0x01 ≠ 0x01) (hrec : (s.learnRecord alloc eth.srcMac).isSome)
    (hname : p.name ≠ []) :
    ∃ netIf, netIf.get = StaticString64.stored p.name ∧ s.handleEthernet p alloc eth =
      ((s.learned eth.srcMac netIf).forward p eth).map
        fun txs => (s.learned eth.srcMac netIf, txs) := by
  obtain ⟨rec', hrec⟩ := Option.isSome_iff_exists.mp hrec
  obtain ⟨netIf, hset, hget⟩ := StaticString64.get_set rec'.netIf hname
  refine ⟨netIf, hget, ?_⟩
  simp only [handleEthernet, hgroup, ↓reduceIte, hrec, hset]
  rfl

/-- An empty port name faults before the frame is forwarded. -/
theorem handleEthernet_nil {alloc : LearnAlloc}
    (hgroup : eth.srcMac[0] &&& 0x01 ≠ 0x01) (hrec : (s.learnRecord alloc eth.srcMac).isSome)
    (hname : p.name = []) : s.handleEthernet p alloc eth = .error .indexOutOfRange := by
  obtain ⟨rec', hrec⟩ := Option.isSome_iff_exists.mp hrec
  simp only [handleEthernet, hgroup, ↓reduceIte, hrec, hname, StaticString64.set_nil]
  rfl

/-- **One frame.** A received frame is sent only on ports of the VLAN of its ingress port exactly
when the port recorded for its destination, if any, is in that VLAN. -/
theorem rxEthernet_isolated_iff (s : Switch) (p : SwitchPortConfig) (alloc : LearnAlloc)
    (ethFrm : Bytes) :
    SentOn p.vlanId (s.rxEthernet p alloc ethFrm) ↔ s.DstInVlan p alloc ethFrm := by
  unfold rxEthernet
  cases hparse : parseEthFrm ethFrm with
  | error e =>
    refine ⟨fun _ eth hl => ?_, fun _ tx htx => (by cases htx)⟩
    rw [Learns, hparse] at hl
    cases hl.1
  | ok eth =>
    have honly : ∀ eth', s.Learns alloc ethFrm eth' → eth' = eth := by
      intro eth' hl
      rw [Learns, hparse] at hl
      exact (Except.ok.inj hl.1).symm
    by_cases hgroup : eth.srcMac[0] &&& 0x01 = 0x01
    · simp only [handleEthernet, hgroup, ↓reduceIte]
      refine ⟨fun _ eth' hl => ?_, fun _ tx htx => by cases htx⟩
      obtain rfl := honly eth' hl
      exact absurd hgroup hl.2.1
    cases hrec : s.learnRecord alloc eth.srcMac with
    | none =>
      simp only [handleEthernet, hgroup, ↓reduceIte, hrec]
      refine ⟨fun _ eth' hl => ?_, fun _ tx htx => by cases htx⟩
      obtain rfl := honly eth' hl
      rw [Learns, hrec] at hl
      simp at hl
    | some rec' =>
      have hsome : (s.learnRecord alloc eth.srcMac).isSome := by rw [hrec]; rfl
      by_cases hname : p.name = []
      · simp only [handleEthernet_nil hgroup hsome hname]
        exact ⟨fun _ _ _ hne => absurd hname hne, fun _ => trivial⟩
      · obtain ⟨netIf, hget, hres⟩ := handleEthernet_eq hgroup hsome hname
        have hsent : SentOn p.vlanId (s.handleEthernet p alloc eth) ↔
            ∀ txs, (s.learned eth.srcMac netIf).forward p eth = .ok txs →
              ∀ tx ∈ txs, tx.port.vlanId = p.vlanId := by
          rw [hres]
          cases (s.learned eth.srcMac netIf).forward p eth with
          | error f => exact ⟨fun _ _ h => (by cases h), fun _ => trivial⟩
          | ok txs => exact ⟨fun h txs' e => (by cases e; exact h), fun h => h txs rfl⟩
        rw [hsent, forward_vlan_iff (payload_length_of_parse hparse)]
        have hlook := lookup_learned s p eth ⟨eth.srcMac, netIf, s.timeNow⟩ hget
        constructor
        · intro h eth' hl _ name hn q hq
          obtain rfl := honly eth' hl
          obtain ⟨r, hr, rfl⟩ := (hlook name).mpr hn
          exact h r hr q hq
        · intro h r hr q hq
          have hl : s.Learns alloc ethFrm eth := ⟨hparse, hgroup, hsome⟩
          exact h eth hl hname r.netIf.get ((hlook _).mp ⟨r, hr, rfl⟩) q hq

/-! ## Runs -/

/-- One event sends its frames inside the VLAN exactly when its condition holds. -/
theorem step_sentInVlan_iff (s : Switch) (port : Bytes) (alloc : LearnAlloc) (ethFrm : Bytes) :
    (∀ s' txs, s.step (.frame port alloc ethFrm) = .ok (s', txs) →
      s.SentInVlan txs (.frame port alloc ethFrm)) ↔
    ∀ p, s.switchPortMap.lookup port = some p → s.DstInVlan p alloc ethFrm := by
  cases hp : s.switchPortMap.lookup port with
  | none =>
    refine ⟨fun _ p h => (by cases h), fun _ s' txs _ p h => ?_⟩
    rw [hp] at h
    cases h
  | some p =>
    have hstep : s.step (.frame port alloc ethFrm) = s.rxEthernet p alloc ethFrm := by
      simp only [step, hp]
    have hiff := s.rxEthernet_isolated_iff p alloc ethFrm
    constructor
    · intro h p' hp'
      cases hp'
      rw [← hiff]
      cases hres : s.rxEthernet p alloc ethFrm with
      | error f => trivial
      | ok r => exact h r.1 r.2 (by rw [hstep, hres]) p hp
    · intro h s' txs hres p' hp'
      rw [hp] at hp'
      cases hp'
      have := hiff.mpr (h p rfl)
      rw [hstep] at hres
      rwa [hres] at this

/-- **VLAN isolation of runs.** In every run of every switch, the frames are sent only inside the
VLAN on which they arrived exactly when, at each frame, the port recorded for its destination is
in that VLAN. -/
theorem isolated_iff (ports : List SwitchPortConfig) (timeNow : UInt32) (es : List SwitchEvent) :
    (initSwitch ports timeNow).Isolated es ↔ (initSwitch ports timeNow).DstsInVlan es := by
  generalize initSwitch ports timeNow = s
  induction es generalizing s with
  | nil => exact Iff.rfl
  | cons e es ih =>
    unfold Isolated DstsInVlan
    cases e with
    | frame port alloc ethFrm =>
      have hiff := s.step_sentInVlan_iff port alloc ethFrm
      cases hres : s.step (.frame port alloc ethFrm) with
      | error f =>
        rw [hres] at hiff
        exact ⟨fun _ => ⟨hiff.mp (by simp), trivial⟩, fun _ => trivial⟩
      | ok r =>
        rw [hres] at hiff
        obtain ⟨s', txs⟩ := r
        have hsent : s.SentInVlan txs (.frame port alloc ethFrm) ↔
            ∀ p, s.switchPortMap.lookup port = some p → s.DstInVlan p alloc ethFrm :=
          ⟨fun h => hiff.mp fun s'' txs' he => by cases he; exact h,
            fun h => hiff.mpr h s' txs rfl⟩
        exact and_congr hsent (ih s')
    | reorder ports' macs =>
      by_cases h : ports'.entries.Perm s.switchPortMap.entries ∧
          macs.entries.Perm s.switchMacAddrTable.entries
      · simp only [step, if_pos h]
        exact and_congr Iff.rfl (ih _)
      · simp only [step, if_neg h]
        exact and_congr Iff.rfl (ih _)
    | _ => exact and_congr Iff.rfl (ih _)

/-- The ports `a` of VLAN 1 and `b` of VLAN 2. -/
def twoVlans : List SwitchPortConfig := [⟨[0x61], 1⟩, ⟨[0x62], 2⟩]

/-- A frame from host `src` to host `dst`, with an IPv4 payload of zeros. -/
def hostFrame (dst src : UInt8) : Bytes :=
  [2, 0, 0, 0, 0, dst, 2, 0, 0, 0, 0, src, 0x08, 0x00] ++ List.replicate 46 0

/-- Memory for every record. -/
def roomForAll : LearnAlloc := ⟨some ⟨.replicate 6 0, .replicate 64 0, 0⟩, true⟩

/-- Host 2 is learned on port `b` of VLAN 2; a frame for it that host 1 sends on port `a` of VLAN 1
is transmitted on `b`. -/
theorem not_isolated_after_learning :
    ¬ (initSwitch twoVlans 0).Isolated
      [.frame [0x62] roomForAll (hostFrame 9 2), .frame [0x61] roomForAll (hostFrame 2 1)] := by
  obtain ⟨s1, txs1, h1, s2, tx, h2, hp, hv⟩ :
      ∃ s1 txs1, (initSwitch twoVlans 0).step (.frame [0x62] roomForAll (hostFrame 9 2)) =
        .ok (s1, txs1) ∧ ∃ s2 tx, s1.step (.frame [0x61] roomForAll (hostFrame 2 1)) =
        .ok (s2, [tx]) ∧ s1.switchPortMap.lookup [0x61] = some ⟨[0x61], 1⟩ ∧ tx.port.vlanId = 2 :=
    ⟨_, _, rfl, _, _, rfl, rfl, rfl⟩
  simp only [Isolated, h1, h2]
  intro h
  have := h.2.1 _ hp tx (List.mem_singleton.mpr rfl)
  rw [hv] at this
  cases this

end Switch

end Halo
