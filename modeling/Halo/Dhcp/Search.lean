import Halo.Dhcp.LeaseTable

/-!
# The address search of the DHCP server

DISCOVER offers the address of a live record of the client, and otherwise the first free address of
a scan over the hosts of the subnet. The scan starts at an offset that the hash of the MAC address
chooses and wraps around behind the last host. The mask may have any form.

* `tryAddr`, `chooseAddr_eq`: the scan is the first success over the list of its `candidates`.
* `candidates_nodup`, `mem_candidates`: the candidates are the addresses strictly between the
  network and the broadcast address, each once.
* `SearchExact`: no sum or difference of the scan wraps around.
* `discover_offers_iff`: an OFFER is sent exactly if the client has a live record or an address is
  free.
-/

namespace Halo

/-! ## A scan that wraps around -/

/-- Two rounds of a scan modulo `n` are at different places. -/
theorem cyclic_injective {n a i j : Nat} (hi : i < n) (hj : j < n) (h : (a + i) % n = (a + j) % n) :
    i = j := by
  have hmod : i ≡ j [MOD n] := Nat.ModEq.add_left_cancel' a h
  rwa [Nat.ModEq, Nat.mod_eq_of_lt hi, Nat.mod_eq_of_lt hj] at hmod

/-- A scan of `n` rounds reaches every place. -/
theorem cyclic_surjective {n a r : Nat} (ha : a < n) (hr : r < n) : ∃ i < n, (a + i) % n = r := by
  by_cases hle : a ≤ r
  · refine ⟨r - a, by omega, ?_⟩
    rw [Nat.add_sub_cancel' hle, Nat.mod_eq_of_lt hr]
  · refine ⟨n - a + r, by omega, ?_⟩
    rw [show a + (n - a + r) = r + n by omega, Nat.add_mod_right, Nat.mod_eq_of_lt hr]

namespace DhcpServer

variable {macHash : MacAddr → UInt64} {s : DhcpServer}

/-- One round of the search: the address is taken if it is in the subnet, not the server's own, and
has no live record. -/
def tryAddr (s : DhcpServer) (ipAddrU : UInt32) : Option (UInt32 × Table UInt32 DhcpLease) :=
  if ipAddrU = s.selfU ∨ ipAddrU &&& s.maskU ≠ s.networkU then none
  else
    match s.dhcpLeaseTable.lookup ipAddrU with
    | none => some (ipAddrU, s.dhcpLeaseTable)
    | some lease =>
      if lease.expTime > s.timeNow ∨ lease.offerExpTime > s.timeNow then none
      else some (ipAddrU, s.dhcpLeaseTable.erase ipAddrU)

/-- The addresses that the search examines, in its order. -/
def candidates (s : DhcpServer) (hash : UInt64) : List UInt32 :=
  if s.HasHosts then
    (List.range s.hostCount.toNat).map fun offset =>
      s.candidate s.hostCount (hash % s.hostCount) (UInt64.ofNat offset)
  else []

/-! ## The arithmetic of the search -/

/-- The search computes without wrapping around: the differences, the sum modulo the host count, the
next offset and the address have the values that the unbounded operations give. -/
structure SearchExact (s : DhcpServer) (hash : UInt64) : Prop where
  network_le : s.networkU.toNat ≤ s.broadcastU.toNat
  span : (s.broadcastU.toUInt64 - s.networkU.toUInt64).toNat = s.broadcastU.toNat - s.networkU.toNat
  hosts : s.HasHosts →
    s.hostCount.toNat = s.broadcastU.toNat - s.networkU.toNat - 1 ∧ 0 < s.hostCount.toNat
  next : s.HasHosts → ∀ offset < s.hostCount, (offset + 1).toNat = offset.toNat + 1
  sum : s.HasHosts → ∀ offset < s.hostCount,
    (hash % s.hostCount + offset).toNat = hash.toNat % s.hostCount.toNat + offset.toNat
  addr : s.HasHosts → ∀ offset < s.hostCount,
    (s.candidate s.hostCount (hash % s.hostCount) offset).toNat =
      s.networkU.toNat + 1 + (hash.toNat % s.hostCount.toNat + offset.toNat) % s.hostCount.toNat

theorem searchExact (s : DhcpServer) (hash : UInt64) : s.SearchExact hash := by
  have hlt := s.broadcastU.toNat_lt
  have hsum (h : s.HasHosts) (offset : UInt64) (ho : offset < s.hostCount) :
      (hash % s.hostCount + offset).toNat = hash.toNat % s.hostCount.toNat + offset.toNat := by
    have hcount := toNat_hostCount h
    have hmod := Nat.mod_lt hash.toNat (hostCount_pos h)
    rw [UInt64.lt_iff_toNat_lt] at ho
    rw [UInt64.toNat_add, UInt64.toNat_mod, Nat.mod_eq_of_lt]
    omega
  refine ⟨s.networkU_le_broadcastU, s.toNat_span, fun h => ⟨toNat_hostCount h, hostCount_pos h⟩,
    ?_, hsum, ?_⟩
  · intro h offset ho
    have hcount := toNat_hostCount h
    rw [UInt64.lt_iff_toNat_lt] at ho
    rw [UInt64.toNat_add, Nat.mod_eq_of_lt]
    · rfl
    · show offset.toNat + 1 < _
      omega
  · intro h offset ho
    rw [toNat_candidate_mod h, UInt64.toNat_mod, hsum h offset ho]

/-! ## The candidates -/

theorem toNat_ofNat_lt_hostCount {offset : Nat} (h : offset < s.hostCount.toNat) :
    (UInt64.ofNat offset).toNat = offset :=
  UInt64.toNat_ofNat_of_lt' (h.trans s.hostCount.toNat_lt)

/-- The address of a round, by the number of the round. -/
theorem toNat_candidate (h : s.HasHosts) (hash : UInt64) {offset : Nat}
    (ho : offset < s.hostCount.toNat) :
    (s.candidate s.hostCount (hash % s.hostCount) (UInt64.ofNat offset)).toNat =
      s.networkU.toNat + 1 + (hash.toNat % s.hostCount.toNat + offset) % s.hostCount.toNat := by
  have hoffset := toNat_ofNat_lt_hostCount ho
  rw [(s.searchExact hash).addr h _ (UInt64.lt_iff_toNat_lt.mpr (hoffset.symm ▸ ho)), hoffset]

/-- No address is examined twice. -/
theorem candidates_nodup (s : DhcpServer) (hash : UInt64) : (s.candidates hash).Nodup := by
  rw [candidates]
  split
  · rename_i h
    refine List.Nodup.map_on ?_ List.nodup_range
    intro i hi j hj heq
    rw [List.mem_range] at hi hj
    have heq := congrArg UInt32.toNat heq
    rw [toNat_candidate h hash hi, toNat_candidate h hash hj] at heq
    exact cyclic_injective hi hj (Nat.add_left_cancel heq)
  · exact List.nodup_nil

/-- Every address strictly between the network and the broadcast address is a candidate. -/
theorem mem_candidates (s : DhcpServer) (hash : UInt64) (ipAddrU : UInt32) :
    ipAddrU ∈ s.candidates hash ↔ s.networkU < ipAddrU ∧ ipAddrU < s.broadcastU := by
  rw [candidates]
  by_cases h : s.HasHosts
  · rw [if_pos h, List.mem_map, UInt32.lt_iff_toNat_lt, UInt32.lt_iff_toNat_lt]
    have hcount := toNat_hostCount h
    have hpos := hostCount_pos h
    constructor
    · rintro ⟨offset, ho, rfl⟩
      rw [List.mem_range] at ho
      have hround := Nat.mod_lt (hash.toNat % s.hostCount.toNat + offset) hpos
      rw [toNat_candidate h hash ho]
      omega
    · rintro ⟨habove, hbelow⟩
      obtain ⟨offset, ho, hround⟩ := cyclic_surjective (Nat.mod_lt hash.toNat hpos)
        (show ipAddrU.toNat - s.networkU.toNat - 1 < s.hostCount.toNat by omega)
      refine ⟨offset, List.mem_range.mpr ho, UInt32.toNat_inj.mp ?_⟩
      rw [toNat_candidate h hash ho, hround]
      omega
  · rw [if_neg h, UInt32.lt_iff_toNat_lt, UInt32.lt_iff_toNat_lt]
    rw [hasHosts_iff] at h
    simp only [List.not_mem_nil, false_iff]
    omega

/-! ## The search -/

/-- The rounds that are left try the addresses from their offset on. -/
theorem search_eq (hostCount start : UInt64) (k : Nat) (offset : UInt64) :
    s.search hostCount start k offset =
      ((List.range k).map fun j => s.candidate hostCount start (offset + UInt64.ofNat j)).findSome?
        s.tryAddr := by
  induction k generalizing offset with
  | zero => rfl
  | succ k ih =>
    have hnext (j : Nat) : offset + UInt64.ofNat (j + 1) = offset + 1 + UInt64.ofNat j := by
      rw [UInt64.ofNat_add, UInt64.add_comm (UInt64.ofNat j), UInt64.add_assoc]
      rfl
    have hfirst : offset + UInt64.ofNat 0 = offset := UInt64.add_zero offset
    rw [List.range_succ_eq_map, List.map_cons, List.map_map, List.findSome?_cons]
    simp only [Function.comp_def, Nat.succ_eq_add_one, hnext, hfirst, ← ih]
    rw [search, tryAddr]
    split
    · rfl
    · cases s.dhcpLeaseTable.lookup (s.candidate hostCount start offset) with
      | none => rfl
      | some lease =>
        dsimp only
        split <;> rfl

theorem chooseAddr_eq (macHash : MacAddr → UInt64) (s : DhcpServer) (mac : MacAddr) :
    s.chooseAddr macHash mac = (s.candidates (macHash mac)).findSome? s.tryAddr := by
  rw [chooseAddr, candidates]
  by_cases h : s.HasHosts
  · rw [if_neg h, if_pos h, search_eq]
    simp [hostCount]
  · rw [if_pos (not_not.mp h), if_neg h]
    rfl

/-- The address can be offered to a client without a record: it is in the pool and no live record
has it. -/
def Offerable (s : DhcpServer) (ipAddrU : UInt32) : Prop := s.inPool ipAddrU = true ∧ s.Free ipAddrU

/-- The client has a live record of the address, which is in the pool. -/
def Owned (s : DhcpServer) (mac : MacAddr) (ipAddrU : UInt32) : Prop :=
  s.inPool ipAddrU = true ∧
    ∃ lease, s.dhcpLeaseTable.lookup ipAddrU = some lease ∧ lease.macAddr = mac ∧ s.Live lease

theorem tryAddr_isSome {ipAddrU : UInt32} (h : s.Offerable ipAddrU) :
    (s.tryAddr ipAddrU).isSome := by
  obtain ⟨hpool, hfree⟩ := h
  obtain ⟨-, -, hself, hsubnet⟩ := (inPool_iff ipAddrU).mp hpool
  rw [tryAddr, if_neg (by simp [hself, hsubnet])]
  split
  · rfl
  · rename_i lease hlookup
    have hdead : ¬ (lease.expTime > s.timeNow ∨ lease.offerExpTime > s.timeNow) :=
      hfree lease hlookup
    rw [if_neg hdead]
    rfl

/-- The search succeeds exactly if an address can be offered. -/
theorem chooseAddr_isSome_iff (macHash : MacAddr → UInt64) (s : DhcpServer) (mac : MacAddr) :
    (s.chooseAddr macHash mac).isSome ↔ ∃ ipAddrU, s.Offerable ipAddrU := by
  constructor
  · intro h
    obtain ⟨⟨k, table⟩, hchoose⟩ := Option.isSome_iff_exists.mp h
    exact ⟨k, chooseAddr_inPool hchoose, (chooseAddr_spec hchoose).1⟩
  · rintro ⟨k, hk⟩
    obtain ⟨habove, hbelow, -⟩ := (inPool_iff k).mp hk.1
    rw [chooseAddr_eq, List.findSome?_isSome_iff]
    exact ⟨k, (s.mem_candidates _ k).mpr ⟨habove, hbelow⟩, tryAddr_isSome hk⟩

/-! ## The records of the client -/

/-- The loop over the leases keeps addresses of the pool only. -/
theorem ownLease_inPool {mac : MacAddr} {es : List (Σ _ : UInt32, DhcpLease)}
    {found : Option (UInt32 × DhcpLease)} {x : UInt32 × DhcpLease}
    (hfound : ∀ y ∈ found, s.inPool y.1 = true) (h : s.ownLease mac es found = some x) :
    s.inPool x.1 = true := by
  induction es generalizing found with
  | nil => exact hfound x h
  | cons e es ih =>
    obtain ⟨k, lease⟩ := e
    by_cases hown : lease.macAddr = mac ∧ s.Live lease ∧ s.inPool k = true
    · have hnew : ∀ y ∈ (if found.isNone ∨ lease.expTime > s.timeNow then some (k, lease)
        else found),
          s.inPool y.1 = true := by
        split
        · rintro y ⟨⟩
          exact hown.2.2
        · exact hfound
      have hdead : ¬ (lease.expTime ≤ s.timeNow ∧ lease.offerExpTime ≤ s.timeNow) := by
        rw [not_and_or, UInt32.not_le, UInt32.not_le]
        exact hown.2.1
      rw [ownLease, if_neg (not_not.mpr hown.1), if_neg hdead, if_neg (not_not.mpr hown.2.2)] at h
      dsimp only at h
      split at h
      · exact ih hnew h
      · exact hnew x h
    · rw [ownLease_skip _ hown] at h
      exact ih hfound h

theorem ownLease_owned {mac : MacAddr} {k : UInt32} {lease : DhcpLease}
    (h : s.ownLease mac s.dhcpLeaseTable.entries none = some (k, lease)) : s.Owned mac k := by
  rcases ownLease_spec h with hnone | ⟨hmem, hmac, hlive⟩
  · cases hnone
  · exact ⟨ownLease_inPool (by simp) h, lease, AList.mem_lookup_iff.mpr hmem, hmac, hlive⟩

theorem not_owned_of_ownLease_none {mac : MacAddr}
    (h : s.ownLease mac s.dhcpLeaseTable.entries none = none) (k : UInt32) : ¬ s.Owned mac k := by
  rintro ⟨hpool, lease, hlookup, hmac, hlive⟩
  exact ownLease_none h (AList.mem_lookup_iff.mp hlookup) hmac hpool hlive

/-! ## The answer to a DISCOVER -/

/-- The address that a DISCOVER with memory is answered by. -/
inductive Offers (s : DhcpServer) (packet : DhcpPkt) : List DhcpReply → Prop
  /-- The client has no live record and no address is free. -/
  | none (howned : ∀ k, ¬ s.Owned packet.clientMacAddr k) (hfree : ∀ k, ¬ s.Offerable k) :
      Offers s packet []
  /-- A live record of the client is offered again. -/
  | again (k : UInt32) (howned : s.Owned packet.clientMacAddr k) :
      Offers s packet [s.offerReply packet (uToIpAddr k)]
  /-- The client has no live record and gets a free address. -/
  | fresh (k : UInt32) (howned : ∀ k, ¬ s.Owned packet.clientMacAddr k) (hfree : s.Offerable k) :
      Offers s packet [s.offerReply packet (uToIpAddr k)]

theorem discover_offers (macHash : MacAddr → UInt64) (s : DhcpServer) {alloc : DhcpAlloc}
    (halloc : alloc.mallocOk = true ∧ alloc.setOk = true) (packet : DhcpPkt) :
    s.Offers packet (s.discover macHash alloc packet).2 := by
  rw [discover]
  split
  · rename_i k lease hown
    exact .again k (ownLease_owned hown)
  · rename_i hown
    have howned := not_owned_of_ownLease_none hown
    split
    · rename_i hchoose
      refine .none howned fun k hk => ?_
      have hsome := (chooseAddr_isSome_iff macHash s packet.clientMacAddr).mpr ⟨k, hk⟩
      rw [hchoose] at hsome
      cases hsome
    · rename_i k table hchoose
      rw [if_pos (by simp [halloc])]
      exact .fresh k howned ⟨chooseAddr_inPool hchoose, (chooseAddr_spec hchoose).1⟩

theorem offerReply_inj {packet : DhcpPkt} {k k' : UInt32}
    (h : [s.offerReply packet (uToIpAddr k)] = [s.offerReply packet (uToIpAddr k')]) : k = k' := by
  have haddr : uToIpAddr k = uToIpAddr k' := by
    simpa [offerReply] using congrArg (fun rs => rs.map fun r : DhcpReply => r.packet.yourIpAddr) h
  simpa using congrArg ipAddrToU haddr

/-- The search is exhaustive. -/
theorem discover_offers_iff (macHash : MacAddr → UInt64) (s : DhcpServer) (alloc : DhcpAlloc)
    (halloc : alloc.mallocOk = true ∧ alloc.setOk = true) (udpPayload : Bytes)
    (udpSrcPort udpDstPort : UInt16) (packet : DhcpPkt)
    (haccept : s.accept udpPayload udpSrcPort udpDstPort = some (DhcpMsgType.discover, packet)) :
    let replies := (s.rxDhcp macHash alloc udpPayload udpSrcPort udpDstPort).2
    let mac := packet.clientMacAddr
    ((∃ k, replies = [s.offerReply packet (uToIpAddr k)]) ↔
      (∃ k, s.Owned mac k) ∨ ∃ k, s.Offerable k) ∧
    (∀ k, replies = [s.offerReply packet (uToIpAddr k)] → s.Owned mac k ∨ s.Offerable k) ∧
    ((¬ ∃ k, replies = [s.offerReply packet (uToIpAddr k)]) → replies = []) ∧
    s.chooseAddr macHash mac = (s.candidates (macHash mac)).findSome? s.tryAddr ∧
    (s.candidates (macHash mac)).Nodup ∧
    (∀ k, k ∈ s.candidates (macHash mac) ↔ s.networkU < k ∧ k < s.broadcastU) ∧
    s.SearchExact (macHash mac) := by
  intro replies mac
  have hreplies : replies = (s.discover macHash alloc packet).2 := by
    simp [replies, rxDhcp, haccept]
  have hoffers : s.Offers packet replies := hreplies ▸ discover_offers macHash s halloc packet
  refine ⟨?_, ?_, ?_, chooseAddr_eq macHash s mac, s.candidates_nodup _, s.mem_candidates _,
    s.searchExact _⟩
  · clear_value replies
    cases hoffers with
    | none howned hfree =>
      refine ⟨fun ⟨k, h⟩ => (by cases h), ?_⟩
      rintro (⟨k, hk⟩ | ⟨k, hk⟩)
      · exact absurd hk (howned k)
      · exact absurd hk (hfree k)
    | again k howned => exact ⟨fun _ => .inl ⟨k, howned⟩, fun _ => ⟨k, rfl⟩⟩
    | fresh k howned hfree => exact ⟨fun _ => .inr ⟨k, hfree⟩, fun _ => ⟨k, rfl⟩⟩
  · clear_value replies
    intro k hk
    cases hoffers with
    | none howned hfree => cases hk
    | again k' howned => exact .inl (offerReply_inj hk ▸ howned)
    | fresh k' howned hfree => exact .inr (offerReply_inj hk ▸ hfree)
  · clear_value replies
    intro hno
    cases hoffers with
    | none howned hfree => rfl
    | again k howned => exact absurd ⟨k, rfl⟩ hno
    | fresh k howned hfree => exact absurd ⟨k, rfl⟩ hno

/-- A server of `192.168.1.1/30`, whose pool is one address. -/
def tinyServer : DhcpServer := { homeServer with networkMask := #v[255, 255, 255, 252] }

theorem discover_offers_iff_tinyServer :
    tinyServer.Offerable (ipAddrToU #v[192, 168, 1, 2]) ∧
    ∃ packet, (∃ k, (tinyServer.rxDhcp (fun _ => 7) ⟨true, true⟩ (hostMessage 7 1 []) 68 67).2 =
      [tinyServer.offerReply packet (uToIpAddr k)]) := by
  have hoffer : tinyServer.Offerable (ipAddrToU #v[192, 168, 1, 2]) := by
    refine ⟨by decide +kernel, fun lease h => ?_⟩
    cases h
  obtain ⟨packet, haccept⟩ : ∃ packet,
      tinyServer.accept (hostMessage 7 1 []) 68 67 = some (DhcpMsgType.discover, packet) := by
    have hmsg : (tinyServer.accept (hostMessage 7 1 []) 68 67).map Prod.fst =
        some DhcpMsgType.discover := by
      decide +kernel
    obtain ⟨⟨msgType, packet⟩, haccept, rfl⟩ := Option.map_eq_some_iff.mp hmsg
    exact ⟨packet, haccept⟩
  exact ⟨hoffer, packet,
    (discover_offers_iff (fun _ => 7) tinyServer ⟨true, true⟩ ⟨rfl, rfl⟩ _ 68 67 packet
    haccept).1.mpr (.inr ⟨_, hoffer⟩)⟩

end DhcpServer

end Halo
