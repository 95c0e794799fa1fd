import Halo.Dhcp.Exclusive

/-!
# The lease table of the DHCP server

In every run from an empty table, with any packets and sweeps, every record is filed under its own
address, the address is a host address of the subnet and not the server's own, and a client has at
most one record whose lease or offer has not ended (`LeaseTable`).

A record that has ended may stay in the table while the client gets another address. It does not
come back to life: DISCOVER offers a live record of the client again, and makes a new one only if
there is none (`ownLease_none`); REQUEST acknowledges live records only (`checkRequest_ack`).
-/

namespace Halo

namespace DhcpServer

/-- The record is filed under its own address, which is one of the pool. -/
structure Filed (s : DhcpServer) (k : UInt32) (lease : DhcpLease) : Prop where
  key : ipAddrToU lease.ipAddr = k
  network_lt : s.networkU < k
  lt_broadcast : k < s.broadcastU
  subnet : k &&& s.maskU = s.networkU
  ne_self : k ≠ s.selfU

/-- The invariant of the table: the records are filed, and no client has two live ones. -/
structure LeaseTable (s : DhcpServer) : Prop where
  filed : ∀ k lease, s.dhcpLeaseTable.lookup k = some lease → s.Filed k lease
  one_live : ∀ k k' lease lease', s.dhcpLeaseTable.lookup k = some lease →
    s.dhcpLeaseTable.lookup k' = some lease' → lease.macAddr = lease'.macAddr → s.Live lease →
      s.Live lease' → k = k'

variable {macHash : MacAddr → UInt64} {s : DhcpServer}

/-! ## Where records are filed -/

theorem inPool_iff (k : UInt32) : s.inPool k = true ↔
    s.networkU < k ∧ k < s.broadcastU ∧ k ≠ s.selfU ∧ k &&& s.maskU = s.networkU := by
  simp [inPool, and_assoc]

variable {k : UInt32} {table : Table UInt32 DhcpLease}

theorem Filed.inPool {lease : DhcpLease} (h : s.Filed k lease) : s.inPool k = true :=
  (inPool_iff k).mpr ⟨h.network_lt, h.lt_broadcast, h.ne_self, h.subnet⟩

theorem networkU_le_broadcastU (s : DhcpServer) : s.networkU.toNat ≤ s.broadcastU.toNat := by
  rw [broadcastU, UInt32.toNat_or]
  exact Nat.left_le_or

/-- `hostCount` of the search. -/
def hostCount (s : DhcpServer) : UInt64 := s.broadcastU.toUInt64 - s.networkU.toUInt64 - 1

/-- The subnet has more than two addresses, so that the search runs. -/
def HasHosts (s : DhcpServer) : Prop := ¬ s.broadcastU.toUInt64 - s.networkU.toUInt64 ≤ 1

instance (s : DhcpServer) : Decidable s.HasHosts :=
  inferInstanceAs (Decidable (¬ s.broadcastU.toUInt64 - s.networkU.toUInt64 ≤ 1))

theorem toNat_span (s : DhcpServer) :
    (s.broadcastU.toUInt64 - s.networkU.toUInt64).toNat =
      s.broadcastU.toNat - s.networkU.toNat := by
  have hle := s.networkU_le_broadcastU
  rw [UInt64.toNat_sub_of_le _ _ (UInt64.le_iff_toNat_le.mpr (by simpa using hle))]
  simp

theorem hasHosts_iff (s : DhcpServer) : s.HasHosts ↔ s.networkU.toNat + 1 < s.broadcastU.toNat := by
  rw [HasHosts, UInt64.not_le, UInt64.lt_iff_toNat_lt, toNat_span]
  exact Nat.lt_sub_iff_add_lt'

theorem toNat_hostCount (h : s.HasHosts) :
    s.hostCount.toNat = s.broadcastU.toNat - s.networkU.toNat - 1 := by
  rw [hasHosts_iff] at h
  rw [hostCount, UInt64.toNat_sub_of_le _ _ (UInt64.le_iff_toNat_le.mpr ?_), toNat_span]
  · rfl
  · rw [toNat_span]
    show 1 ≤ _
    omega

theorem hostCount_pos (h : s.HasHosts) : 0 < s.hostCount.toNat := by
  rw [toNat_hostCount h]
  rw [hasHosts_iff] at h
  omega

/-- The address of a round, without the wraparound of the words. -/
theorem toNat_candidate_mod (h : s.HasHosts) (start offset : UInt64) :
    (s.candidate s.hostCount start offset).toNat =
      s.networkU.toNat + 1 + ((start + offset) % s.hostCount).toNat := by
  have hlt := s.broadcastU.toNat_lt
  have hcount := toNat_hostCount h
  have hmod := Nat.mod_lt (start + offset).toNat (hostCount_pos h)
  rw [candidate, UInt64.toNat_toUInt32, UInt64.toNat_add, UInt64.toNat_add, UInt32.toNat_toUInt64,
    UInt64.toNat_mod, show (1 : UInt64).toNat = 1 from rfl]
  omega

/-- The search stays between the network and the broadcast address. -/
theorem candidate_between (h : s.HasHosts) (start offset : UInt64) :
    s.networkU < s.candidate s.hostCount start offset ∧
      s.candidate s.hostCount start offset < s.broadcastU := by
  have hcount := toNat_hostCount h
  have hmod := Nat.mod_lt (start + offset).toNat (hostCount_pos h)
  rw [UInt32.lt_iff_toNat_lt, UInt32.lt_iff_toNat_lt, toNat_candidate_mod h, UInt64.toNat_mod]
  omega

theorem search_inPool {start offset : UInt64} {n : Nat} (hhosts : s.HasHosts)
    (h : s.search s.hostCount start n offset = some (k, table)) : s.inPool k = true := by
  induction n generalizing offset with
  | zero => cases h
  | succ n ih =>
    unfold search at h
    dsimp only at h
    split at h
    · exact ih h
    rename_i hpool
    rw [not_or, not_not] at hpool
    have hcandidate : s.inPool (s.candidate s.hostCount start offset) = true := by
      obtain ⟨habove, hbelow⟩ := candidate_between hhosts start offset
      exact (inPool_iff _).mpr ⟨habove, hbelow, hpool⟩
    split at h
    · cases h
      exact hcandidate
    · split at h
      · exact ih h
      · cases h
        exact hcandidate

theorem chooseAddr_inPool {mac : MacAddr} (h : s.chooseAddr macHash mac = some (k, table)) :
    s.inPool k = true := by
  unfold chooseAddr at h
  split at h
  · cases h
  · rename_i hhosts
    exact search_inPool hhosts h

/-! ## The records of a client -/

section

variable {mac : MacAddr} {es : List (Σ _ : UInt32, DhcpLease)} {k : UInt32} {lease : DhcpLease}

/-- A record that is not the client's, has ended or is outside the pool is passed over. -/
theorem ownLease_skip (found : Option (UInt32 × DhcpLease))
    (h : ¬ (lease.macAddr = mac ∧ s.Live lease ∧ s.inPool k = true)) :
    s.ownLease mac (⟨k, lease⟩ :: es) found = s.ownLease mac es found := by
  rw [ownLease]
  split
  · rfl
  rename_i hmac
  split
  · rfl
  rename_i hlive
  split
  · rfl
  rename_i hpool
  rw [not_and_or, UInt32.not_le, UInt32.not_le] at hlive
  exact absurd ⟨not_not.mp hmac, hlive, not_not.mp hpool⟩ h

variable (es) in
/-- A live record of the client in the pool is visited. -/
theorem ownLease_visit (found : Option (UInt32 × DhcpLease)) (hmac : lease.macAddr = mac)
    (hlive : s.Live lease) (hpool : s.inPool k = true) :
    ∃ x, s.ownLease mac (⟨k, lease⟩ :: es) found = s.ownLease mac es (some x) ∨
      s.ownLease mac (⟨k, lease⟩ :: es) found = some x := by
  have hdead : ¬ (lease.expTime ≤ s.timeNow ∧ lease.offerExpTime ≤ s.timeNow) := by
    rwa [not_and_or, UInt32.not_le, UInt32.not_le]
  rw [ownLease, if_neg (not_not.mpr hmac), if_neg hdead, if_neg (not_not.mpr hpool)]
  have hfound : ∃ x, (if found.isNone ∨ lease.expTime > s.timeNow then some (k, lease) else found) =
      some x := by
    split
    · exact ⟨_, rfl⟩
    · rename_i hkeep
      rw [not_or, Option.isNone_iff_eq_none] at hkeep
      exact Option.ne_none_iff_exists'.mp hkeep.1
  obtain ⟨x, hx⟩ := hfound
  rw [hx]
  dsimp only
  split
  · exact ⟨x, .inl rfl⟩
  · exact ⟨x, .inr rfl⟩

/-- What the loop over the leases has found is not lost. -/
theorem ownLease_ne_none (x : UInt32 × DhcpLease) : s.ownLease mac es (some x) ≠ none := by
  induction es generalizing x with
  | nil => exact Option.some_ne_none x
  | cons e es ih =>
    by_cases hown : e.2.macAddr = mac ∧ s.Live e.2 ∧ s.inPool e.1 = true
    · obtain ⟨y, heq | heq⟩ := ownLease_visit es (some x) hown.1 hown.2.1 hown.2.2
      · exact heq ▸ ih y
      · exact heq ▸ Option.some_ne_none y
    · rw [ownLease_skip _ hown]
      exact ih x

/-- If the loop finds nothing, the client has no live record in the pool. -/
theorem ownLease_none (h : s.ownLease mac es none = none)
    (hmem : (⟨k, lease⟩ : Σ _ : UInt32, DhcpLease) ∈ es) (hmac : lease.macAddr = mac)
    (hpool : s.inPool k = true) : ¬ s.Live lease := by
  induction es with
  | nil => cases hmem
  | cons e es ih =>
    have hskip : ¬ (e.2.macAddr = mac ∧ s.Live e.2 ∧ s.inPool e.1 = true) := by
      rintro ⟨hmac', hlive', hpool'⟩
      obtain ⟨x, heq | heq⟩ := ownLease_visit es none hmac' hlive' hpool'
      · exact ownLease_ne_none x (heq.symm.trans h)
      · exact Option.some_ne_none x (heq.symm.trans h)
    rw [ownLease_skip _ hskip] at h
    rcases List.mem_cons.mp hmem with rfl | hmem
    · exact fun hlive => hskip ⟨hmac, hlive, hpool⟩
    · exact ih h hmem

end

/-! ## One step -/

/-- A part of the table is in order too. -/
theorem LeaseTable.subtable (h : s.LeaseTable)
    (htable : ∀ k lease, table.lookup k = some lease → s.dhcpLeaseTable.lookup k = some lease) :
    (s.withTable table).LeaseTable := by
  refine ⟨fun k lease hk => ?_, fun k k' lease lease' hk hk' =>
    h.one_live k k' lease lease' (htable k lease hk) (htable k' lease' hk')⟩
  obtain ⟨key, habove, hbelow, hsubnet, hself⟩ := h.filed k lease (htable k lease hk)
  exact ⟨key, habove, hbelow, hsubnet, hself⟩

/-- A record is written, and no other record of the client is live. -/
theorem LeaseTable.insert (h : s.LeaseTable) {lease : DhcpLease}
    (htable : ∀ k', k' ≠ k → table.lookup k' = s.dhcpLeaseTable.lookup k')
    (hkey : ipAddrToU lease.ipAddr = k) (hpool : s.inPool k = true)
    (hone : ∀ k' lease', s.dhcpLeaseTable.lookup k' = some lease' → lease'.macAddr = lease.macAddr →
      s.Live lease' → k' = k) : (s.withTable (table.insert k lease)).LeaseTable := by
  have hlookup {k' : UInt32} {lease' : DhcpLease}
      (hk' : (table.insert k lease).lookup k' = some lease') :
      (k' = k ∧ lease' = lease) ∨ (k' ≠ k ∧ s.dhcpLeaseTable.lookup k' = some lease') := by
    rw [Table.lookup_insert_eq_ite] at hk'
    split at hk'
    · rename_i heq
      cases hk'
      exact .inl ⟨heq, rfl⟩
    · rename_i hne
      exact .inr ⟨hne, htable k' hne ▸ hk'⟩
  refine ⟨fun k' lease' hk' => ?_, fun k₁ k₂ lease₁ lease₂ hk₁ hk₂ hmac hlive₁ hlive₂ => ?_⟩
  · rcases hlookup hk' with ⟨rfl, rfl⟩ | ⟨-, hold⟩
    · obtain ⟨habove, hbelow, hself, hsubnet⟩ := (inPool_iff k').mp hpool
      exact ⟨hkey, habove, hbelow, hsubnet, hself⟩
    · obtain ⟨key, habove, hbelow, hsubnet, hself⟩ := h.filed k' lease' hold
      exact ⟨key, habove, hbelow, hsubnet, hself⟩
  · rcases hlookup hk₁ with ⟨rfl, rfl⟩ | ⟨-, hold₁⟩
    · rcases hlookup hk₂ with ⟨rfl, -⟩ | ⟨-, hold₂⟩
      · rfl
      · exact (hone k₂ lease₂ hold₂ hmac.symm hlive₂).symm
    · rcases hlookup hk₂ with ⟨rfl, rfl⟩ | ⟨-, hold₂⟩
      · exact hone k₁ lease₁ hold₁ hmac hlive₁
      · exact h.one_live k₁ k₂ lease₁ lease₂ hold₁ hold₂ hmac hlive₁ hlive₂

theorem LeaseTable.discover (h : s.LeaseTable) (alloc : DhcpAlloc) (packet : DhcpPkt) :
    (s.discover macHash alloc packet).1.LeaseTable := by
  unfold DhcpServer.discover
  split
  · -- a live record of the client gets another offer
    rename_i k lease hown
    obtain ⟨hmem, hmac, hlive⟩ := (ownLease_spec hown).resolve_left (Option.some_ne_none _).symm
    have hk := AList.mem_lookup_iff.mpr hmem
    have hfiled := h.filed k lease hk
    exact h.insert (fun _ _ => rfl) hfiled.key hfiled.inPool fun k' lease' hk' hmac' hlive' =>
      h.one_live k' k lease' lease hk' hk hmac' hlive' hlive
  · rename_i hnone
    split
    · exact h
    · rename_i k table hchoose
      obtain ⟨-, htable, hnone'⟩ := chooseAddr_spec hchoose
      split
      · refine h.insert htable (ipAddrToU_uToIpAddr k) (chooseAddr_inPool hchoose)
          fun k' lease' hk' hmac' hlive' => ?_
        have hpool := (h.filed k' lease' hk').inPool
        exact absurd hlive' (ownLease_none hnone (AList.mem_lookup_iff.mp hk') hmac' hpool)
      · refine h.subtable fun k' lease' hk' => ?_
        by_cases heq : k' = k
        · rw [heq, hnone'] at hk'
          cases hk'
        · rwa [← htable k' heq]

theorem LeaseTable.answerRequest (h : s.LeaseTable) (packet : DhcpPkt) (x dst : Ipv4Addr) :
    (s.answerRequest packet x dst).1.LeaseTable := by
  unfold DhcpServer.answerRequest
  split
  · exact h
  · exact h
  · rename_i lease hack
    obtain ⟨hk, hmac, hlive⟩ := checkRequest_ack hack
    have hfiled := h.filed _ lease hk
    exact h.insert (fun _ _ => rfl) hfiled.key hfiled.inPool fun k' lease' hk' hmac' hlive' =>
      h.one_live k' _ lease' lease hk' hk hmac' hlive' hlive

theorem LeaseTable.request (h : s.LeaseTable) (packet : DhcpPkt) :
    (s.request packet).1.LeaseTable := by
  unfold DhcpServer.request
  dsimp only
  split
  · split
    · exact h
    · exact h.answerRequest ..
  · split
    · exact h
    · exact h.answerRequest ..

theorem LeaseTable.release (h : s.LeaseTable) (packet : DhcpPkt) :
    (s.release packet).LeaseTable := by
  unfold DhcpServer.release
  split
  · exact h
  split
  · exact h
  split
  · refine h.subtable fun k lease hk => ?_
    rw [Table.lookup_erase_eq_ite] at hk
    split at hk
    · cases hk
    · exact hk
  · exact h

/-- A packet keeps the table in order. -/
theorem LeaseTable.rxDhcp (h : s.LeaseTable) (alloc : DhcpAlloc) (udpPayload : Bytes)
    (udpSrcPort udpDstPort : UInt16) :
    (s.rxDhcp macHash alloc udpPayload udpSrcPort udpDstPort).1.LeaseTable := by
  unfold DhcpServer.rxDhcp
  split
  · exact h
  split
  · exact h.discover ..
  split
  · exact h.request ..
  split
  · exact h.release ..
  · exact h

/-- Every event keeps the table in order, if the clock does not go back. -/
theorem LeaseTable.step (h : s.LeaseTable) {e : DhcpEvent}
    (hclock : ∀ t, e = .clock t → s.timeNow ≤ t) : (DhcpServer.step macHash s e).1.LeaseTable := by
  cases e with
  | packet alloc udpPayload udpSrcPort udpDstPort => exact h.rxDhcp ..
  | sweep =>
    refine h.subtable fun k lease hk => ?_
    rw [Table.lookup_sweep] at hk
    exact (Option.filter_eq_some_iff.mp hk).1
  | clock t =>
    have hlive {lease : DhcpLease} (hl : ({ s with timeNow := t } : DhcpServer).Live lease) :
        s.Live lease :=
      hl.imp (UInt32.lt_of_le_of_lt (hclock t rfl)) (UInt32.lt_of_le_of_lt (hclock t rfl))
    refine ⟨fun k lease hk => ?_, fun k k' lease lease' hk hk' hmac hl hl' => ?_⟩
    · obtain ⟨key, habove, hbelow, hsubnet, hself⟩ := h.filed k lease hk
      exact ⟨key, habove, hbelow, hsubnet, hself⟩
    · exact h.one_live k k' lease lease' hk hk' hmac (hlive hl) (hlive hl')
  | dns addr =>
    refine ⟨fun k lease hk => ?_, h.one_live⟩
    obtain ⟨key, habove, hbelow, hsubnet, hself⟩ := h.filed k lease hk
    exact ⟨key, habove, hbelow, hsubnet, hself⟩
  | reorder table =>
    rw [DhcpServer.step]
    split
    · rename_i hperm
      refine h.subtable fun k lease hk => ?_
      rwa [← AList.perm_lookup hperm]
    · exact h

/-- In every run from an empty table, with any packets and sweeps and a clock that does not go back,
the table is in order: the records are filed under addresses of the pool, and no client has two live
ones. -/
theorem lease_table_in_order (macHash : MacAddr → UInt64) (s : DhcpServer)
    (hempty : s.dhcpLeaseTable = ∅) (es : List DhcpEvent)
    (hclock : ∀ r ∈ trace (step macHash) s es, ∀ t, r.event = .clock t → r.pre.timeNow ≤ t) :
    (run (step macHash) s es).LeaseTable := by
  have hstart : s.LeaseTable := by
    refine ⟨fun k lease hk => ?_, fun k k' lease lease' hk => ?_⟩
    · rw [hempty] at hk
      cases hk
    · rw [hempty] at hk
      cases hk
  clear hempty
  induction es generalizing s with
  | nil => exact hstart
  | cons e es ih =>
    rw [trace, List.forall_mem_cons] at hclock
    exact ih _ hclock.2 (hstart.step hclock.1)

/-- When both offers have ended, host 7 asks again and gets the address of host 9; its own old
record stays. -/
def offersEnded : List DhcpEvent :=
  [.packet ⟨true, true⟩ (hostMessage 9 1 []) 68 67, .packet ⟨true, true⟩ (hostMessage 7 1 []) 68 67,
    .clock 200, .packet ⟨true, true⟩ (hostMessage 7 1 []) 68 67]

theorem lease_table_in_order_offersEnded :
    ((run (step fun _ => 7) homeServer offersEnded).dhcpLeaseTable.entries.map fun e =>
      e.2.macAddr) = [#v[2, 0, 0, 0, 0, 7], #v[2, 0, 0, 0, 0, 7]] ∧
    (run (step fun _ => 7) homeServer offersEnded).LeaseTable := by
  refine ⟨by decide +kernel, lease_table_in_order _ _ rfl _ ?_⟩
  simp only [offersEnded, trace, List.forall_mem_cons]
  refine ⟨fun t h => ?_, fun t h => ?_, fun t h => ?_, fun t h => ?_, by simp⟩
  · cases h
  · cases h
  · cases h
    decide +kernel
  · cases h

end DhcpServer

end Halo
