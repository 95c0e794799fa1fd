import Halo.Dhcp.Server

/-!
# No address is given to two clients

An address that the server has acknowledged or offered to a client is not offered or acknowledged
to another one before the lease or the offer ends, unless the client releases it.

* `Effect`: everything that a packet can do to the server, one constructor for each outcome;
  `rxDhcp_effect` says that there are no others.
* `Held`: the table has a record of the address for the client that ends late enough.
* `Protects.step`: a step keeps a record until it ends, unless the client releases the address.
* `Exclusive`: the property of a run; `dhcp_exclusive` proves it of every run.
-/

namespace Halo

namespace DhcpServer

variable {macHash : MacAddr → UInt64} {s : DhcpServer}

/-- The formal lease or the offer of the record has not ended. -/
def Live (s : DhcpServer) (lease : DhcpLease) : Prop :=
  s.timeNow < lease.expTime ∨ s.timeNow < lease.offerExpTime

/-- The address can be given to a new client: it has no record, or one that has ended. -/
def Free (s : DhcpServer) (ipAddrU : UInt32) : Prop :=
  ∀ lease, s.dhcpLeaseTable.lookup ipAddrU = some lease → ¬ s.Live lease

/-- The server with another lease table. -/
def withTable (s : DhcpServer) (table : Table UInt32 DhcpLease) : DhcpServer :=
  { s with dhcpLeaseTable := table }

/-- What a packet of the client `packet.clientMacAddr` can do. -/
inductive Effect (s : DhcpServer) (msgType : UInt8) (packet : DhcpPkt) :
    DhcpServer × List DhcpReply → Prop
  | silent : Effect s msgType packet (s, [])
  | nak : Effect s msgType packet (s, [s.nakReply packet])
  /-- DISCOVER found a free address and then no memory: the ended record is gone. -/
  | dropped (k : UInt32) (table : Table UInt32 DhcpLease) (hfree : s.Free k)
      (htable : ∀ k', k' ≠ k → table.lookup k' = s.dhcpLeaseTable.lookup k') :
      Effect s msgType packet (s.withTable table, [])
  /-- DISCOVER offers the address of a record of the client again. -/
  | again (k : UInt32) (lease : DhcpLease) (hk : s.dhcpLeaseTable.lookup k = some lease)
      (hmac : lease.macAddr = packet.clientMacAddr) :
      Effect s msgType packet (s.offerLease packet s.dhcpLeaseTable k lease)
  /-- DISCOVER offers a free address. -/
  | fresh (k : UInt32) (table : Table UInt32 DhcpLease) (hfree : s.Free k)
      (htable : ∀ k', k' ≠ k → table.lookup k' = s.dhcpLeaseTable.lookup k') :
      Effect s msgType packet (s.offerLease packet table k
        { ipAddr := uToIpAddr k, macAddr := packet.clientMacAddr })
  /-- REQUEST acknowledges the address of a record of the client. -/
  | ack (x dst : Ipv4Addr) (lease : DhcpLease) (hostName : StaticString64)
      (hk : s.dhcpLeaseTable.lookup (ipAddrToU x) = some lease)
      (hmac : lease.macAddr = packet.clientMacAddr) :
      Effect s msgType packet
        (s.withTable (s.dhcpLeaseTable.insert (ipAddrToU x)
          { lease with expTime := s.timeNow + dhcpLeaseTime, hostName := hostName }),
        [s.ackReply packet x dst])
  /-- RELEASE removes a record of the client. -/
  | released (lease : DhcpLease) (hmsg : msgType = DhcpMsgType.release)
      (hk : s.dhcpLeaseTable.lookup (ipAddrToU packet.clientIpAddr) = some lease)
      (hmac : lease.macAddr = packet.clientMacAddr) :
      Effect s msgType packet
        (s.withTable (s.dhcpLeaseTable.erase (ipAddrToU packet.clientIpAddr)), [])

/-! ## The three messages -/

variable {k : UInt32}

/-- The loop over the leases finds a live record of the table that belongs to the client. -/
theorem ownLease_spec {mac : MacAddr} {es : List (Σ _ : UInt32, DhcpLease)}
    {found : Option (UInt32 × DhcpLease)} {lease : DhcpLease}
    (h : s.ownLease mac es found = some (k, lease)) :
    found = some (k, lease) ∨
      (⟨k, lease⟩ : Σ _ : UInt32, DhcpLease) ∈ es ∧ lease.macAddr = mac ∧ s.Live lease := by
  induction es generalizing found with
  | nil => exact .inl h
  | cons e es ih =>
    obtain ⟨k', lease'⟩ := e
    have hlater : ∀ {f}, s.ownLease mac es f = some (k, lease) → f = some (k, lease) ∨
        (⟨k, lease⟩ : Σ _ : UInt32, DhcpLease) ∈ ⟨k', lease'⟩ :: es ∧ lease.macAddr = mac ∧
          s.Live lease :=
      fun hf => (ih hf).imp_right fun h => ⟨List.mem_cons_of_mem _ h.1, h.2⟩
    unfold ownLease at h
    split at h
    · exact hlater h
    split at h
    · exact hlater h
    split at h
    · exact hlater h
    · -- the visited record is the client's: it replaces what was found, or not
      rename_i hmac hlive _
      have hhere :
        (if found.isNone ∨ lease'.expTime > s.timeNow then some (k', lease') else found) =
          some (k, lease) → found = some (k, lease) ∨
          (⟨k, lease⟩ : Σ _ : UInt32, DhcpLease) ∈ ⟨k', lease'⟩ :: es ∧ lease.macAddr = mac ∧
            s.Live lease := by
        split
        · rintro ⟨⟩
          refine .inr ⟨List.mem_cons_self, not_not.mp hmac, ?_⟩
          rwa [not_and_or, UInt32.not_le, UInt32.not_le] at hlive
        · exact .inl
      dsimp only at h
      split at h
      · rcases hlater h with hf | hf
        · exact hhere hf
        · exact .inr hf
      · exact hhere h

/-- The search returns a free address and changes the table there only: it has no record any
more. -/
theorem search_spec {hostCount start offset : UInt64} {n : Nat} {table : Table UInt32 DhcpLease}
    (h : s.search hostCount start n offset = some (k, table)) :
    s.Free k ∧ (∀ k', k' ≠ k → table.lookup k' = s.dhcpLeaseTable.lookup k') ∧
      table.lookup k = none := by
  induction n generalizing offset with
  | zero => cases h
  | succ n ih =>
    unfold search at h
    dsimp only at h
    split at h
    · exact ih h
    split at h
    · rename_i hnone
      cases h
      refine ⟨fun lease hl => ?_, fun _ _ => rfl, hnone⟩
      rw [hnone] at hl
      cases hl
    · rename_i lease hsome
      split at h
      · exact ih h
      · rename_i hdead
        cases h
        refine ⟨fun lease' hl => ?_, fun k' hk' => AList.lookup_erase_ne hk',
          AList.lookup_erase _ _⟩
        rw [hsome] at hl
        cases hl
        exact hdead

theorem chooseAddr_spec {mac : MacAddr} {table : Table UInt32 DhcpLease}
    (h : s.chooseAddr macHash mac = some (k, table)) :
    s.Free k ∧ (∀ k', k' ≠ k → table.lookup k' = s.dhcpLeaseTable.lookup k') ∧
      table.lookup k = none := by
  unfold chooseAddr at h
  split at h
  · cases h
  · exact search_spec h

theorem discover_effect (alloc : DhcpAlloc) (msgType : UInt8) (packet : DhcpPkt) :
    s.Effect msgType packet (s.discover macHash alloc packet) := by
  unfold discover
  split
  · rename_i k lease hown
    rcases ownLease_spec hown with hnone | ⟨hmem, hmac, -⟩
    · cases hnone
    · exact .again k lease (AList.mem_lookup_iff.mpr hmem) hmac
  · split
    · exact .silent
    · rename_i k table hchoose
      obtain ⟨hfree, htable, -⟩ := chooseAddr_spec hchoose
      split
      · exact .fresh k table hfree htable
      · exact .dropped k table hfree htable

/-- A REQUEST is acknowledged only for a live record of the client. -/
theorem checkRequest_ack {packet : DhcpPkt} {lease : DhcpLease}
    (h : s.checkRequest packet k = .ack lease) :
    s.dhcpLeaseTable.lookup k = some lease ∧ lease.macAddr = packet.clientMacAddr ∧
      s.Live lease := by
  unfold checkRequest at h
  dsimp only at h
  split at h
  · cases h
  split at h
  · cases h
  split at h
  · -- SELECTING
    split at h
    · cases h
    · rename_i lease' hk
      split at h
      · cases h
      rename_i hmac
      split at h
      · cases h
      split at h
      · cases h
      · rename_i hlive
        cases h
        rw [not_and_or, UInt32.not_le, UInt32.not_le] at hlive
        exact ⟨hk, not_not.mp fun hne => hmac (.inl hne), hlive.symm⟩
  · -- INIT-REBOOT, renewing, rebinding
    split at h
    · split at h <;> cases h
    · rename_i lease' hk
      split at h
      · cases h
      · rename_i hlive
        cases h
        obtain ⟨hk, hmac⟩ := Option.filter_eq_some_iff.mp hk
        exact ⟨hk, (decide_eq_true_eq.mp hmac).1, .inl (UInt32.not_le.mp hlive)⟩

theorem answerRequest_effect (msgType : UInt8) (packet : DhcpPkt) (x dst : Ipv4Addr) :
    s.Effect msgType packet (s.answerRequest packet x dst) := by
  unfold answerRequest
  split
  · exact .silent
  · exact .nak
  · rename_i lease hack
    obtain ⟨hk, hmac, -⟩ := checkRequest_ack hack
    exact .ack x dst lease _ hk hmac

theorem request_effect (msgType : UInt8) (packet : DhcpPkt) :
    s.Effect msgType packet (s.request packet) := by
  unfold request
  dsimp only
  split
  · split
    · exact .silent
    · exact answerRequest_effect ..
  · split
    · exact .silent
    · exact answerRequest_effect ..

theorem release_effect (packet : DhcpPkt) :
    s.Effect DhcpMsgType.release packet (s.release packet, []) := by
  unfold release
  split
  · exact .silent
  · split
    · exact .silent
    · rename_i lease hk
      split
      · rename_i h
        exact .released lease rfl hk h.1
      · exact .silent

/-- Everything that a received packet can do. -/
theorem rxDhcp_effect (macHash : MacAddr → UInt64) (s : DhcpServer) (alloc : DhcpAlloc)
    (udpPayload : Bytes) (udpSrcPort udpDstPort : UInt16) :
    (s.rxDhcp macHash alloc udpPayload udpSrcPort udpDstPort = (s, [])) ∨
    ∃ msgType packet, s.accept udpPayload udpSrcPort udpDstPort = some (msgType, packet) ∧
      s.Effect msgType packet (s.rxDhcp macHash alloc udpPayload udpSrcPort udpDstPort) := by
  unfold rxDhcp
  split
  · exact .inl rfl
  · rename_i msgType packet haccept
    refine .inr ⟨msgType, packet, haccept, ?_⟩
    split
    · exact discover_effect ..
    split
    · exact request_effect ..
    split
    · rename_i hmsg
      rw [hmsg]
      exact release_effect packet
    · exact .silent

end DhcpServer

/-! ## Rounds -/

/-- One round of a run of a server. -/
abbrev DhcpRound := Round DhcpServer DhcpEvent DhcpReply

/-- The message type that a reply carries. -/
def DhcpReply.msgType (reply : DhcpReply) : Option UInt8 :=
  (reply.packet.optionMap.lookup DhcpOptionType.msgType).map DhcpOption.msgType

namespace DhcpRound

/-- The round sends a message of the type `msgType` that gives the address `x` to the client `m`. -/
def Sends (msgType : UInt8) (x : Ipv4Addr) (m : MacAddr) (r : DhcpRound) : Prop :=
  ∃ reply ∈ r.out, reply.msgType = some msgType ∧ reply.packet.yourIpAddr = x ∧
    reply.packet.clientMacAddr = m

instance (msgType : UInt8) (x : Ipv4Addr) (m : MacAddr) (r : DhcpRound) :
    Decidable (Sends msgType x m r) :=
  inferInstanceAs (Decidable (∃ reply ∈ r.out, reply.msgType = some msgType ∧
    reply.packet.yourIpAddr = x ∧ reply.packet.clientMacAddr = m))

/-- The round processes a RELEASE of the client `m` with `ciaddr` `x`. -/
def Releases (x : Ipv4Addr) (m : MacAddr) (r : DhcpRound) : Prop :=
  ∃ alloc udpPayload udpSrcPort udpDstPort packet,
    r.event = .packet alloc udpPayload udpSrcPort udpDstPort ∧
    r.pre.accept udpPayload udpSrcPort udpDstPort = some (DhcpMsgType.release, packet) ∧
    packet.clientMacAddr = m ∧ packet.clientIpAddr = x

/-- The time is below `2 ^ 32 - 3600` and the clock does not go back. -/
def TimeOk (r : DhcpRound) : Prop :=
  r.pre.timeNow.toNat < 2 ^ 32 - 3600 ∧ ∀ t, r.event = .clock t → r.pre.timeNow ≤ t

end DhcpRound

/-- After a message of the type `msgType` for `x` to `m`, no OFFER and no ACK for `x` is sent to
another client within `period` seconds, unless `m` releases `x` in between. -/
def Exclusive (msgType : UInt8) (period : Nat) (rounds : List DhcpRound) : Prop :=
  ∀ l₁ r₁ l₂ r₂ l₃, rounds = l₁ ++ r₁ :: (l₂ ++ r₂ :: l₃) → ∀ x m m', m' ≠ m →
    DhcpRound.Sends msgType x m r₁ →
    (DhcpRound.Sends DhcpMsgType.offer x m' r₂ ∨ DhcpRound.Sends DhcpMsgType.ack x m' r₂) →
    r₂.pre.timeNow.toNat < r₁.pre.timeNow.toNat + period → ∃ r ∈ l₂, DhcpRound.Releases x m r

namespace DhcpServer

variable {macHash : MacAddr → UInt64} {s : DhcpServer}

theorem toNat_add_leaseTime (h : s.timeNow.toNat < 2 ^ 32 - 3600) :
    (s.timeNow + dhcpLeaseTime).toNat = s.timeNow.toNat + 3600 := by
  rw [UInt32.toNat_add, show dhcpLeaseTime.toNat = 3600 from rfl]
  omega

theorem toNat_add_offerTime (h : s.timeNow.toNat < 2 ^ 32 - 3600) :
    (s.timeNow + dhcpOfferTime).toNat = s.timeNow.toNat + 60 := by
  rw [UInt32.toNat_add, show dhcpOfferTime.toNat = 60 from rfl]
  omega

/-- The table has a record of `x` for `m`, whose formal lease ends at `a` or later and whose offer
ends at `b` or later. -/
def Held (x : Ipv4Addr) (m : MacAddr) (a b : Nat) (s : DhcpServer) : Prop :=
  ∃ lease, s.dhcpLeaseTable.lookup (ipAddrToU x) = some lease ∧ lease.macAddr = m ∧
    a ≤ lease.expTime.toNat ∧ b ≤ lease.offerExpTime.toNat

/-- Until the times `a` and `b` have come, the record is held. The bounds say that a lease or an
offer given now does not end earlier. -/
structure Protects (x : Ipv4Addr) (m : MacAddr) (a b : Nat) (s : DhcpServer) : Prop where
  lease_le : a ≤ s.timeNow.toNat + 3600
  offer_le : b ≤ s.timeNow.toNat + 60
  held : s.timeNow.toNat < a ∨ s.timeNow.toNat < b → Held x m a b s

variable {x : Ipv4Addr} {m : MacAddr} {a b : Nat} {msgType : UInt8} {packet : DhcpPkt}
  {res : DhcpServer × List DhcpReply} {reply : DhcpReply}

theorem Held.not_free (h : Held x m a b s)
    (hlive : s.timeNow.toNat < a ∨ s.timeNow.toNat < b) : ¬ s.Free (ipAddrToU x) := by
  obtain ⟨lease, hk, -, ha, hb⟩ := h
  intro hfree
  apply hfree lease hk
  unfold Live
  rw [UInt32.lt_iff_toNat_lt, UInt32.lt_iff_toNat_lt]
  omega

/-- A record stays held when the entry of its address does not change. -/
theorem Held.of_lookup_eq {s' : DhcpServer} (h : Held x m a b s)
    (heq : s'.dhcpLeaseTable.lookup (ipAddrToU x) = s.dhcpLeaseTable.lookup (ipAddrToU x)) :
    Held x m a b s' := by
  obtain ⟨lease, hk, hrest⟩ := h
  exact ⟨lease, heq.trans hk, hrest⟩

/-- A record of `x` for `m` that ends late enough and that the table gets is held. -/
theorem held_insert {k : UInt32} {lease : DhcpLease}
    (table : Table UInt32 DhcpLease) (hk : ipAddrToU x = k) (hm : lease.macAddr = m)
    (ha : a ≤ lease.expTime.toNat) (hb : b ≤ lease.offerExpTime.toNat) :
    Held x m a b (s.withTable (table.insert k lease)) := by
  subst hk
  exact ⟨lease, AList.lookup_insert table, hm, ha, hb⟩

/-- A packet does not change the time. -/
theorem Effect.timeNow_eq (h : s.Effect msgType packet res) : res.1.timeNow = s.timeNow := by
  cases h <;> rfl

/-- A packet keeps a held record, unless it is the RELEASE of its client. -/
theorem Effect.held (h : s.Effect msgType packet res)
    (hp : Protects x m a b s) (hlive : s.timeNow.toNat < a ∨ s.timeNow.toNat < b)
    (htime : s.timeNow.toNat < 2 ^ 32 - 3600)
    (hrel : ¬ (msgType = DhcpMsgType.release ∧ packet.clientMacAddr = m ∧
      packet.clientIpAddr = x)) :
    Held x m a b res.1 := by
  have hheld := hp.held hlive
  cases h with
  | silent => exact hheld
  | nak => exact hheld
  | dropped k table hfree htable =>
    have hne : ipAddrToU x ≠ k := fun heq => hheld.not_free hlive (heq ▸ hfree)
    exact hheld.of_lookup_eq (htable _ hne)
  | again k lease hk hmac =>
    by_cases heq : ipAddrToU x = k
    · -- the record of `x` gets a later offer
      obtain ⟨lease', hk', hm, ha, -⟩ := hheld
      obtain rfl : lease = lease' := Option.some_inj.mp (hk.symm.trans (heq ▸ hk'))
      exact held_insert _ heq hm ha (hp.offer_le.trans_eq (toNat_add_offerTime htime).symm)
    · exact hheld.of_lookup_eq (AList.lookup_insert_ne heq)
  | fresh k table hfree htable =>
    have hne : ipAddrToU x ≠ k := fun heq => hheld.not_free hlive (heq ▸ hfree)
    exact hheld.of_lookup_eq ((AList.lookup_insert_ne hne).trans (htable _ hne))
  | ack y dst lease hostName hk hmac =>
    by_cases heq : ipAddrToU x = ipAddrToU y
    · -- the record of `x` gets a later end
      obtain ⟨lease', hk', hm, -, hb⟩ := hheld
      obtain rfl : lease = lease' := Option.some_inj.mp (hk.symm.trans (heq ▸ hk'))
      exact held_insert _ heq hm (hp.lease_le.trans_eq (toNat_add_leaseTime htime).symm) hb
    · exact hheld.of_lookup_eq (AList.lookup_insert_ne heq)
  | released lease hmsg hk hmac =>
    have hne : ipAddrToU x ≠ ipAddrToU packet.clientIpAddr := by
      intro heq
      obtain ⟨lease', hk', hm, -, -⟩ := hheld
      obtain rfl : lease = lease' := Option.some_inj.mp (hk.symm.trans (heq ▸ hk'))
      exact hrel ⟨hmsg, hmac.symm.trans hm, (ipAddrToU_inj heq).symm⟩
    exact hheld.of_lookup_eq (AList.lookup_erase_ne hne)

/-- A packet offers and acknowledges a held address only to its client. -/
theorem Effect.sends_to {t : UInt8} (h : s.Effect msgType packet res)
    (hheld : Held x m a b s) (hlive : s.timeNow.toNat < a ∨ s.timeNow.toNat < b)
    (hreply : reply ∈ res.2) (ht : reply.msgType = some t)
    (hgrant : t = DhcpMsgType.offer ∨ t = DhcpMsgType.ack)
    (hx : reply.packet.yourIpAddr = x) : reply.packet.clientMacAddr = m := by
  cases h with
  | nak =>
    cases List.mem_singleton.mp hreply
    cases ht
    rcases hgrant with h | h <;> cases h
  | again k lease hk hmac =>
    cases List.mem_singleton.mp hreply
    obtain ⟨lease', hk', hm, -⟩ := hheld
    have hkey : ipAddrToU x = k := by rw [← hx]; exact ipAddrToU_uToIpAddr k
    rw [hkey, hk] at hk'
    cases hk'
    exact hmac.symm.trans hm
  | fresh k table hfree htable =>
    cases List.mem_singleton.mp hreply
    have hkey : ipAddrToU x = k := by rw [← hx]; exact ipAddrToU_uToIpAddr k
    exact absurd (hkey ▸ hfree) (hheld.not_free hlive)
  | ack y dst lease hostName hk hmac =>
    cases List.mem_singleton.mp hreply
    obtain ⟨lease', hk', hm, -⟩ := hheld
    cases hx
    rw [show (s.ackReply packet y dst).packet.yourIpAddr = y from rfl, hk] at hk'
    cases hk'
    exact hmac.symm.trans hm
  | _ => cases hreply

/-- An acknowledged address is held until the lease ends. -/
theorem Effect.protects_of_ack (h : s.Effect msgType packet res)
    (htime : s.timeNow.toNat < 2 ^ 32 - 3600) (hreply : reply ∈ res.2)
    (hack : reply.msgType = some DhcpMsgType.ack) :
    Protects reply.packet.yourIpAddr reply.packet.clientMacAddr (s.timeNow.toNat + 3600) 0
      res.1 := by
  have hnow := h.timeNow_eq
  refine ⟨by rw [hnow], Nat.zero_le _, fun _ => ?_⟩
  cases h with
  | silent => cases hreply
  | dropped => cases hreply
  | ack y dst lease hostName hk hmac =>
    cases List.mem_singleton.mp hreply
    exact held_insert _ rfl hmac (toNat_add_leaseTime htime).ge (Nat.zero_le _)
  | released => cases hreply
  | _ =>
    cases List.mem_singleton.mp hreply
    cases hack

/-- An offered address is held until the offer ends. -/
theorem Effect.protects_of_offer (h : s.Effect msgType packet res)
    (htime : s.timeNow.toNat < 2 ^ 32 - 3600) (hreply : reply ∈ res.2)
    (hoffer : reply.msgType = some DhcpMsgType.offer) :
    Protects reply.packet.yourIpAddr reply.packet.clientMacAddr 0 (s.timeNow.toNat + 60) res.1 := by
  have hnow := h.timeNow_eq
  refine ⟨Nat.zero_le _, by rw [hnow], fun _ => ?_⟩
  cases h with
  | silent => cases hreply
  | dropped => cases hreply
  | again k lease hk hmac =>
    cases List.mem_singleton.mp hreply
    exact held_insert _ (ipAddrToU_uToIpAddr k) hmac (Nat.zero_le _)
      (toNat_add_offerTime htime).ge
  | fresh k table hfree htable =>
    cases List.mem_singleton.mp hreply
    exact held_insert _ (ipAddrToU_uToIpAddr k) rfl (Nat.zero_le _) (toNat_add_offerTime htime).ge
  | released => cases hreply
  | _ =>
    cases List.mem_singleton.mp hreply
    cases hoffer

/-! ## Runs -/

/-- A round that sends something is a packet with an effect. -/
theorem effect_of_sends {r : DhcpRound} (hout : r.out = (r.pre.step macHash r.event).2)
    (hreply : reply ∈ r.out) :
    ∃ msgType packet, r.pre.Effect msgType packet (r.pre.step macHash r.event) := by
  rw [hout] at hreply
  cases hev : r.event with
  | packet alloc udpPayload udpSrcPort udpDstPort =>
    rw [hev] at hreply
    rcases rxDhcp_effect macHash r.pre alloc udpPayload udpSrcPort udpDstPort with
      hsilent | ⟨msgType, packet, -, heff⟩
    · simp only [step, hsilent, List.not_mem_nil] at hreply
    · exact ⟨msgType, packet, heff⟩
  | reorder table =>
    rw [hev] at hreply
    unfold step at hreply
    dsimp only at hreply
    split at hreply <;> cases hreply
  | _ =>
    rw [hev] at hreply
    cases hreply

/-- A sweep keeps a record that has not ended. -/
theorem Held.sweep (h : Held x m a b s)
    (hlive : s.timeNow.toNat < a ∨ s.timeNow.toNat < b) : Held x m a b s.dhcpLeaseClear := by
  obtain ⟨lease, hk, hm, ha, hb⟩ := h
  refine ⟨lease, ?_, hm, ha, hb⟩
  unfold dhcpLeaseClear
  rw [Table.lookup_sweep, hk, Option.filter_some, if_pos]
  simp only [Bool.not_eq_true', Bool.and_eq_false_iff, decide_eq_false_iff_not,
    UInt32.le_iff_toNat_le]
  omega

/-- A round keeps a protected record protected, unless its client releases the address. -/
theorem Protects.step {r : DhcpRound} (h : Protects x m a b r.pre) (htime : r.TimeOk)
    (hrel : ¬ r.Releases x m) : Protects x m a b (r.pre.step macHash r.event).1 := by
  obtain ⟨hbound, hclock⟩ := htime
  cases hev : r.event with
  | packet alloc udpPayload udpSrcPort udpDstPort =>
    rcases rxDhcp_effect macHash r.pre alloc udpPayload udpSrcPort udpDstPort with
      hsilent | ⟨msgType, packet, haccept, heff⟩
    · simp only [DhcpServer.step, hsilent]
      exact h
    · have hnow := heff.timeNow_eq
      refine ⟨hnow ▸ h.lease_le, hnow ▸ h.offer_le, fun hlive => ?_⟩
      refine heff.held h (hnow ▸ hlive) hbound fun ⟨hmsg, hm, hx⟩ => hrel ?_
      exact ⟨alloc, udpPayload, udpSrcPort, udpDstPort, packet, hev, hmsg ▸ haccept, hm, hx⟩
  | sweep => exact ⟨h.lease_le, h.offer_le, fun hlive => (h.held hlive).sweep hlive⟩
  | clock t =>
    have hle := UInt32.le_iff_toNat_le.mp (hclock t hev)
    refine ⟨h.lease_le.trans (Nat.add_le_add_right hle _),
      h.offer_le.trans (Nat.add_le_add_right hle _), fun hlive => ?_⟩
    exact (h.held (hlive.imp (lt_of_le_of_lt hle) (lt_of_le_of_lt hle))).of_lookup_eq rfl
  | dns addr => exact ⟨h.lease_le, h.offer_le, fun hlive => (h.held hlive).of_lookup_eq rfl⟩
  | reorder table =>
    unfold DhcpServer.step
    dsimp only
    split
    · rename_i hperm
      exact ⟨h.lease_le, h.offer_le, fun hlive =>
        (h.held hlive).of_lookup_eq (AList.perm_lookup hperm)⟩
    · exact h

/-- What a message protects, it protects until a later round that is early enough, unless the
client releases the address in between. -/
theorem released_of_sends {m' : MacAddr} {es : List DhcpEvent} {l₂ l₃ : List DhcpRound}
    {r₂ : DhcpRound} (hm : m' ≠ m) (htrace : trace (step macHash) s es = l₂ ++ r₂ :: l₃)
    (hp : Protects x m a b s) (htime : ∀ r ∈ l₂, DhcpRound.TimeOk r)
    (hsend : r₂.Sends DhcpMsgType.offer x m' ∨ r₂.Sends DhcpMsgType.ack x m')
    (hlive : r₂.pre.timeNow.toNat < a ∨ r₂.pre.timeNow.toNat < b) :
    ∃ r ∈ l₂, DhcpRound.Releases x m r := by
  obtain ⟨t, hgrant, reply, hreply, ht, hx, hm'⟩ : ∃ t : UInt8,
      (t = DhcpMsgType.offer ∨ t = DhcpMsgType.ack) ∧ r₂.Sends t x m' :=
    hsend.elim (fun h => ⟨_, .inl rfl, h⟩) fun h => ⟨_, .inr rfl, h⟩
  obtain ⟨-, -, -, -, -, hout, -⟩ := trace_split htrace
  rcases kept_until (R := DhcpRound.Releases x m) htrace hp
    fun r hr hI _ hrel => hI.step (htime r hr) hrel with hfound | hI
  · exact hfound
  · obtain ⟨msgType, packet, heff⟩ := effect_of_sends hout hreply
    exact absurd (hm'.symm.trans
      (heff.sends_to (hI.held hlive) hlive (hout ▸ hreply) ht hgrant hx)) hm

/-- Every run of a server, from any state and with any packets, keeps acknowledged addresses
exclusive for an hour and offered ones for a minute. -/
theorem dhcp_exclusive (macHash : MacAddr → UInt64) (s : DhcpServer) (es : List DhcpEvent)
    (htime : ∀ r ∈ trace (step macHash) s es, DhcpRound.TimeOk r) :
    Exclusive DhcpMsgType.ack 3600 (trace (step macHash) s es) ∧
      Exclusive DhcpMsgType.offer 60 (trace (step macHash) s es) := by
  constructor
  · rintro l₁ r₁ l₂ r₂ l₃ hcut x m m' hm ⟨reply, hreply, ht, rfl, rfl⟩ hsend hearly
    obtain ⟨_, es₂, -, -, -, hout, hrest⟩ := trace_split hcut
    obtain ⟨msgType, packet, heff⟩ := effect_of_sends hout hreply
    have hp := heff.protects_of_ack (htime r₁ (by simp [hcut])).1 (hout ▸ hreply) ht
    exact released_of_sends hm hrest.symm hp (fun r hr => htime r (by simp [hcut, hr])) hsend
      (.inl hearly)
  · rintro l₁ r₁ l₂ r₂ l₃ hcut x m m' hm ⟨reply, hreply, ht, rfl, rfl⟩ hsend hearly
    obtain ⟨_, es₂, -, -, -, hout, hrest⟩ := trace_split hcut
    obtain ⟨msgType, packet, heff⟩ := effect_of_sends hout hreply
    have hp := heff.protects_of_offer (htime r₁ (by simp [hcut])).1 (hout ▸ hreply) ht
    exact released_of_sends hm hrest.symm hp (fun r hr => htime r (by simp [hcut, hr])) hsend
      (.inr hearly)

/-- A message of the host with the last MAC byte `host` and the transaction id `host`. -/
def hostMessage (host msgType : UInt8) (options : Bytes) : Bytes :=
  [1, 1, 6, 0, 0, 0, 0, host] ++ List.replicate 20 0 ++ [2, 0, 0, 0, 0, host] ++
    List.replicate 202 0 ++ dhcpMagicCookie ++ [53, 1, msgType] ++ options ++ [0xff]

/-- A server `192.168.1.1/24` without leases. -/
def homeServer : DhcpServer where
  dhcpServerEnable := true
  ipAddr := #v[192, 168, 1, 1]
  networkMask := #v[255, 255, 255, 0]
  dnsServerAddr := #v[192, 168, 1, 1]
  dhcpLeaseTable := ∅
  timeNow := 100

/-- Host 7 gets `192.168.1.8`; ten seconds later host 9, whose search starts at the same address,
asks for one. -/
def twoHosts : List DhcpEvent :=
  [.packet ⟨true, true⟩ (hostMessage 7 1 []) 68 67,
    .packet ⟨true, true⟩ (hostMessage 7 3 [50, 4, 192, 168, 1, 8, 54, 4, 192, 168, 1, 1]) 68 67,
    .clock 110,
    .packet ⟨true, true⟩ (hostMessage 9 1 []) 68 67]

theorem dhcp_exclusive_twoHosts :
    (∃ r ∈ trace (step fun _ => 7) homeServer twoHosts,
      DhcpRound.Sends DhcpMsgType.ack #v[192, 168, 1, 8] #v[2, 0, 0, 0, 0, 7] r) ∧
    (∃ r ∈ trace (step fun _ => 7) homeServer twoHosts,
      DhcpRound.Sends DhcpMsgType.offer #v[192, 168, 1, 9] #v[2, 0, 0, 0, 0, 9] r) ∧
    Exclusive DhcpMsgType.ack 3600 (trace (step fun _ => 7) homeServer twoHosts) ∧
    Exclusive DhcpMsgType.offer 60 (trace (step fun _ => 7) homeServer twoHosts) := by
  refine ⟨by decide +kernel, by decide +kernel, dhcp_exclusive _ _ _ ?_⟩
  simp only [twoHosts, trace, List.forall_mem_cons]
  refine ⟨⟨by decide +kernel, fun t h => ?_⟩, ⟨by decide +kernel, fun t h => ?_⟩,
    ⟨by decide +kernel, fun t h => ?_⟩, ⟨by decide +kernel, fun t h => ?_⟩, by simp⟩
  · cases h
  · cases h
  · cases h
    decide +kernel
  · cases h

end DhcpServer

end Halo
