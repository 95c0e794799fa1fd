import Halo.Base.Fields
import Halo.Protocol.Dhcp

/-!
# The round trip of DHCP messages (`protocol/dhcp.go`)

The encoder writes each option as its type, a length and the data, and an end mark behind the last
one. The parser walks over the options, in whatever order they are, and skips by their lengths those
that it does not know. Router, DNS server and server identifier are written from `ServerIpAddr` and
read into `IpAddr`.

* `DhcpOption.delivered`: what the receiver gets of an option.
* `encodeDhcpOption_tlv`: an option that is written has the data from which the parser makes that.
* `parseDhcpOptionLoop_build`: the walk stores the options one by one.
* `dhcp_round_trip`: the parser returns the fields and the delivered options, for every order.
-/

namespace Halo

/-- What the receiver gets of an option: the mask, the address or the message type of a known
one. -/
def DhcpOption.delivered (o : DhcpOption) : Option DhcpOption :=
  if o.type = DhcpOptionType.subnetMask then some { type := o.type, subnetMask := o.subnetMask }
  else if o.type = DhcpOptionType.router ∨ o.type = DhcpOptionType.domainNameServer ∨
      o.type = DhcpOptionType.serverIdentifier then
    some { type := o.type, ipAddr := o.serverIpAddr }
  else if o.type = DhcpOptionType.reqIpAddr then some { type := o.type, ipAddr := o.ipAddr }
  else if o.type = DhcpOptionType.msgType then some { type := o.type, msgType := o.msgType }
  else none

/-! ## One option -/

/-- The bytes are an option of the type `code` that the parser reads as `value`. -/
structure IsTlv (code : UInt8) (value : Option DhcpOption) (bytes : Bytes) : Prop where
  ne_end : code ≠ 0xff
  ne_pad : code ≠ 0
  split : ∃ (length : UInt8) (data : Bytes),
    bytes = code :: length :: data ∧ data.length = length.toNat ∧ dhcpOptionValue code data = value

theorem vecAt_toList_zero (a : Vector UInt8 n) : vecAt n a.toList 0 = a := by
  simpa using vecAt_append [] [] a

theorem isTlv_of {code length : UInt8} {value : Option DhcpOption} {data : Bytes}
    (hcode : code ≠ 0xff ∧ code ≠ 0) (hlen : data.length = length.toNat)
    (hvalue : dhcpOptionValue code data = value) : IsTlv code value (code :: length :: data) :=
  ⟨hcode.1, hcode.2, length, data, rfl, hlen, hvalue⟩

section

open DhcpOptionType

theorem dhcpOptionValue_subnetMask (a : Ipv4Addr) :
    dhcpOptionValue subnetMask a.toList = some { type := subnetMask, subnetMask := a } := by
  simp [dhcpOptionValue, vecAt_toList_zero]

/-- The options that carry an address. -/
theorem dhcpOptionValue_addr {code : UInt8}
    (h : code = router ∨ code = domainNameServer ∨ code = reqIpAddr ∨ code = serverIdentifier)
    (a : Ipv4Addr) : dhcpOptionValue code a.toList = some { type := code, ipAddr := a } := by
  rcases h with rfl | rfl | rfl | rfl <;>
    simp [dhcpOptionValue, vecAt_toList_zero, subnetMask, router, domainNameServer, reqIpAddr,
      serverIdentifier, hostName]

/-- The options that are written and that the parser does not know. -/
theorem dhcpOptionValue_skipped {code : UInt8}
    (h : code = ipAddrLeaseTime ∨ code = renewalTimeValue ∨
    code = rebindingTimeValue ∨ code = parameterRequestList ∨ code = clientIdentifier)
      (data : Bytes) :
    dhcpOptionValue code data = none := by
  rcases h with rfl | rfl | rfl | rfl | rfl <;> rfl

/-- One case of the encoder. -/
theorem encode_ite {type code : UInt8} {value : Option DhcpOption} {bytes rest : Bytes}
    (hcase : type = code → IsTlv type value bytes)
    (hrest : type ≠ code → rest = [] ∧ value = none ∨ IsTlv type value rest) :
    (if type = code then bytes else rest) = [] ∧ value = none ∨
      IsTlv type value (if type = code then bytes else rest) := by
  split
  · exact .inr (hcase ‹_›)
  · exact hrest ‹_›

/-- An option is not written, or with the data that the parser makes its value from. -/
theorem encodeDhcpOption_tlv (o : DhcpOption) :
    encodeDhcpOption o = [] ∧ o.delivered = none ∨
      IsTlv o.type o.delivered (encodeDhcpOption o) := by
  obtain ⟨type, _, _, _, _, _, _, _⟩ := o
  -- the cases of the encoder, in its order
  unfold encodeDhcpOption
  dsimp only
  refine encode_ite ?_ fun hmask => encode_ite ?_ fun hrouter => encode_ite ?_ fun hdns =>
    encode_ite ?_ fun hreq => encode_ite ?_ fun _ => encode_ite ?_ fun hmsg =>
    encode_ite ?_ fun hserver => encode_ite ?_ fun _ => encode_ite ?_ fun _ =>
      encode_ite ?_ fun _ =>
    encode_ite ?_ fun _ => .inl ⟨rfl, ?_⟩
  · rintro rfl
    exact isTlv_of (by decide) (by simp) (dhcpOptionValue_subnetMask _)
  · rintro rfl
    exact isTlv_of (by decide) (by simp) (dhcpOptionValue_addr (by simp) _)
  · rintro rfl
    exact isTlv_of (by decide) (by simp) (dhcpOptionValue_addr (by simp) _)
  · rintro rfl
    exact isTlv_of (by decide) (by simp) (dhcpOptionValue_addr (by simp) _)
  · rintro rfl
    exact isTlv_of (by decide) rfl (dhcpOptionValue_skipped (by simp) _)
  · rintro rfl
    exact isTlv_of (by decide) rfl rfl
  · rintro rfl
    exact isTlv_of (by decide) (by simp) (dhcpOptionValue_addr (by simp) _)
  · rintro rfl
    exact isTlv_of (by decide) rfl (dhcpOptionValue_skipped (by simp) _)
  · rintro rfl
    exact isTlv_of (by decide) rfl (dhcpOptionValue_skipped (by simp) _)
  · rintro rfl
    exact isTlv_of (by decide) rfl (dhcpOptionValue_skipped (by simp) _)
  · rintro rfl
    exact isTlv_of (by decide) (by simp) (dhcpOptionValue_skipped (by simp) _)
  · simp [DhcpOption.delivered, hmask, hrouter, hdns, hserver, hreq, hmsg]

end

/-! ## The walk over the options -/

/-- What the parser does with the value of an option. -/
def storeOption (m : Table UInt8 DhcpOption) (code : UInt8) :
    Option DhcpOption → Table UInt8 DhcpOption
  | some o => m.insert code o
  | none => m

/-- A round over one option leaves the bytes behind it. -/
theorem parseDhcpOptionLoop_tlv {code : UInt8} {value : Option DhcpOption} {bytes : Bytes}
    (h : IsTlv code value bytes) (fuel : Nat) (rest : Bytes) (m : Table UInt8 DhcpOption) :
    parseDhcpOptionLoop (fuel + 1) (bytes ++ rest) m =
      parseDhcpOptionLoop fuel rest (storeOption m code value) := by
  obtain ⟨hend, hpad, length, data, rfl, hlen, rfl⟩ := h
  rw [List.cons_append, List.cons_append, parseDhcpOptionLoop, if_neg hend, if_neg hpad]
  dsimp only
  rw [if_neg (by simp [hlen]), ← hlen, List.take_left, List.drop_left]
  cases dhcpOptionValue code data <;> rfl

/-- The walk stores the options in their order. The induction is on the order; the fuel covers the
bytes that are left. -/
theorem parseDhcpOptionLoop_build (order : List (Σ _ : UInt8, DhcpOption)) (fuel : Nat)
    (m : Table UInt8 DhcpOption) (hfuel : (buildDhcpOption order).length ≤ fuel) :
    parseDhcpOptionLoop fuel (buildDhcpOption order) m =
      order.foldl (fun m e => storeOption m e.2.type e.2.delivered) m := by
  induction order generalizing fuel m with
  | nil =>
    obtain _ | fuel := fuel
    · cases hfuel
    · rfl
  | cons e order ih =>
    have hcons : buildDhcpOption (e :: order) = encodeDhcpOption e.2 ++ buildDhcpOption order := by
      simp [buildDhcpOption]
    rw [hcons] at hfuel ⊢
    rw [List.foldl_cons]
    rcases encodeDhcpOption_tlv e.2 with ⟨hempty, hnone⟩ | htlv
    · rw [hempty] at hfuel ⊢
      rw [hnone]
      exact ih fuel m hfuel
    · obtain ⟨length, data, hbytes, -, -⟩ := htlv.split
      rw [hbytes, List.length_append, List.length_cons] at hfuel
      obtain _ | fuel := fuel
      · omega
      · rw [parseDhcpOptionLoop_tlv htlv]
        exact ih fuel _ (by omega)

/-- The stored options, by their types. -/
theorem lookup_foldl_storeOption {order : List (Σ _ : UInt8, DhcpOption)} (hnodup : order.NodupKeys)
    (hkeys : ∀ e ∈ order, e.2.type = e.1) (m : Table UInt8 DhcpOption) (k : UInt8) :
    (order.foldl (fun m e => storeOption m e.2.type e.2.delivered) m).lookup k =
      ((order.dlookup k).bind DhcpOption.delivered).or (m.lookup k) := by
  induction order generalizing m with
  | nil => simp
  | cons e order ih =>
    obtain ⟨k', o⟩ := e
    obtain ⟨hnew, hrest⟩ := List.nodupKeys_cons.mp hnodup
    obtain ⟨htype, hkeys'⟩ := List.forall_mem_cons.mp hkeys
    obtain rfl : o.type = k' := htype
    rw [List.foldl_cons, ih hrest hkeys']
    by_cases hk : k = o.type
    · subst hk
      rw [List.dlookup_cons_eq, List.dlookup_eq_none.mpr hnew]
      cases ho : o.delivered <;> simp [storeOption, ho]
    · rw [List.dlookup_cons_ne _ _ hk]
      cases o.delivered with
      | none => rfl
      | some d => rw [storeOption, AList.lookup_insert_ne hk]

/-- The options come back as they are delivered, for every order of the iteration. -/
theorem lookup_parseDhcpOption_build {m : Table UInt8 DhcpOption}
    {order : List (Σ _ : UInt8, DhcpOption)} (hkeys : ∀ k o, m.lookup k = some o → o.type = k)
    (horder : order.Perm m.entries) (k : UInt8) :
    (parseDhcpOption (buildDhcpOption order)).lookup k =
      (m.lookup k).bind DhcpOption.delivered := by
  have hnodup : order.NodupKeys := (List.perm_nodupKeys horder).mpr m.nodupKeys
  have htypes : ∀ e ∈ order, e.2.type = e.1 := by
    intro e he
    exact hkeys e.1 e.2 (AList.mem_lookup_iff.mpr (horder.subset he))
  have hlookup : order.dlookup k = m.lookup k := List.perm_dlookup k hnodup horder
  rw [parseDhcpOption, parseDhcpOptionLoop_build order _ _ le_rfl,
    lookup_foldl_storeOption hnodup htypes, hlookup]
  simp

/-! ## The message -/

/-- The fixed part of a message, up to the options. -/
def dhcpHead (packet : DhcpPkt) : Bytes :=
  [packet.bootMsgType, 0x01, 0x06, 0x00] ++ packet.transactionId ++ [0x00, 0x00] ++ [0x80, 0x00] ++
    packet.clientIpAddr.toList ++ packet.yourIpAddr.toList ++ [0x00, 0x00, 0x00, 0x00] ++
    [0x00, 0x00, 0x00, 0x00] ++ packet.clientMacAddr.toList ++ List.replicate 10 0 ++
    List.replicate 64 0 ++ List.replicate 128 0 ++ dhcpMagicCookie

theorem buildDhcpPkt_eq {packet : DhcpPkt} (hid : packet.transactionId.length = 4)
    (order : List (Σ _ : UInt8, DhcpOption)) :
    buildDhcpPkt [] packet order = .ok (dhcpHead packet ++ buildDhcpOption order) := by
  rw [buildDhcpPkt, if_neg (not_not.mpr hid)]
  rfl

theorem length_dhcpHead {packet : DhcpPkt} (hid : packet.transactionId.length = 4) :
    (dhcpHead packet).length = 240 := by
  simp only [dhcpHead, List.length_append, List.length_cons, List.length_nil, List.length_replicate,
    Vector.length_toList, hid, dhcpMagicCookie]

/-- The parser finds the fields of the fixed part, and the options behind it. -/
theorem parseDhcpPkt_head {packet : DhcpPkt} (hid : packet.transactionId.length = 4)
    (options : Bytes) :
    parseDhcpPkt (dhcpHead packet ++ options) =
      .ok { packet with optionMap := parseDhcpOption options } := by
  have hlen := length_dhcpHead hid
  have hcookie : ((dhcpHead packet ++ options).drop 236).take 4 = dhcpMagicCookie := by
    obtain ⟨fields, hhead⟩ : ∃ fields, dhcpHead packet = fields ++ dhcpMagicCookie := ⟨_, rfl⟩
    have hfields : fields.length = 236 := by simpa [hhead, dhcpMagicCookie] using hlen
    rw [hhead, List.append_assoc, List.drop_left' hfields]
    rfl
  obtain ⟨bootMsgType, transactionId, clientIpAddr, yourIpAddr, clientMacAddr, optionMap⟩ := packet
  dsimp only at hid
  obtain ⟨t₀, _, hcons, hrest⟩ := List.length_eq_succ_iff.mp hid
  obtain ⟨t₁, t₂, t₃, rfl⟩ := List.length_eq_three.mp hrest
  subst hcons
  obtain ⟨c₀, c₁, c₂, c₃, rfl⟩ := clientIpAddr.exists_bytes
  obtain ⟨y₀, y₁, y₂, y₃, rfl⟩ := yourIpAddr.exists_bytes
  obtain ⟨m₀, m₁, m₂, m₃, m₄, m₅, rfl⟩ := clientMacAddr.exists_bytes
  obtain ⟨rest, hpkt⟩ : ∃ rest, dhcpHead ⟨bootMsgType, [t₀, t₁, t₂, t₃], #v[c₀, c₁, c₂, c₃],
      #v[y₀, y₁, y₂, y₃], #v[m₀, m₁, m₂, m₃, m₄, m₅], optionMap⟩ ++ options =
      bootMsgType :: 1 :: 6 :: 0 :: t₀ :: t₁ :: t₂ :: t₃ :: 0 :: 0 :: 0x80 :: 0 ::
      c₀ :: c₁ :: c₂ :: c₃ :: y₀ :: y₁ :: y₂ :: y₃ :: 0 :: 0 :: 0 :: 0 :: 0 :: 0 :: 0 :: 0 ::
      m₀ :: m₁ :: m₂ :: m₃ :: m₄ :: m₅ :: rest := by
    simp only [dhcpHead, List.append_assoc]
    exact ⟨_, rfl⟩
  rw [parseDhcpPkt, if_neg (by simp [hlen]), if_neg (not_not.mpr hcookie),
    List.drop_left' hlen, hpkt]
  rfl

/-- The round trip of a message. -/
theorem dhcp_round_trip (packet : DhcpPkt)
    (hkeys : ∀ k o, packet.optionMap.lookup k = some o → o.type = k)
    (order : List (Σ _ : UInt8, DhcpOption)) (horder : order.Perm packet.optionMap.entries) :
    (packet.transactionId.length = 4 → ∃ pkt result, buildDhcpPkt [] packet order = .ok pkt ∧
      parseDhcpPkt pkt = .ok result ∧ result.bootMsgType = packet.bootMsgType ∧
      result.transactionId = packet.transactionId ∧ result.clientIpAddr = packet.clientIpAddr ∧
      result.yourIpAddr = packet.yourIpAddr ∧ result.clientMacAddr = packet.clientMacAddr ∧
      ∀ k, result.optionMap.lookup k = (packet.optionMap.lookup k).bind DhcpOption.delivered) ∧
    (packet.transactionId.length ≠ 4 →
      buildDhcpPkt [] packet order = .error "transaction id len is not 4 bytes") := by
  constructor
  · intro hid
    exact ⟨_, _, buildDhcpPkt_eq hid order, parseDhcpPkt_head hid _, rfl, rfl, rfl, rfl, rfl,
      lookup_parseDhcpOption_build hkeys horder⟩
  · intro hid
    rw [buildDhcpPkt, if_pos hid]

/-- An OFFER with a router, a lease time and the message type. -/
def sampleOffer : DhcpPkt where
  bootMsgType := dhcpBootMsgTypeReply
  transactionId := [1, 2, 3, 4]
  yourIpAddr := #[192, 168, 1, 8].toVector
  clientMacAddr := #[2, 0, 0, 0, 0, 7].toVector
  optionMap := (∅ : Table UInt8 DhcpOption)
    |>.insert DhcpOptionType.msgType
      { type := DhcpOptionType.msgType, msgType := DhcpMsgType.offer }
    |>.insert DhcpOptionType.ipAddrLeaseTime
      { type := DhcpOptionType.ipAddrLeaseTime, timeValue := 3600 }
    |>.insert DhcpOptionType.router
      { type := DhcpOptionType.router, serverIpAddr := #[192, 168, 1, 1].toVector }

/-- The options are written in the order in which they were added, which is not that of the
table. -/
theorem dhcp_round_trip_sampleOffer :
    ∃ pkt result, buildDhcpPkt [] sampleOffer sampleOffer.optionMap.entries.reverse = .ok pkt ∧
      parseDhcpPkt pkt = .ok result ∧ result.yourIpAddr = #v[192, 168, 1, 8] ∧
      result.optionMap.lookup DhcpOptionType.router =
        some { type := DhcpOptionType.router, ipAddr := #v[192, 168, 1, 1] } ∧
      result.optionMap.lookup DhcpOptionType.ipAddrLeaseTime = none := by
  have hkeys : ∀ e ∈ sampleOffer.optionMap.entries, e.2.type = e.1 := by decide +kernel
  obtain ⟨pkt, result, hbuild, hparse, -, -, -, hyour, -, hoptions⟩ :=
    (dhcp_round_trip sampleOffer (fun k o h => hkeys ⟨k, o⟩ (AList.mem_lookup_iff.mp h)) _
      (List.reverse_perm _)).1 rfl
  refine ⟨pkt, result, hbuild, hparse, hyour, ?_, ?_⟩
  · rw [hoptions]
    decide +kernel
  · rw [hoptions]
    decide +kernel

end Halo
