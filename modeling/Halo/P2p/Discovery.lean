import Halo.P2p.Punch

/-!
# Discovery of the public endpoint

`ServeDiscovery` answers a request with the address that it came from, which is how a client behind
NAT learns its public endpoint. `Discover` has the variables of `DiscoverEndpoint`; the clock, the
errors of the connection and the end of the context are inputs of a round of its loop. The network
loses, delays, repeats and misdelivers datagrams, and anyone may send some, but nobody else sends
from the address of the server (`endpoint_observed`).
-/

namespace Halo.P2p

variable {packet data : Bytes} {source server : UDPAddr} {id : UInt32}

structure DiscoveryPacket where
  packetType : UInt8
  transactionID : UInt32
  publicIP : Bytes
  publicPort : UInt16

def buildDiscoveryRequest (transactionID : UInt32) : Bytes := [0x48, 0x44, 1] ++ be32 transactionID

/-- `buildDiscoveryResponse`; there is no result for `nil`. -/
def buildDiscoveryResponse (transactionID : UInt32) (publicIP : Bytes) (publicPort : UInt16) :
    Option Bytes :=
  (to4 publicIP <|> to16 publicIP).map fun address =>
    [0x48, 0x44, 2] ++ be32 transactionID ++ address ++ be16 publicPort

/-- `parseDiscoveryPacket`; there is no result for `errInvalidPacket`. -/
def parseDiscoveryPacket (packet : Bytes) : Option DiscoveryPacket :=
  if packet.length < 3 ∨ byteAt packet 0 ≠ 0x48 ∨ byteAt packet 1 ≠ 0x44 then none
  else if byteAt packet 2 = 1 then
    if packet.length ≠ 7 then none else some ⟨1, u32At packet 3, [], 0⟩
  else if byteAt packet 2 = 2 then
    if packet.length ≠ 13 ∧ packet.length ≠ 25 then none
    else
      let addressEnd := packet.length - 2
      some ⟨2, u32At packet 3, (packet.take addressEnd).drop 7, wordAt packet addressEnd⟩
  else none

/-- The address in a response is one of the two forms without loss. -/
theorem address_spec {ip address : Bytes} (h : (to4 ip <|> to16 ip) = some address) :
    address = canonical ip ∧ (address.length = 4 ∨ address.length = 16) := by
  cases h4 : to4 ip with
  | some a =>
    rw [h4] at h
    cases h
    refine ⟨by rw [canonical, h4]; rfl, .inl ?_⟩
    unfold to4 at h4
    split at h4
    · rename_i hlen
      cases h4
      exact hlen
    · split at h4
      · rename_i hlen
        cases h4
        rw [List.length_drop, hlen.1]
      · cases h4
  | none =>
    have h : to16 ip = some address := by rwa [h4] at h
    unfold to16 at h
    split at h
    · rename_i hlen
      rw [to4_of_length hlen] at h4
      cases h4
    · split at h
      · rename_i hlen
        cases h
        exact ⟨by rw [canonical, h4]; rfl, .inr hlen⟩
      · cases h

theorem parseDiscoveryPacket_response {ip : Bytes} {port : UInt16}
    (h : buildDiscoveryResponse id ip port = some packet) :
    packet.length ≤ 25 ∧ parseDiscoveryPacket packet = some ⟨2, id, canonical ip, port⟩ := by
  obtain ⟨address, haddress, rfl⟩ := Option.map_eq_some_iff.mp h
  obtain ⟨rfl, hlen⟩ := address_spec haddress
  generalize canonical ip = address at hlen
  generalize hpacket : [0x48, 0x44, 2] ++ be32 id ++ address ++ be16 port = packet
  have hlength : packet.length = 9 + address.length := by
    subst hpacket
    simp [be32, be16]
    omega
  have hid : u32At packet 3 = id := by
    subst hpacket
    exact ofBe32_be32 id
  have hport : wordAt packet (packet.length - 2) = port := by
    subst hpacket
    rw [List.length_append, show (be16 port).length = 2 from rfl, Nat.add_sub_cancel]
    exact (wordAt_append_right 0).trans (ofBe16_be16 port)
  have hip : (packet.take (packet.length - 2)).drop 7 = address := by
    subst hpacket
    rw [List.length_append, show (be16 port).length = 2 from rfl, Nat.add_sub_cancel,
      List.take_left]
    rfl
  obtain ⟨hmagic, hmagic', htype⟩ : byteAt packet 0 = 0x48 ∧ byteAt packet 1 = 0x44 ∧
      byteAt packet 2 = 2 := by
    subst hpacket
    exact ⟨rfl, rfl, rfl⟩
  have hshort : ¬ (packet.length < 3 ∨ byteAt packet 0 ≠ 0x48 ∨ byteAt packet 1 ≠ 0x44) := by
    simp only [hmagic, hmagic', ne_eq, not_true_eq_false, or_false]
    omega
  have hsize : ¬ (packet.length ≠ 13 ∧ packet.length ≠ 25) := by omega
  refine ⟨by omega, ?_⟩
  rw [parseDiscoveryPacket, if_neg hshort, if_neg (by rw [htype]; decide), if_pos htype,
    if_neg hsize]
  simp only [hid, hport, hip]

/-- A packet of the type of a request is one. -/
theorem parseDiscoveryPacket_request {p : DiscoveryPacket}
    (h : parseDiscoveryPacket packet = some p) (htype : p.packetType = 1) :
    p = ⟨1, p.transactionID, [], 0⟩ := by
  unfold parseDiscoveryPacket at h
  split at h
  · cases h
  split at h
  · split at h
    · cases h
    · cases h
      rfl
  · split at h
    · split at h
      · cases h
      · cases h
        cases htype
    · cases h

/-- A round of `ServeDiscovery`: the response to a datagram, which goes to its source. -/
def serveDiscovery (data : Bytes) (source : UDPAddr) : Option Bytes :=
  match parseDiscoveryPacket (data.take 64) with
  | none => none
  | some request =>
    if request.packetType ≠ 1 then none
    else buildDiscoveryResponse request.transactionID source.ip (.ofNat source.port)

theorem serveDiscovery_some (h : serveDiscovery packet source = some data) :
    ∃ id, parseDiscoveryPacket (packet.take 64) = some ⟨1, id, [], 0⟩ ∧ data.length ≤ 25 ∧
      parseDiscoveryPacket data = some ⟨2, id, canonical source.ip, .ofNat source.port⟩ := by
  unfold serveDiscovery at h
  split at h
  · cases h
  rename_i request hrequest
  split at h
  · cases h
  rename_i htype
  refine ⟨request.transactionID, ?_, parseDiscoveryPacket_response h⟩
  rw [hrequest, ← parseDiscoveryPacket_request hrequest (not_not.mp htype)]

inductive DiscoverError where
  | context
  | writeRequest
  | setReadDeadline
  | readResponse
  | resetReadDeadline

/-- The inputs of a round but for what it reads. -/
structure DiscoverEnv where
  contextDone : Bool
  now : Nat
  writeFails : Bool
  setDeadlineFails : Bool
  resetDeadlineFails : Bool

structure Discover where
  server : UDPAddr
  transactionID : UInt32
  nextSend : Nat
  result : Option (Except DiscoverError UDPAddr)

/-- `discoveryRetryInterval` in milliseconds. -/
def discoveryRetryInterval : Nat := 500

/-- `normalizeDiscoveryAddr` has the body of `normalizePunchAddr`. -/
def normalizeDiscoveryAddr (addr : UDPAddr) : Except String UDPAddr := normalizePunchAddr addr

namespace Discover

/-- `DiscoverEndpoint` up to its loop. -/
def newDiscover (server : UDPAddr) (transactionID : UInt32) (now : Nat) : Except String Discover :=
  match normalizeDiscoveryAddr server with
  | .error e => .error ("p2p: invalid discovery server: " ++ e)
  | .ok server => .ok ⟨server, transactionID, now, none⟩

/-- How a round ends; `none` is the next round. Only a return without an error shows that the
deadline is not reset. -/
def outcome (d : Discover) (env : DiscoverEnv) (input : ReadResult) :
    Option (Except DiscoverError UDPAddr) :=
  if env.contextDone then some (.error .context)
  else if d.nextSend ≤ env.now ∧ env.writeFails then some (.error .writeRequest)
  else if env.setDeadlineFails then some (.error .setReadDeadline)
  else
    match input with
    | .nothing => none
    | .failed => some (.error .readResponse)
    | .packet data source =>
      if source.string ≠ d.server.string then none
      else
        match parseDiscoveryPacket (data.take 64) with
        | none => none
        | some response =>
          if response.packetType ≠ 2 ∨ response.transactionID ≠ d.transactionID ∨
            response.publicPort = 0 then none
          else if env.resetDeadlineFails then some (.error .resetReadDeadline)
          else some (.ok ⟨response.publicIP, response.publicPort.toNat, ""⟩)

/-- A round of the loop, with the datagrams that it sends. -/
def round (d : Discover) (env : DiscoverEnv) (input : ReadResult) : Discover × List Datagram :=
  if d.result.isSome then (d, [])
  else
    let sends := ¬ env.contextDone ∧ d.nextSend ≤ env.now ∧ ¬ env.writeFails
    ({ d with
        nextSend := if sends then env.now + discoveryRetryInterval else d.nextSend
        result := d.outcome env input },
      if sends then [(buildDiscoveryRequest d.transactionID, d.server)] else [])

/-- A run ends with an endpoint only for a response of the server with its transaction. -/
theorem outcome_ok {d : Discover} {env : DiscoverEnv} {input : ReadResult} {endpoint : UDPAddr}
    (h : d.outcome env input = some (.ok endpoint)) :
    ∃ data source ip port, input = .packet data source ∧ source.string = d.server.string ∧
      parseDiscoveryPacket (data.take 64) = some ⟨2, d.transactionID, ip, port⟩ ∧
      endpoint = ⟨ip, port.toNat, ""⟩ := by
  unfold outcome at h
  -- the errors before the read
  split at h
  · cases h
  split at h
  · cases h
  split at h
  · cases h
  cases input with
  | nothing => cases h
  | failed => cases h
  | packet data source =>
    dsimp only at h
    split at h
    · cases h
    rename_i hsource
    split at h
    · cases h
    rename_i response hparse
    split at h
    · cases h
    rename_i hmatch
    rw [not_or, not_or, not_not, not_not] at hmatch
    obtain ⟨htype, hid, -⟩ := hmatch
    split at h
    · cases h
    cases h
    refine ⟨data, source, response.publicIP, response.publicPort, rfl, not_not.mp hsource, ?_, rfl⟩
    rw [hparse, ← htype, ← hid]

end Discover

/-- A client, and all datagrams that the server has read. -/
structure DiscoverNet where
  client : Discover
  served : List Datagram

namespace DiscoverNet

variable {s : DiscoverNet} {d : Discover} {endpoint : UDPAddr}

/-- What comes from the address of the server is a response of the server, to anyone. -/
def Genuine (s : DiscoverNet) (input : ReadResult) : Prop :=
  ∀ data source, input = .packet data source → source.string = s.client.server.string →
    ∃ q ∈ s.served, serveDiscovery q.1 q.2 = some data

/-- What can be reached from the start of a client. -/
inductive Reach (d : Discover) : DiscoverNet → Prop
  | start : Reach d ⟨d, []⟩
  | serve {s : DiscoverNet} (data : Bytes) (source : UDPAddr) : Reach d s →
      Reach d { s with served := (data, source) :: s.served }
  | round {s : DiscoverNet} (env : DiscoverEnv) (input : ReadResult) : Reach d s → s.Genuine input →
      Reach d { s with client := (s.client.round env input).1 }

/-- The server has read a request with the transaction from the endpoint. -/
def Observed (s : DiscoverNet) (id : UInt32) (endpoint : UDPAddr) : Prop :=
  ∃ data source, (data, source) ∈ s.served ∧
    parseDiscoveryPacket (data.take 64) = some ⟨1, id, [], 0⟩ ∧
    endpoint = ⟨canonical source.ip, source.port % 65536, ""⟩

/-- The endpoint that a client returns is one that the server saw a request with its transaction
come from. -/
theorem endpoint_observed {now : Nat} (hd : Discover.newDiscover server id now = .ok d)
    (hs : Reach d s) (h : s.client.result = some (.ok endpoint)) : s.Observed id endpoint := by
  have hnew : d.transactionID = id ∧ d.result = none := by
    unfold Discover.newDiscover at hd
    split at hd <;> cases hd
    exact ⟨rfl, rfl⟩
  suffices hinv : s.client.transactionID = id ∧
      ∀ endpoint, s.client.result = some (.ok endpoint) → s.Observed id endpoint from
    hinv.2 endpoint h
  clear h
  induction hs with
  | start =>
    refine ⟨hnew.1, fun endpoint h => ?_⟩
    rw [hnew.2] at h
    cases h
  | serve data source _ ih =>
    refine ⟨ih.1, fun endpoint h => ?_⟩
    obtain ⟨data', source', hmem, hrest⟩ := ih.2 endpoint h
    exact ⟨data', source', List.mem_cons_of_mem _ hmem, hrest⟩
  | @round s env input _ hgenuine ih =>
    unfold Discover.round
    split
    · exact ih
    refine ⟨ih.1, fun endpoint h => ?_⟩
    obtain ⟨data, source, ip, port, hinput, hsource, hparse, rfl⟩ := Discover.outcome_ok h
    obtain ⟨q, hmem, hserve⟩ := hgenuine data source hinput hsource
    obtain ⟨id', hrequest, hlen, hresponse⟩ := serveDiscovery_some hserve
    rw [List.take_of_length_le (by omega), hresponse] at hparse
    cases hparse
    rw [ih.1] at hrequest
    exact ⟨q.1, q.2, hmem, hrequest, rfl⟩

/-- A client behind NAT. -/
theorem endpoint_observed_nat : ∃ d s,
    Discover.newDiscover ⟨[8, 8, 8, 8], 9, ""⟩ 7 0 = .ok d ∧ Reach d s ∧
    s.Observed 7 ⟨[9, 9, 9, 9], 5353, ""⟩ := by
  let d : Discover := ⟨⟨[8, 8, 8, 8], 9, ""⟩, 7, 0, none⟩
  have hd : Discover.newDiscover d.server 7 0 = .ok d := rfl
  have hs := (Reach.start (d := d)).serve (buildDiscoveryRequest 7) ⟨[9, 9, 9, 9], 5353, ""⟩
  have hs' := hs.round ⟨false, 0, false, false, false⟩
    (.packet [0x48, 0x44, 2, 0, 0, 0, 7, 9, 9, 9, 9, 20, 233] d.server) (by
      rintro data source ⟨⟩ -
      exact ⟨_, List.mem_singleton_self _, by decide⟩)
  exact ⟨d, _, hd, hs', endpoint_observed hd hs' rfl⟩

end DiscoverNet

end Halo.P2p
