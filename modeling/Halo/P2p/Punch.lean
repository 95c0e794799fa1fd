import Halo.Base.Fields
import Halo.Base.Table

/-!
# Hole punching

`punch` sends CHECK packets to the candidate ports of a peer, selects the source of the first
CHECK_ACK and confirms it with CONFIRM and CONFIRM_ACK; it returns when both directions are
confirmed and some time has passed. `PunchRun` has the variables of a run. A round of its loop is in
two parts: `send` up to the read, and `receive` for what the read gives. A CONFIRM has a third part,
`record`: `punch` writes the CONFIRM_ACK before it sets `peerConfirmed`, so the peer may get the one
before the other is done. The clock, the errors of the connection and the end of the context are
inputs of the parts.

* `parsePunchPacket_build`: a packet is read back as it was built.
* `normalizePunchAddr_ok`: the address that a run keeps is the one that it was given.
-/

namespace Halo.P2p

/-! ## Packets -/

/-- The eight bytes of a number, the most significant one first. -/
def be64 (x : UInt64) : Bytes := be32 (x >>> 32).toUInt32 ++ be32 x.toUInt32

/-- The number of eight bytes. -/
def u64At (b : Bytes) (i : Nat) : UInt64 :=
  (u32At b i).toUInt64 <<< 32 ||| (u32At b (i + 4)).toUInt64

inductive PunchPacketType where
  | check
  | checkAck
  | confirm
  | confirmAck
  deriving DecidableEq

/-- The byte of a packet type. -/
def PunchPacketType.code : PunchPacketType → UInt8
  | .check => 1
  | .checkAck => 2
  | .confirm => 3
  | .confirmAck => 4

structure PunchPacket where
  packetType : PunchPacketType
  conv : UInt64
  transactionID : UInt32
  deriving DecidableEq

def punchPacketSize : Nat := 15

def buildPunchPacket (packetType : PunchPacketType) (conv : UInt64)
    (transactionID : UInt32) : Bytes :=
  [0x48, 0x50, packetType.code] ++ be64 conv ++ be32 transactionID

/-- `parsePunchPacket`; there is no result for `errInvalidPacket`. -/
def parsePunchPacket (packet : Bytes) : Option PunchPacket :=
  if packet.length ≠ punchPacketSize ∨ byteAt packet 0 ≠ 0x48 ∨ byteAt packet 1 ≠ 0x50 then none
  else
    let packetType : Option PunchPacketType :=
      if byteAt packet 2 = 1 then some .check
      else if byteAt packet 2 = 2 then some .checkAck
      else if byteAt packet 2 = 3 then some .confirm
      else if byteAt packet 2 = 4 then some .confirmAck
      else none
    packetType.map fun t => ⟨t, u64At packet 3, u32At packet 11⟩

/-- A number is put together from its two halves. -/
theorem or_halves (x : UInt64) :
    (x >>> 32).toUInt32.toUInt64 <<< 32 ||| x.toUInt32.toUInt64 = x := by
  have hx := x.toNat_lt
  apply UInt64.toNat_inj.mp
  simp only [UInt64.toNat_or, UInt64.toNat_shiftLeft, UInt32.toNat_toUInt64, UInt64.toNat_toUInt32,
    UInt64.toNat_shiftRight, UInt64.reduceToNat, Nat.reduceMod, Nat.shiftRight_eq_div_pow]
  rw [Nat.mod_eq_of_lt (b := 2 ^ 64) (by rw [Nat.shiftLeft_eq]; omega),
    ← Nat.shiftLeft_add_eq_or_of_lt (by omega), Nat.shiftLeft_eq]
  omega

/-- A packet is read back as it was built. -/
theorem parsePunchPacket_build (packetType : PunchPacketType) (conv : UInt64)
    (transactionID : UInt32) :
    parsePunchPacket (buildPunchPacket packetType conv transactionID) =
      some ⟨packetType, conv, transactionID⟩ := by
  have hconv : u64At (buildPunchPacket packetType conv transactionID) 3 = conv := by
    have hhi : u32At (buildPunchPacket packetType conv transactionID) 3 = (conv >>> 32).toUInt32 :=
      ofBe32_be32 _
    have hlo : u32At (buildPunchPacket packetType conv transactionID) 7 = conv.toUInt32 :=
      ofBe32_be32 _
    rw [u64At, hhi, hlo, or_halves]
  have hid : u32At (buildPunchPacket packetType conv transactionID) 11 = transactionID :=
    ofBe32_be32 _
  unfold parsePunchPacket
  rw [if_neg (by simp [buildPunchPacket, be64, be32, byteAt, punchPacketSize]), hconv, hid]
  cases packetType <;> rfl

/-! ## Addresses -/

/-- A UDP address with an IP of any form. -/
structure UDPAddr where
  ip : Bytes
  port : Nat
  zone : String
  deriving DecidableEq

/-- The first twelve bytes of an IPv4 address in the form of 16 bytes. -/
def v4InV6Prefix : Bytes := [0, 0, 0, 0, 0, 0, 0, 0, 0, 0, 0xff, 0xff]

/-- `IP.To4` -/
def to4 (ip : Bytes) : Option Bytes :=
  if ip.length = 4 then some ip
  else if ip.length = 16 ∧ ip.take 12 = v4InV6Prefix then some (ip.drop 12)
  else none

/-- `IP.To16` -/
def to16 (ip : Bytes) : Option Bytes :=
  if ip.length = 4 then some (v4InV6Prefix ++ ip)
  else if ip.length = 16 then some ip
  else none

/-- `IP.Equal` -/
def ipEqual (ip x : Bytes) : Bool :=
  if ip.length = x.length then ip = x
  else if ip.length = 4 ∧ x.length = 16 then x.take 12 = v4InV6Prefix ∧ ip = x.drop 12
  else if ip.length = 16 ∧ x.length = 4 then ip.take 12 = v4InV6Prefix ∧ ip.drop 12 = x
  else false

/-- The address that an IP stands for, the same for both forms of an IPv4 address. -/
def canonical (ip : Bytes) : Bytes := (to4 ip).getD ip

/-- `UDPAddr.String`: the text has the address, the zone and the port, and nothing else. -/
def UDPAddr.string (a : UDPAddr) : Bytes × String × Nat := (canonical a.ip, a.zone, a.port)

/-- `normalizePunchAddr` -/
def normalizePunchAddr (addr : UDPAddr) : Except String UDPAddr :=
  if addr.port = 0 ∨ addr.port > 65535 then .error "p2p: UDP port must be between 1 and 65535"
  else
    match to4 addr.ip with
    | some ip => .ok ⟨ip, addr.port, ""⟩
    | none =>
      match to16 addr.ip with
      | some ip => .ok ⟨ip, addr.port, addr.zone⟩
      | none => .error "p2p: invalid IP address"

theorem to4_of_length {ip : Bytes} (h : ip.length = 4) : to4 ip = some ip := if_pos h

theorem canonical_to4 {ip x : Bytes} (h : to4 ip = some x) : canonical x = canonical ip := by
  have hx : to4 x = some x := by
    unfold to4 at h
    split at h
    · rename_i hlen
      cases h
      exact to4_of_length hlen
    split at h
    · rename_i hlen
      cases h
      exact to4_of_length (by rw [List.length_drop, hlen.1])
    · cases h
  rw [canonical, canonical, h, hx]
  rfl

theorem canonical_of_drop {ip x : Bytes} (hx : x.length = 16) (hhead : x.take 12 = v4InV6Prefix)
    (heq : ip = x.drop 12) : canonical ip = canonical x := by
  refine canonical_to4 ?_
  rw [to4, if_neg (by omega), if_pos ⟨hx, hhead⟩, heq]

theorem canonical_of_ipEqual {ip x : Bytes} (h : ipEqual ip x = true) :
    canonical ip = canonical x := by
  unfold ipEqual at h
  split at h
  · rw [of_decide_eq_true h]
  split at h
  · rename_i hlen
    obtain ⟨hhead, heq⟩ := of_decide_eq_true h
    exact canonical_of_drop hlen.2 hhead heq
  split at h
  · rename_i hlen
    obtain ⟨hhead, heq⟩ := of_decide_eq_true h
    exact (canonical_of_drop hlen.1 hhead heq.symm).symm
  · cases h

/-- The normalised address is the one that was given. -/
theorem normalizePunchAddr_ok {addr remote : UDPAddr} (h : normalizePunchAddr addr = .ok remote) :
    canonical remote.ip = canonical addr.ip ∧ remote.port = addr.port := by
  unfold normalizePunchAddr at h
  split at h
  · cases h
  split at h
  · rename_i ip hip
    cases h
    exact ⟨canonical_to4 hip, rfl⟩
  split at h
  · rename_i hip _ ip hip16
    cases h
    refine ⟨?_, rfl⟩
    unfold to16 at hip16
    split at hip16
    · rename_i hlen
      rw [to4_of_length hlen] at hip
      cases hip
    split at hip16
    · cases hip16
      rfl
    · cases hip16
  · cases h

/-! ## Runs -/

/-- `punchConfig`; times are in nanoseconds. -/
structure PunchConfig where
  candidatePortCount : Nat
  burstCount : Nat
  burstInterval : Nat
  timeout : Nat
  confirmInterval : Nat
  successLinger : Nat

/-- The errors that a run returns. -/
inductive PunchError where
  /-- `ctx.Err()` -/
  | context
  /-- `ErrPunchTimeout` -/
  | timeout
  /-- "p2p: write CHECK" and the same for the other types -/
  | write (packetType : PunchPacketType)
  /-- "p2p: set punch read deadline" -/
  | setDeadline
  /-- "p2p: read punch packet" -/
  | read
  /-- "p2p: reset punch read deadline" -/
  | resetDeadline
  deriving DecidableEq

def maxInboundTransactions : Nat := 128

/-- The variables of `punch`. -/
structure PunchRun where
  conv : UInt64
  remote : UDPAddr
  config : PunchConfig
  nextTransactionID : UInt32
  outboundTransactions : Finset UInt32
  inboundTransactions : Table UInt32 (Bytes × String × Nat)
  nextBurst : Nat
  hardDeadline : Nat
  burst : Nat
  selectedTransactionID : UInt32
  selectedRemote : Option UDPAddr
  nextConfirm : Nat
  successDeadline : Option Nat
  localConfirmed : Bool
  peerConfirmed : Bool
  /-- A CONFIRM_ACK is written, and `peerConfirmed` is set next. -/
  acknowledging : Bool
  /-- What the run has returned. -/
  result : Option (Except PunchError (Option UDPAddr))

/-- A packet and its destination. -/
abbrev Datagram := Bytes × UDPAddr

/-- What the environment does while a run sends: the clock, and the errors of the connection. -/
structure SendEnv where
  cancelled : Bool
  now : Nat
  /-- Whether the write to the candidate with an index fails. -/
  writeCheckFails : Nat → Bool
  /-- The clock after the burst, for the next burst and for the rest of the round. -/
  burstEnd : Nat
  burstNow : Nat
  writeConfirmFails : Bool
  confirmEnd : Nat
  setDeadlineFails : Bool
  resetDeadlineFails : Bool

/-- What the environment does while a run handles a packet. -/
structure ReceiveEnv where
  writeFails : Bool
  confirmEnd : Nat
  now : Nat
  resetDeadlineFails : Bool

/-- What `ReadFrom` gives. -/
inductive ReadResult where
  /-- A timeout, or an error that the run ignores. -/
  | nothing
  | failed
  | packet (data : Bytes) (source : UDPAddr)

namespace PunchRun

/-- `punch` up to its loop. -/
def newPunch (conv : UInt64) (remote : UDPAddr) (config : PunchConfig) (nextTransactionID : UInt32)
    (now : Nat) : Except String PunchRun :=
  (normalizePunchAddr remote).map fun remote => {
    conv, remote, config, nextTransactionID
    outboundTransactions := ∅
    inboundTransactions := ∅
    nextBurst := now
    hardDeadline := now + config.timeout
    burst := 0
    selectedTransactionID := 0
    selectedRemote := none
    nextConfirm := 0
    successDeadline := none
    localConfirmed := false
    peerConfirmed := false
    acknowledging := false
    result := none }

/-- The candidate ports of the peer. -/
def candidates (r : PunchRun) : List UDPAddr :=
  let count := if to4 r.remote.ip = none then 1 else r.config.candidatePortCount
  ((List.range count).takeWhile fun offset => r.remote.port + offset ≤ 65535).map fun offset =>
    { r.remote with port := r.remote.port + offset }

/-- The return of a run, with its deferred function. -/
def finish (r : PunchRun) (resetDeadlineFails : Bool)
    (result : Except PunchError (Option UDPAddr)) : PunchRun :=
  { r with result := some (match result with
      | .error e => .error e
      | .ok endpoint => if resetDeadlineFails then .error .resetDeadline else .ok endpoint) }

/-- The CHECK packets to the candidates; `false` if a write fails. -/
def sendChecks (fails : Nat → Bool) :
    PunchRun → Nat → List UDPAddr → PunchRun × List Datagram × Bool
  | r, _, [] => (r, [], true)
  | r, k, candidate :: rest =>
    let transactionID := r.nextTransactionID
    let packet := buildPunchPacket .check r.conv transactionID
    let r := { r with
      nextTransactionID := transactionID + 1
      outboundTransactions := insert transactionID r.outboundTransactions }
    if fails k then (r, [], false)
    else
      let (r, out, ok) := sendChecks fails r (k + 1) rest
      (r, (packet, candidate) :: out, ok)

/-- The CONFIRM packet of a round that is due, and the end of the part before the read. -/
def sendConfirm (r : PunchRun) (env : SendEnv) (now : Nat) : PunchRun × List Datagram :=
  match r.selectedRemote with
  | some selectedRemote =>
    if !r.localConfirmed ∧ r.nextConfirm ≤ now then
      if env.writeConfirmFails then (r.finish env.resetDeadlineFails (.error (.write .confirm)), [])
      else
        let r := { r with nextConfirm := env.confirmEnd + r.config.confirmInterval }
        let out := [(buildPunchPacket .confirm r.conv r.selectedTransactionID, selectedRemote)]
        if env.setDeadlineFails then (r.finish env.resetDeadlineFails (.error .setDeadline), out)
        else (r, out)
    else if env.setDeadlineFails then (r.finish env.resetDeadlineFails (.error .setDeadline), [])
    else (r, [])
  | none =>
    if env.setDeadlineFails then (r.finish env.resetDeadlineFails (.error .setDeadline), [])
    else (r, [])

/-- A round up to the read. -/
def send (r : PunchRun) (env : SendEnv) : PunchRun × List Datagram :=
  if env.cancelled then (r.finish env.resetDeadlineFails (.error .context), [])
  else if r.successDeadline.any (· ≤ env.now) then
    (r.finish env.resetDeadlineFails (.ok r.selectedRemote), [])
  else if r.hardDeadline ≤ env.now then (r.finish env.resetDeadlineFails (.error .timeout), [])
  else if r.burst < r.config.burstCount ∧ r.nextBurst ≤ env.now then
    let (r, checks, ok) := sendChecks env.writeCheckFails r 0 r.candidates
    if !ok then (r.finish env.resetDeadlineFails (.error (.write .check)), checks)
    else
      let r := { r with burst := r.burst + 1, nextBurst := env.burstEnd + r.config.burstInterval }
      let (r, out) := r.sendConfirm env env.burstNow
      (r, checks ++ out)
  else r.sendConfirm env env.now

/-- The answer to a packet: a write that may fail, and the change after it. -/
def answer (r : PunchRun) (env : ReceiveEnv) (packetType : PunchPacketType) (transactionID : UInt32)
    (dst : UDPAddr) (after : PunchRun → PunchRun) : PunchRun × List Datagram :=
  if env.writeFails then (r.finish env.resetDeadlineFails (.error (.write packetType)), [])
  else (after r, [(buildPunchPacket packetType r.conv transactionID, dst)])

/-- The handling of a packet; there is no result for `continue`. -/
def handle (r : PunchRun) (control : PunchPacket) (source : UDPAddr) (env : ReceiveEnv) :
    Option (PunchRun × List Datagram) :=
  let id := control.transactionID
  match control.packetType with
  | .check =>
    -- a CHECK of the run itself that was reflected
    if id ∈ r.outboundTransactions then none
    else
      match r.inboundTransactions.lookup id with
      | some transactionSource =>
        if transactionSource ≠ source.string then none
        else some (r.answer env .checkAck id source fun r => r)
      | none =>
        if r.inboundTransactions.keys.length ≥ maxInboundTransactions then none
        else
          let r := { r with inboundTransactions := r.inboundTransactions.insert id source.string }
          some (r.answer env .checkAck id source fun r => r)
  | .checkAck =>
    if r.selectedRemote.isSome then none
    else if id ∉ r.outboundTransactions then none
    else
      let r := { r with selectedTransactionID := id, selectedRemote := some source }
      some (r.answer env .confirm id source fun r =>
        { r with nextConfirm := env.confirmEnd + r.config.confirmInterval })
  | .confirm =>
    if r.inboundTransactions.lookup id ≠ some source.string then none
    else some (r.answer env .confirmAck id source fun r => { r with acknowledging := true })
  | .confirmAck =>
    if r.selectedRemote.map UDPAddr.string ≠ some source.string ∨
      id ≠ r.selectedTransactionID then none
    else some ({ r with localConfirmed := true }, [])

/-- The deadline of a run that is confirmed in both directions. -/
def succeed (r : PunchRun) (now : Nat) : PunchRun :=
  if r.localConfirmed ∧ r.peerConfirmed ∧ r.successDeadline = none then
    { r with successDeadline := some (min (now + r.config.successLinger) r.hardDeadline) }
  else r

/-- The rest of a round. -/
def receive (r : PunchRun) (input : ReadResult) (env : ReceiveEnv) : PunchRun × List Datagram :=
  match input with
  | .nothing => (r, [])
  | .failed => (r.finish env.resetDeadlineFails (.error .read), [])
  | .packet data source =>
    if !ipEqual source.ip r.remote.ip then (r, [])
    else
      -- the buffer has 64 bytes
      match parsePunchPacket (data.take 64) with
      | none => (r, [])
      | some control =>
        if control.conv ≠ r.conv then (r, [])
        else
          match r.handle control source env with
          | none => (r, [])
          | some (r, out) =>
            if r.result.isSome ∨ r.acknowledging then (r, out) else (r.succeed env.now, out)

/-- The rest of a round after the write of a CONFIRM_ACK. -/
def record (r : PunchRun) (now : Nat) : PunchRun :=
  if r.acknowledging then { r with peerConfirmed := true, acknowledging := false }.succeed now
  else r

end PunchRun

end Halo.P2p
