import Halo.Base.Fields

/-!
# Enet control packets (`protocol/kcp/enet.go`)

A control packet has 20 bytes: a magic number of its type, the session id, the conversation number,
the event type (all big endian), and a second magic number of its type. The id of a session is the
64-bit number with the session id in its low half and the conversation number in its high half.

* `parseEnet_buildEnet`: what is built is parsed.
* `rawConvOf_eq_iff`: an id is its two halves.
-/

namespace Halo

/-- The type of a control packet (`ConnEnetSyn`, `ConnEnetEst`, `ConnEnetFin`, `ConnEnetPing`). -/
inductive ConnEnet where
  | syn
  | est
  | fin
  | ping
  deriving DecidableEq, Repr

/-- `MagicEnetSynHead` and its siblings. -/
def ConnEnet.head : ConnEnet → Bytes
  | .syn => [0x00, 0x00, 0x00, 0xff]
  | .est => [0x00, 0x00, 0x01, 0x45]
  | .fin => [0x00, 0x00, 0x01, 0x94]
  | .ping => [0x00, 0x00, 0x02, 0x27]

/-- `MagicEnetSynTail` and its siblings. -/
def ConnEnet.tail : ConnEnet → Bytes
  | .syn => [0xff, 0xff, 0xff, 0xff]
  | .est => [0x14, 0x51, 0x45, 0x45]
  | .fin => [0x19, 0x41, 0x94, 0x94]
  | .ping => [0x22, 0x72, 0x27, 0x27]

/-- `EnetClientConnectKey`. -/
def enetClientConnectKey : UInt32 := 1234567890

/-- The results of `ParseEnet`. -/
structure EnetPkt where
  connType : ConnEnet
  enetType : UInt32
  sessionId : UInt32
  conv : UInt32
  rawConv : UInt64
  deriving DecidableEq

/-- `binary.LittleEndian.Uint64` of the first eight bytes. -/
def le64 (data : Bytes) : UInt64 := .ofNat (ofLe (data.take 8))

/-- `BuildEnet`. -/
def buildEnet (connType : ConnEnet) (enetType sessionId conv : UInt32) : Bytes :=
  connType.head ++ be32 sessionId ++ be32 conv ++ be32 enetType ++ connType.tail

/-- `ParseEnet`: the types are tried in the order of the source. -/
def parseEnet (data : Bytes) : Except String EnetPkt :=
  if data.length ≠ 20 then .error "invalid enet packet length"
  else
    match [ConnEnet.syn, .est, .fin, .ping].find? fun t =>
        data.take 4 = t.head ∧ data.drop 16 = t.tail with
    | none => .error "unknown conn type"
    | some connType =>
      .ok ⟨connType, u32At data 12, u32At data 4, u32At data 8, le64 (data.drop 4)⟩

/-- `GetSessionId`: the low half of an id. -/
def sessionIdOf (rawConv : UInt64) : UInt32 := .ofNat (ofLe ((leBytes 8 rawConv.toNat).take 4))

/-- `GetConv`: the high half of an id. -/
def convOf (rawConv : UInt64) : UInt32 := .ofNat (ofLe ((leBytes 8 rawConv.toNat).drop 4))

/-- The id of a session id and a conversation number, as the handshake and the FIN put it
together. -/
def rawConvOf (sessionId conv : UInt32) : UInt64 :=
  le64 (leBytes 4 sessionId.toNat ++ leBytes 4 conv.toNat)

/-! ## Packets -/

/-- What is built is parsed. -/
theorem parseEnet_buildEnet (connType : ConnEnet) (enetType sessionId conv : UInt32) :
    ∃ rawConv, parseEnet (buildEnet connType enetType sessionId conv) =
      .ok ⟨connType, enetType, sessionId, conv, rawConv⟩ := by
  have hfind : [ConnEnet.syn, .est, .fin, .ping].find? (fun t =>
      (buildEnet connType enetType sessionId conv).take 4 = t.head ∧
        (buildEnet connType enetType sessionId conv).drop 16 = t.tail) = some connType := by
    cases connType <;> simp [buildEnet, ConnEnet.head, ConnEnet.tail, be32]
  have hlen : (buildEnet connType enetType sessionId conv).length = 20 := by
    cases connType <;> rfl
  refine ⟨le64 ((buildEnet connType enetType sessionId conv).drop 4), ?_⟩
  rw [parseEnet, if_neg (by simp [hlen]), hfind]
  have hfields : u32At (buildEnet connType enetType sessionId conv) 12 = enetType ∧
      u32At (buildEnet connType enetType sessionId conv) 4 = sessionId ∧
      u32At (buildEnet connType enetType sessionId conv) 8 = conv := by
    cases connType <;>
      simp [buildEnet, ConnEnet.head, ConnEnet.tail, be32, u32At, byteAt]
  rw [hfields.1, hfields.2.1, hfields.2.2]

/-! ## Ids -/

theorem sessionIdOf_toNat (rawConv : UInt64) :
    (sessionIdOf rawConv).toNat = rawConv.toNat % 2 ^ 32 := by
  have htake : (leBytes 8 rawConv.toNat).take 4 = leBytes 4 rawConv.toNat := rfl
  rw [sessionIdOf, htake, ofLe_leBytes]
  simp

theorem convOf_toNat (rawConv : UInt64) : (convOf rawConv).toNat = rawConv.toNat / 2 ^ 32 := by
  have hdrop : (leBytes 8 rawConv.toNat).drop 4 =
      leBytes 4 (rawConv.toNat / 256 / 256 / 256 / 256) :=
    rfl
  have := rawConv.toNat_lt
  rw [convOf, hdrop, ofLe_leBytes]
  simp only [UInt32.toNat_ofNat']
  omega

theorem rawConvOf_toNat (sessionId conv : UInt32) :
    (rawConvOf sessionId conv).toNat = sessionId.toNat + 2 ^ 32 * conv.toNat := by
  have htake : (leBytes 4 sessionId.toNat ++ leBytes 4 conv.toNat).take 8 =
      leBytes 4 sessionId.toNat ++ leBytes 4 conv.toNat := rfl
  have hs := sessionId.toNat_lt
  have hc := conv.toNat_lt
  rw [rawConvOf, le64, htake, ofLe_append, ofLe_leBytes, ofLe_leBytes, length_leBytes,
    UInt64.toNat_ofNat']
  omega

/-- An id is its two halves. -/
theorem rawConvOf_eq_iff (sessionId conv : UInt32) (rawConv : UInt64) :
    rawConvOf sessionId conv = rawConv ↔
      sessionId = sessionIdOf rawConv ∧ conv = convOf rawConv := by
  have hs := sessionId.toNat_lt
  have hc := conv.toNat_lt
  have hr := rawConv.toNat_lt
  rw [← UInt64.toNat_inj, ← UInt32.toNat_inj, ← UInt32.toNat_inj, rawConvOf_toNat,
    sessionIdOf_toNat, convOf_toNat]
  omega

end Halo
