import Halo.Protocol.Udp

/-!
# TCP segments (`protocol/tcp.go`)

`parseTcpPkt` and `buildTcpPkt` with the error texts of the source. The loop over the options has
fuel; every round moves on, so a fuel of the header length is enough (`parseTcpOptions_fuel`).
-/

namespace Halo

/-- `TCP_FLAGS_ACK`. -/
def tcpFlagsAck : UInt8 := 0x10

/-- `TCP_FLAGS_PSH`. -/
def tcpFlagsPsh : UInt8 := 0x08

/-- `TCP_FLAGS_RST`. -/
def tcpFlagsRst : UInt8 := 0x04

/-- `TCP_FLAGS_SYN`. -/
def tcpFlagsSyn : UInt8 := 0x02

/-- `TCP_FLAGS_FIN`. -/
def tcpFlagsFin : UInt8 := 0x01

/-- `TcpPkt`. -/
structure TcpPkt where
  payload : Bytes
  srcPort : UInt16
  dstPort : UInt16
  seqNum : UInt32
  ackNum : UInt32
  flags : UInt8
  window : UInt16
  mss : UInt16
  deriving DecidableEq

/-- The segment has one of the flags. -/
def TcpPkt.Has (p : TcpPkt) (flags : UInt8) : Prop := p.flags &&& flags ≠ 0

instance (p : TcpPkt) (flags : UInt8) : Decidable (p.Has flags) :=
  inferInstanceAs (Decidable (_ ≠ _))

/-- The loop of `ParseTcpPkt` over the options, from `offset` on; the result is the MSS. -/
def parseTcpOptions (pkt : Bytes) (headerLen : Nat) :
    (fuel : Nat) → (offset : Nat) → (mss : UInt16) → Except String UInt16
  | 0, _, mss => .ok mss
  | fuel + 1, offset, mss =>
    if headerLen ≤ offset then .ok mss
    else
      let kind := byteAt pkt offset
      if kind = 0 then .ok mss
      else if kind = 1 then parseTcpOptions pkt headerLen fuel (offset + 1) mss
      else
        let length := (byteAt pkt (offset + 1)).toNat
        if offset + 2 > headerLen ∨ length < 2 ∨ offset + length > headerLen then
          .error "invalid tcp option length"
        else if kind = 2 then
          if length ≠ 4 ∨ wordAt pkt (offset + 2) = 0 then .error "invalid tcp mss option"
          else
            let mss := if byteAt pkt 13 &&& tcpFlagsSyn ≠ 0 then wordAt pkt (offset + 2) else mss
            parseTcpOptions pkt headerLen fuel (offset + length) mss
        else parseTcpOptions pkt headerLen fuel (offset + length) mss

/-- The data offset of a segment in bytes. -/
def tcpHeaderLen (pkt : Bytes) : Nat := (byteAt pkt 12 >>> 4).toNat * 4

/-- `ParseTcpPkt`. -/
def parseTcpPkt (checkSumEnable : Bool) (pkt : Bytes) (addr : Ipv4AddrPair) :
    Except String TcpPkt :=
  if pkt.length < 20 ∨ pkt.length > 1480 then
    .error "tcp packet len must >= 20 and <= 1480 bytes"
  else
    let headerLen := tcpHeaderLen pkt
    if headerLen < 20 ∨ headerLen > pkt.length then .error "invalid tcp header length"
    else
      match parseTcpOptions pkt headerLen headerLen 20 0 with
      | .error e => .error e
      | .ok mss =>
        if checkSumEnable ∧
            getCheckSum (pseudoHeader addr 0x06 (UInt16.ofNat pkt.length) ++ pkt) ≠ 0 then
          .error "check sum error"
        else .ok ⟨pkt.drop headerLen, wordAt pkt 0, wordAt pkt 2, u32At pkt 4, u32At pkt 8,
          byteAt pkt 13, wordAt pkt 14, mss⟩

/-- `BuildTcpPkt` into an empty buffer, so that its first check passes. -/
def buildTcpPkt (checkSumEnable : Bool) (packet : TcpPkt) (addr : Ipv4AddrPair) :
    Except String Bytes :=
  if packet.mss ≠ 0 ∧ packet.flags &&& tcpFlagsSyn = 0 then .error "tcp mss option requires SYN"
  else
    let headerLen := if packet.mss ≠ 0 then 24 else 20
    if packet.payload.length > 1480 - headerLen then
      .error "tcp packet length exceeds 1480 bytes"
    else
      let pkt := be16 packet.srcPort ++ be16 packet.dstPort ++ be32 packet.seqNum ++
        be32 packet.ackNum ++ [UInt8.ofNat (headerLen / 4) <<< 4, packet.flags] ++
        be16 packet.window ++ [0x00, 0x00] ++ [0x00, 0x00] ++
        (if packet.mss ≠ 0 then [2, 4] ++ be16 packet.mss else []) ++ packet.payload
      .ok (if checkSumEnable then
        setWord pkt 16 (getCheckSum (pseudoHeader addr 0x06 (UInt16.ofNat pkt.length) ++ pkt))
        else pkt)

/-- A fuel that covers the rest of the header is enough: more of it does not change the result. -/
theorem parseTcpOptions_fuel {pkt : Bytes} {headerLen fuel fuel' offset : Nat} {mss : UInt16}
    (h : headerLen ≤ offset + fuel) (h' : headerLen ≤ offset + fuel') :
    parseTcpOptions pkt headerLen fuel offset mss =
      parseTcpOptions pkt headerLen fuel' offset mss := by
  induction fuel generalizing fuel' offset mss with
  | zero =>
    cases fuel' with
    | zero => rfl
    | succ fuel' => simp only [parseTcpOptions, if_pos (show headerLen ≤ offset by omega)]
  | succ fuel ih =>
    cases fuel' with
    | zero => simp only [parseTcpOptions, if_pos (show headerLen ≤ offset by omega)]
    | succ fuel' =>
      simp only [parseTcpOptions]
      -- the rounds make the same tests, and go on at the same later offset
      split
      · rfl
      split
      · rfl
      split
      · exact ih (by omega) (by omega)
      split
      · rfl
      split
      · split
        · rfl
        · exact ih (by omega) (by omega)
      · exact ih (by omega) (by omega)

end Halo
