import Halo.Tcp.Conn

/-!
# What a connection can do

Every call and every arrival of a segment is a sequence of moves (`Move`) of the connection. A move
says what it changes and when it can be made; a segment that it uses is one that has arrived (`A`),
and an `outbound` that it keeps is one that the output has refused (`H`). What holds of a connection
for good is shown of the moves, once for each invariant.

`SendInv` is the invariant of the send side; the moves keep it (`Move.sendInv`).
-/

namespace Halo.Tcp.Conn

/-- The handshake is not over. -/
def Opening (c : Conn) : Prop := c.state = .synSent ∨ c.state = .synReceived

/-- The writing side is open, or its FIN is not sent yet. -/
def Sending (c : Conn) : Prop := c.state = .established ∨ c.state = .closeWait

/-- The FIN is sent. -/
def Ended (c : Conn) : Prop :=
  c.state = .finWait1 ∨ c.state = .finWait2 ∨ c.state = .closing ∨ c.state = .lastAck

/-- From the handshake up to the last acknowledgement. -/
def Live (c : Conn) : Prop := c.state ≠ .closed ∧ c.state ≠ .timeWait

variable (A : TcpPkt → Prop) (H : Outbound → Prop)

/-- One move of a connection. -/
inductive Move : Conn → Conn → Prop
  /-- Deadlines, timers and the estimation of the round trip. -/
  | timers {c : Conn}
      (rd wd closeEnd timeWaitEnd progress retransmitAt sentAt probeAt pendingAt : Option Int)
      (rto srtt rttvar probeInterval : Int) (rttValid : Bool) :
      Move c { c with
        rd := rd, wd := wd, closeEnd := closeEnd, timeWaitEnd := timeWaitEnd, progress := progress
        retransmitAt := retransmitAt, sentAt := sentAt, probeAt := probeAt, pendingAt := pendingAt
        rto := rto, srtt := srtt, rttvar := rttvar, probeInterval := probeInterval
        rttValid := rttValid }
  | window {c : Conn} {p : TcpPkt} (hp : A p)
      (hack : seqLess p.ackNum c.sndUna = false)
      (hseq : seqLess c.wlSeq p.seqNum ∨ (c.wlSeq = p.seqNum ∧ ¬ seqLess p.ackNum c.wlAck)) :
      Move c { c with peerWindow := p.window.toUInt32, wlSeq := p.seqNum, wlAck := p.ackNum }
  | keep {c : Conn} {out : Outbound} (h : H out) : Move c { c with pending := some out }
  | drop {c : Conn} : Move c { c with pending := none }
  | requeue {c : Conn} {out : Outbound} (h : c.pending = some out) : Move c (c.ask (.queue out))
  | closeWriting {c : Conn} : Move c { c with writeClosed := true }
  | closeReading {c : Conn} : Move c { c with appClosed := true }
  | reset {c : Conn} (p : TcpPkt) (hlive : c.state ≠ .closed) :
      Move c (c.ask (.reset (resetPkt c.localAddr c.remoteAddr p)))
  | leave {c : Conn} (err : Option Err) (hlive : c.state ≠ .closed) (herr : err ≠ some .eof) :
      Move c { c.ask (.remove c.state) with
        state := .closed, err := err, pending := none, tx := .empty }
  /-- The answer to the SYN of `Dial`. -/
  | synAcked {c : Conn} {p : TcpPkt} (hp : A p) (hstate : c.state = .synSent)
      (hflags : p.flags &&& (tcpFlagsSyn ||| tcpFlagsAck ||| tcpFlagsFin) =
        tcpFlagsSyn ||| tcpFlagsAck)
      (hrst : ¬ p.Has tcpFlagsRst) (hack : p.ackNum = c.sndNxt) :
      Move c { c with
        sndUna := p.ackNum, irs := p.seqNum, rcvNxt := p.seqNum + 1
        peerMss := if p.mss ≠ 0 then p.mss.toNat else c.peerMss
        peerWindow := p.window.toUInt32, wlSeq := p.seqNum, wlAck := p.ackNum
        state := .established, pending := none }
  | establish {c : Conn} {p : TcpPkt} (hp : A p) (hstate : c.state = .synReceived)
      (hflag : p.Has tcpFlagsAck) (hack : p.ackNum = c.sndNxt) (hseq : p.seqNum = c.rcvNxt) :
      Move c (c.establish p)
  | acked {c : Conn} {p : TcpPkt} (tx : ByteBuffer) (hp : A p) (hstate : c.Sending ∨ c.Ended)
      (hflag : p.Has tcpFlagsAck) (hnxt : seqLess c.sndNxt p.ackNum = false)
      (huna : seqLess c.sndUna p.ackNum)
      (htx : (c.inflight = 0 ∧ tx = c.tx) ∨
        (0 < c.inflight ∧ c.tx.discard (min (p.ackNum - c.sndUna).toNat c.inflight) = .ok tx)) :
      Move c { c with
        tx := tx, inflight := c.inflight - min (p.ackNum - c.sndUna).toNat c.inflight
        sndUna := p.ackNum, pending := none }
  | finAcked {c : Conn} (hstate : c.state = .finWait1) (huna : c.sndUna = c.finSeq + 1) :
      Move c { c with state := .finWait2 }
  | timeWait {c : Conn} (hstate : c.state = .closing ∨ c.state = .finWait2) :
      Move c { c with state := .timeWait, pending := none, tx := .empty }
  | received {c : Conn} {p : TcpPkt} (n : Nat) (rx : ByteBuffer) (hp : A p)
      (hstate : c.state ≠ .closed ∧ ¬ c.Opening) (hfin : c.recvFin = false)
      (happ : c.appClosed = false)
      (hlow : -(p.payload.length : Int) ≤ c.offset p) (hhigh : c.offset p ≤ 0)
      (hwrite : c.rx.write (p.payload.drop (-c.offset p).toNat) = .ok (n, rx)) :
      Move c { c with rx := rx, rcvNxt := c.rcvNxt + .ofNat n }
  | finReceived {c : Conn} {p : TcpPkt} (hp : A p) (hstate : c.state ≠ .closed ∧ ¬ c.Opening)
      (hflag : p.Has tcpFlagsFin) (hfin : c.recvFin = false)
      (hseq : p.seqNum + .ofNat p.payload.length = c.rcvNxt) :
      Move c { c with
        recvFin := true, rcvNxt := c.rcvNxt + 1
        state := if c.state = .established then .closeWait
          else if c.state = .finWait1 then .closing else c.state }
  | sendAck {c : Conn} (hstate : c.state ≠ .closed ∧ c.state ≠ .synSent) : Move c c.ack
  | sendSynAck {c : Conn} (hstate : c.state = .synReceived) :
      Move c (c.emit (tcpFlagsSyn ||| tcpFlagsAck) c.iss [] true)
  /-- More bytes count as sent. -/
  | advance {c : Conn} (n : Nat) (hstate : c.Sending) (hinflight : c.inflight = 0)
      (hsize : n ≤ c.tx.size) (hmss : n ≤ mss) :
      Move c { c with inflight := n, sndNxt := c.sndNxt + .ofNat n }
  /-- The bytes that count as sent, or the first of them, are sent. -/
  | sendData {c : Conn} (flags : UInt8) (k : Nat) (hstate : c.Sending)
      (hflags : flags = tcpFlagsAck ∨ flags = tcpFlagsAck ||| tcpFlagsPsh) (hk : k ≤ c.inflight) :
      Move c (c.emit flags c.sndUna (c.tx.peek k) true)
  | endWriting {c : Conn} (hstate : c.Sending) (hinflight : c.inflight = 0) (hsize : c.tx.size = 0)
      (hclosed : c.writeClosed) :
      Move c { c with
        finSent := true, finSeq := c.sndNxt, sndNxt := c.sndNxt + 1
        state := if c.state = .closeWait then .lastAck else .finWait1 }
  | sendFin {c : Conn} (hstate : c.Ended) :
      Move c (c.emit (tcpFlagsFin ||| tcpFlagsAck) c.finSeq [] true)
  /-- The probe of a window before the FIN. -/
  | filler {c : Conn} (hstate : c.Sending) (hsize : c.tx.size = 0) (hclosed : c.writeClosed) :
      Move c (c.emit tcpFlagsAck (c.sndNxt - 1) [0] false)

/-- A sequence of moves. -/
abbrev Moves : Conn → Conn → Prop := Relation.ReflTransGen (Move A H)

/-- The send side of a connection. -/
structure SendInv (c : Conn) : Prop where
  rx_length : c.rx.data.length = receiveBufferSize
  tx_length : c.Live → c.tx.data.length = sendBufferSize
  inflight_le : c.Live → c.inflight ≤ c.tx.size
  inflight_le_mss : c.Live → c.inflight ≤ mss
  opening : c.Opening → c.tx.size = 0 ∧ c.finSent = false ∧ c.sndNxt = c.sndUna + 1
  silent : c.state = .synSent → c.rx.size = 0
  sending : c.Sending → c.finSent = false ∧ c.sndNxt = c.sndUna + .ofNat c.inflight
  ended : c.Ended → c.finSent = true ∧ c.tx.size = 0 ∧ c.sndNxt = c.finSeq + 1 ∧
    (c.sndUna = c.finSeq ∨ c.sndUna = c.finSeq + 1)

/-! ## Sequence numbers -/

theorem seqLess_iff {a b : UInt32} : seqLess a b = true ↔ 2 ^ 31 ≤ (a - b).toNat := by
  rw [seqLess, decide_eq_true_iff, toInt32_neg]

theorem seqLess_eq_false_iff {a b : UInt32} : seqLess a b = false ↔ (a - b).toNat < 2 ^ 31 := by
  rw [← Bool.not_eq_true, seqLess_iff, Nat.not_le]

/-- The number at a distance. -/
theorem eq_add_distance (a b : UInt32) : b = a + .ofNat (b - a).toNat := by
  rw [UInt32.ofNat_toNat]
  abel

/-- An acknowledgement that passes both tests is of one of the numbers that are sent and not
acknowledged. -/
theorem acknowledged_le {una ack : UInt32} {d : Nat} (hd : d < 2 ^ 31)
    (huna : seqLess una ack = true) (hnxt : seqLess (una + .ofNat d) ack = false) :
    0 < (ack - una).toNat ∧ (ack - una).toNat ≤ d := by
  have hlt := (ack - una).toNat_lt
  rw [seqLess_iff] at huna
  rw [seqLess_eq_false_iff] at hnxt
  rw [eq_add_distance una ack] at huna hnxt
  generalize (ack - una).toNat = x at *
  rw [toNat_sub_of_offsets una (by omega) (by omega)] at hnxt
  have hzero : una = una + .ofNat 0 := by simp
  rw [hzero, add_assoc, ← UInt32.ofNat_add, toNat_sub_of_offsets una (by omega) (by omega)] at huna
  split at hnxt <;> split at huna <;> omega

/-! ## Segments -/

theorem buildError_none {p : TcpPkt} (addr : Ipv4AddrPair)
    (hmss : p.mss ≠ 0 → p.flags &&& tcpFlagsSyn ≠ 0) (hlen : p.payload.length ≤ 1456) :
    buildError p addr = none := by
  have hrefused : ¬ (p.mss ≠ 0 ∧ p.flags &&& tcpFlagsSyn = 0) := fun h => hmss h.1 h.2
  have hfits : ¬ p.payload.length > 1480 - (if p.mss ≠ 0 then 24 else 20) := by
    split <;> omega
  unfold buildError buildTcpPkt
  simp only [if_neg hrefused, if_neg hfits]

/-- No segment of a connection is too long. -/
theorem emit_eq {c : Conn} {data : Bytes} (hlen : data.length ≤ 1456) (flags : UInt8) (seq : UInt32)
    (track : Bool) : c.emit flags seq data track =
      c.ask (.queue (c.outbound flags seq data track)) := by
  have hmss : (c.segment flags seq data).mss ≠ 0 → flags &&& tcpFlagsSyn ≠ 0 := by
    intro hne hzero
    exact hne (if_neg (not_not.mpr hzero))
  unfold emit
  rw [buildError_none _ hmss hlen]

/-! ## The send side -/

variable {A : TcpPkt → Prop} {H : Outbound → Prop} {c c' : Conn}

theorem SendInv.ask (h : SendInv c) (r : Request) : SendInv (c.ask r) :=
  { h with }

theorem SendInv.emit (h : SendInv c) {data : Bytes} (hlen : data.length ≤ 1456) (flags : UInt8)
    (seq : UInt32) (track : Bool) : SendInv (c.emit flags seq data track) := by
  rw [emit_eq hlen]
  exact h.ask _

theorem Sending.live (h : c.Sending) : c.Live := by
  rcases h with h | h <;> simp [Live, h]

theorem Ended.live (h : c.Ended) : c.Live := by
  rcases h with h | h | h | h <;> simp [Live, h]

theorem Opening.live (h : c.Opening) : c.Live := by
  rcases h with h | h <;> simp [Live, h]

theorem Sending.not_ended (h : c.Sending) : ¬ c.Ended := by
  rcases h with h | h <;> simp [Ended, h]

theorem Sending.not_opening (h : c.Sending) : ¬ c.Opening := by
  rcases h with h | h <;> simp [Opening, h]

theorem Ended.not_opening (h : c.Ended) : ¬ c.Opening := by
  rcases h with h | h | h | h <;> simp [Opening, h]

/-- A connection that is not live has no send side. -/
theorem SendInv.of_not_live (hrx : c.rx.data.length = receiveBufferSize) (h : ¬ c.Live) :
    SendInv c :=
  ⟨hrx, fun hl => absurd hl h, fun hl => absurd hl h, fun hl => absurd hl h,
    fun ho => absurd ho.live h, fun hs => absurd (Opening.live (.inl hs)) h,
    fun hs => absurd hs.live h, fun he => absurd he.live h⟩

theorem SendInv.of_sending (hstate : c.Sending) (hrx : c.rx.data.length = receiveBufferSize)
    (htx : c.tx.data.length = sendBufferSize) (hle : c.inflight ≤ c.tx.size)
    (hmss : c.inflight ≤ mss) (hfin : c.finSent = false)
    (hnum : c.sndNxt = c.sndUna + .ofNat c.inflight) : SendInv c where
  rx_length := hrx
  tx_length _ := htx
  inflight_le _ := hle
  inflight_le_mss _ := hmss
  opening h := absurd h hstate.not_opening
  silent h := absurd (Or.inl h) hstate.not_opening
  sending _ := ⟨hfin, hnum⟩
  ended h := absurd h hstate.not_ended

theorem SendInv.of_ended (hstate : c.Ended) (hrx : c.rx.data.length = receiveBufferSize)
    (htx : c.tx.data.length = sendBufferSize) (hsize : c.tx.size = 0) (hle : c.inflight = 0)
    (hfin : c.finSent = true) (hnxt : c.sndNxt = c.finSeq + 1)
    (huna : c.sndUna = c.finSeq ∨ c.sndUna = c.finSeq + 1) : SendInv c where
  rx_length := hrx
  tx_length _ := htx
  inflight_le _ := by rw [hle]; exact Nat.zero_le _
  inflight_le_mss _ := by rw [hle]; exact Nat.zero_le _
  opening h := absurd h hstate.not_opening
  silent h := absurd (Or.inl h) hstate.not_opening
  sending h := absurd hstate h.not_ended
  ended _ := ⟨hfin, hsize, hnxt, huna⟩

/-- A handshake ends with nothing in flight. -/
theorem SendInv.opened (h : SendInv c) (hopening : c.Opening) (hstate : c'.Sending)
    (hrx : c'.rx = c.rx) (htx : c'.tx = c.tx) (hinflight : c'.inflight = c.inflight)
    (hfin : c'.finSent = c.finSent) (hnum : c'.sndNxt = c'.sndUna) : SendInv c' := by
  obtain ⟨hsize, hsent, -⟩ := h.opening hopening
  have hle := h.inflight_le hopening.live
  have hzero : c'.inflight = 0 := by omega
  refine .of_sending hstate (hrx ▸ h.rx_length) (htx ▸ h.tx_length hopening.live) ?_ ?_
    (hfin.trans hsent) ?_
  · omega
  · omega
  · rw [hnum, hzero]
    simp

theorem SendInv.inflight_ended (h : SendInv c) (hstate : c.Ended) : c.inflight = 0 := by
  have hle := h.inflight_le hstate.live
  rw [(h.ended hstate).2.1] at hle
  exact Nat.le_zero.mp hle

/-- An acknowledgement takes out of the queue what is in flight and acknowledged. -/
theorem SendInv.acked (h : SendInv c) {p : TcpPkt} {tx : ByteBuffer} (hstate : c.Sending ∨ c.Ended)
    (hnxt : seqLess c.sndNxt p.ackNum = false) (huna : seqLess c.sndUna p.ackNum = true)
    (htx : (c.inflight = 0 ∧ tx = c.tx) ∨
      (0 < c.inflight ∧ c.tx.discard (min (p.ackNum - c.sndUna).toNat c.inflight) = .ok tx)) :
    SendInv { c with
      tx := tx, inflight := c.inflight - min (p.ackNum - c.sndUna).toNat c.inflight
      sndUna := p.ackNum, pending := none } := by
  rcases hstate with hstate | hstate
  · obtain ⟨hfin, hnum⟩ := h.sending hstate
    have hmss := h.inflight_le_mss hstate.live
    have hle := h.inflight_le hstate.live
    have hlen := h.tx_length hstate.live
    have hrange : c.inflight < 2 ^ 31 := Nat.lt_of_le_of_lt hmss (by decide)
    rw [hnum] at hnxt
    obtain ⟨hpos, hwithin⟩ := acknowledged_le hrange huna hnxt
    have hack := eq_add_distance c.sndUna p.ackNum
    generalize (p.ackNum - c.sndUna).toNat = x at *
    rw [Nat.min_eq_left hwithin] at htx ⊢
    rcases htx with ⟨hzero, -⟩ | ⟨-, hdiscard⟩
    · omega
    obtain ⟨tx', hok, -, hlen', hsize'⟩ := ByteBuffer.discard_eq (b := c.tx) (n := x)
      (by rw [hlen]; decide) (by omega)
    obtain rfl : tx' = tx := Except.ok.inj (hok.symm.trans hdiscard)
    refine .of_sending hstate h.rx_length (hlen'.trans hlen) ?_ ?_ hfin ?_
    · show c.inflight - x ≤ tx'.size
      omega
    · show c.inflight - x ≤ mss
      omega
    · show c.sndNxt = p.ackNum + .ofNat (c.inflight - x)
      rw [hnum, hack, add_assoc, ← UInt32.ofNat_add, Nat.add_sub_of_le hwithin]
  · obtain ⟨hfin, hsize, hend, hacked⟩ := h.ended hstate
    have hzero := h.inflight_ended hstate
    rcases htx with ⟨-, rfl⟩ | ⟨hpos, -⟩
    swap
    · omega
    refine .of_ended hstate h.rx_length (h.tx_length hstate.live) hsize ?_ hfin hend (.inr ?_)
    · show c.inflight - _ = 0
      omega
    · -- the FIN is the only number that can be acknowledged
      rcases hacked with hacked | hacked
      · have hone : c.sndNxt = c.sndUna + .ofNat 1 := by
          rw [hend, hacked]
          rfl
        rw [hone] at hnxt
        have hwithin := acknowledged_le (by decide) huna hnxt
        have hdistance : (p.ackNum - c.sndUna).toNat = 1 := by omega
        show p.ackNum = c.finSeq + 1
        rw [eq_add_distance c.sndUna p.ackNum, hdistance, hacked]
        rfl
      · have hnone : c.sndNxt = c.sndUna + .ofNat 0 := by
          rw [hend, hacked]
          simp
        rw [hnone] at hnxt
        have hwithin := acknowledged_le (by decide) huna hnxt
        omega

/-- The moves keep the send side. -/
theorem Move.sendInv (hmove : Move A H c c') (h : SendInv c) : SendInv c' := by
  cases hmove with
  | timers | window | keep | drop | closeWriting | closeReading =>
    exact { h with }
  | requeue | reset => exact h.ask _
  | leave err hlive herr => exact .of_not_live h.rx_length (fun hl => hl.1 rfl)
  | @synAcked p hp hstate hflags hrst hack =>
    exact h.opened (.inl hstate) (.inl rfl) rfl rfl rfl rfl hack.symm
  | @establish p hp hstate hflag hack hseq =>
    exact h.opened (.inr hstate) (.inl rfl) rfl rfl rfl rfl hack.symm
  | acked tx hp hstate hflag hnxt huna htx => exact h.acked hstate hnxt huna htx
  | finAcked hstate huna =>
    have hended : c.Ended := .inl hstate
    obtain ⟨hfin, hsize, hend, hacked⟩ := h.ended hended
    exact .of_ended (.inr (.inl rfl)) h.rx_length (h.tx_length hended.live) hsize
      (h.inflight_ended hended) hfin hend hacked
  | timeWait hstate => exact .of_not_live h.rx_length (fun hl => hl.2 rfl)
  | @received p n rx hp hstate hfin happ hlow hhigh hwrite =>
    have hpos : 0 < c.rx.data.length := by
      rw [h.rx_length]
      decide
    obtain ⟨rx', hok, -, hlen, -⟩ := ByteBuffer.write_eq hpos (p.payload.drop (-c.offset p).toNat)
    obtain ⟨-, rfl⟩ := Prod.mk.inj (Except.ok.inj (hok.symm.trans hwrite))
    exact ⟨hlen.trans h.rx_length, h.2, h.3, h.4, h.5,
      fun hs => absurd (Or.inl hs) hstate.2, h.7, h.8⟩
  | finReceived hp hstate hflag hfin hseq =>
    -- the states of one phase are only exchanged for one another
    by_cases hest : c.state = .established
    · obtain ⟨hsent, hnum⟩ := h.sending (.inl hest)
      have hlive : c.Live := Sending.live (.inl hest)
      simp only [if_pos hest]
      exact .of_sending (.inr rfl) h.rx_length (h.tx_length hlive) (h.inflight_le hlive)
        (h.inflight_le_mss hlive) hsent hnum
    · by_cases hwait : c.state = .finWait1
      · have hended : c.Ended := .inl hwait
        obtain ⟨hsent, hsize, hend, hacked⟩ := h.ended hended
        simp only [if_neg hest, if_pos hwait]
        exact .of_ended (.inr (.inr (.inl rfl))) h.rx_length (h.tx_length hended.live) hsize
          (h.inflight_ended hended) hsent hend hacked
      · simp only [if_neg hest, if_neg hwait]
        exact { h with }
  | sendAck | sendSynAck | sendFin | filler => exact h.emit (by simp) _ _ _
  | advance n hstate hinflight hsize hmss =>
    obtain ⟨hfin, hnum⟩ := h.sending hstate
    refine .of_sending hstate h.rx_length (h.tx_length hstate.live) hsize hmss hfin ?_
    show c.sndNxt + .ofNat n = c.sndUna + .ofNat n
    rw [hnum, hinflight]
    simp
  | sendData flags k hstate hflags hk =>
    have hlen := ByteBuffer.length_peek_le c.tx k
    have hmss := h.inflight_le_mss hstate.live
    unfold mss at hmss
    exact h.emit (by omega) _ _ _
  | endWriting hstate hinflight hsize hclosed =>
    obtain ⟨hfin, hnum⟩ := h.sending hstate
    refine .of_ended ?_ h.rx_length (h.tx_length hstate.live) hsize hinflight rfl rfl (.inl ?_)
    · rcases hstate with hstate | hstate <;> simp [Ended, hstate]
    · show c.sndUna = c.sndNxt
      rw [hnum, hinflight]
      simp

theorem Moves.sendInv (hmoves : Moves A H c c') (h : SendInv c) : SendInv c' := by
  induction hmoves with
  | refl => exact h
  | tail _ hmove ih => exact hmove.sendInv ih

end Halo.Tcp.Conn
