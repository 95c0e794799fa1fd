import Halo.Tcp.Moves

/-!
# The functions of a connection are sequences of moves

From a connection with the invariant of the send side every function of the model succeeds, and what
it does is a sequence of moves.

* `input_moves`, `tick_moves`: the arrival of a segment and the timer.
* `read_cases`, `write_cases`: the rounds of `Read` and `Write`, which also change a queue.
* `closeWrite_moves`, `close_moves`, `setDeadlines_moves`, `unsent_moves`: the other calls.
-/

namespace Halo.Tcp.Conn

variable {A : TcpPkt → Prop} {H : Outbound → Prop} {c c' : Conn}

/-! ## `input` -/

theorem fail_moves (c : Conn) {err : Option Err} (herr : err ≠ some .eof) (reset : Bool) :
    Moves A H c (c.fail err reset) := by
  unfold fail
  split
  · exact .refl
  rename_i hlive
  dsimp only
  split
  · exact .tail (.single (.reset _ hlive)) (.leave err hlive herr)
  · exact .single (.leave err hlive herr)

theorem pump_moves (h : SendInv c) (now : Int) :
    ∃ c', c.pump now = .ok c' ∧ Moves A H c c' := by
  unfold pump
  split
  · exact ⟨c, rfl, .refl⟩
  rename_i hstate
  have hsending : c.Sending := by
    unfold Sending
    tauto
  split
  · exact ⟨c, rfl, .refl⟩
  rename_i hinflight
  have hzero : c.inflight = 0 := not_not.mp hinflight
  obtain ⟨hfin, hnum⟩ := h.sending hsending
  have huna : c.sndNxt = c.sndUna := by
    rw [hnum, hzero]
    simp
  split
  · split
    · exact ⟨_, rfl, .single (.timers ..)⟩
    · exact ⟨c, rfl, .refl⟩
  split
  · -- a segment with data
    generalize hn : min (min (min c.tx.size c.peerMss) mss) c.peerWindow.toNat = n
    have hsize : n ≤ c.tx.size := by omega
    have hmss : n ≤ mss := by omega
    have hpeek : c.peekTx n = .ok (c.tx.peek n) := if_neg (Nat.not_lt.mpr hsize)
    simp only [hpeek]
    refine ⟨_, rfl, ?_⟩
    refine .tail
      (.tail (.single (.timers c.rd c.wd c.closeEnd c.timeWaitEnd c.progress (some (now + c.rto))
      (some now) c.probeAt c.pendingAt c.rto c.srtt c.rttvar c.probeInterval true))
      (.advance n hsending hzero hsize hmss)) ?_
    rw [huna]
    exact .sendData _ n hsending (.inr rfl) (Nat.le_refl n)
  split
  · -- the FIN
    rename_i hsize hclosed
    refine ⟨_, rfl, ?_⟩
    refine .tail
      (.tail (.single (.timers c.rd c.wd c.closeEnd c.timeWaitEnd c.progress (some (now + c.rto))
      c.sentAt c.probeAt c.pendingAt c.rto c.srtt c.rttvar c.probeInterval c.rttValid))
      (.endWriting hsending hzero (not_not.mp hsize) hclosed.1)) ?_
    refine .sendFin ?_
    rcases hsending with hstate | hstate <;> simp [Ended, hstate]
  · exact ⟨c, rfl, .refl⟩

variable {p : TcpPkt}

theorem inputSynSent_moves (hp : A p) (hstate : c.state = .synSent) :
    Moves A H c (c.inputSynSent p) := by
  have hlive : c.state ≠ .closed := by
    rw [hstate]
    decide
  unfold inputSynSent
  split
  · split
    · exact .refl
    · exact .single (.reset p hlive)
  rename_i hack
  split
  · split
    · exact fail_moves c (by decide) false
    · exact .refl
  rename_i hrst
  split
  · exact .refl
  rename_i hflags
  rw [not_not] at hflags
  have hflag : p.Has tcpFlagsAck := by
    intro hzero
    have hmask : p.flags &&& (tcpFlagsSyn ||| tcpFlagsAck ||| tcpFlagsFin) &&& tcpFlagsAck =
        p.flags &&& tcpFlagsAck := by
      rw [UInt8.and_assoc]
      rfl
    rw [hflags, hzero] at hmask
    exact absurd hmask (by decide)
  exact .tail (.single (.synAcked hp hstate hflags hrst (by tauto))) (.sendAck ⟨nofun, nofun⟩)

theorem updateWindow_moves (hp : A p) (c : Conn) (now : Int) :
    Moves A H c (c.updateWindow p now) := by
  unfold updateWindow
  split
  · rename_i h
    exact .tail (.single (.window hp (Bool.not_eq_true _ ▸ h.1) h.2)) (.timers ..)
  · exact .refl

theorem updateRtt_eq (c : Conn) (now : Int) : ∃ rto srtt rttvar rttValid,
    c.updateRtt now =
      { c with rto := rto, srtt := srtt, rttvar := rttvar, rttValid := rttValid } := by
  unfold updateRtt
  split
  · exact ⟨_, _, _, _, rfl⟩
  · exact ⟨c.rto, c.srtt, c.rttvar, c.rttValid, rfl⟩

theorem fail_rcvNxt (c : Conn) (err : Option Err) (reset : Bool) :
    (c.fail err reset).rcvNxt = c.rcvNxt := by
  unfold fail
  dsimp only
  split
  · rfl
  · split <;> rfl

theorem fail_state (c : Conn) (err : Option Err) (reset : Bool) :
    (c.fail err reset).state = .closed := by
  unfold fail
  dsimp only
  split
  · assumption
  · rfl

theorem finAcknowledged_rcvNxt (c : Conn) (now : Int) :
    (c.finAcknowledged now).rcvNxt = c.rcvNxt := by
  unfold finAcknowledged
  split
  · rfl
  · rfl
  · exact fail_rcvNxt ..
  · rfl

theorem finAcknowledged_not_opening (c : Conn) (h : ¬ c.Opening) (now : Int) :
    ¬ (c.finAcknowledged now).Opening := by
  unfold finAcknowledged
  split
  · simp [Opening]
  · simp [Opening, enterTimeWait]
  · simp [Opening, fail_state]
  · exact h

theorem finAcknowledged_moves (now : Int) (huna : c.sndUna = c.finSeq + 1) :
    Moves A H c (c.finAcknowledged now) := by
  unfold finAcknowledged
  split
  · exact .single (.finAcked ‹_› huna)
  · exact .tail (.single (.timeWait (.inl ‹_›))) (.timers ..)
  · exact fail_moves c (by decide) false
  · exact .refl

/-- What an acknowledgement of `n` numbers takes out of the queue. -/
theorem consume_eq (h : SendInv c) (hlive : c.Live) (n : Nat) (now : Int) :
    ∃ tx rto srtt rttvar rttValid, c.consume n now = .ok { c with
      tx := tx, inflight := c.inflight - min n c.inflight
      rto := rto, srtt := srtt, rttvar := rttvar, rttValid := rttValid } ∧
    ((c.inflight = 0 ∧ tx = c.tx) ∨
      (0 < c.inflight ∧ c.tx.discard (min n c.inflight) = .ok tx)) := by
  have hle := h.inflight_le hlive
  unfold consume
  split
  · rename_i hpos
    have hlength : 0 < c.tx.data.length := by
      rw [h.tx_length hlive]
      decide
    obtain ⟨tx, hok, -, -, -⟩ := ByteBuffer.discard_eq (n := min n c.inflight) hlength (by omega)
    obtain ⟨rto, srtt, rttvar, rttValid, hrtt⟩ :=
      updateRtt_eq { c with tx := tx, inflight := c.inflight - min n c.inflight } now
    refine ⟨tx, rto, srtt, rttvar, rttValid, ?_, .inr ⟨hpos, hok⟩⟩
    simp only [hok, ← hrtt]
    rfl
  · rename_i hpos
    have hzero : c.inflight = 0 := by omega
    refine ⟨c.tx, c.rto, c.srtt, c.rttvar, c.rttValid, ?_, .inl ⟨hzero, rfl⟩⟩
    simp only [hzero, Nat.zero_sub]
    rw [← hzero]

theorem acknowledge_moves (hp : A p) (h : SendInv c) (hstate : c.Sending ∨ c.Ended)
    (hflag : p.Has tcpFlagsAck) (hnxt : seqLess c.sndNxt p.ackNum = false) (now : Int) :
    ∃ c', c.acknowledge p now = .ok c' ∧ Moves A H c c' ∧ c'.rcvNxt = c.rcvNxt ∧ ¬ c'.Opening := by
  have hopening : ¬ c.Opening := by
    rcases hstate with hstate | hstate
    · exact hstate.not_opening
    · exact hstate.not_opening
  unfold acknowledge
  split
  swap
  · exact ⟨c, rfl, .refl, rfl, hopening⟩
  rename_i huna
  have hlive : c.Live := by
    rcases hstate with hstate | hstate
    · exact hstate.live
    · exact hstate.live
  obtain ⟨tx, rto, srtt, rttvar, rttValid, hconsume, htx⟩ :=
    consume_eq h hlive (p.ackNum - c.sndUna).toNat now
  have hmoves : Moves A H c _ := .tail (.single (.acked tx hp hstate hflag hnxt huna htx))
    (.timers c.rd c.wd c.closeEnd c.timeWaitEnd (some now) (some (now + rto)) c.sentAt c.probeAt
      c.pendingAt rto srtt rttvar c.probeInterval rttValid)
  simp only [hconsume]
  refine ⟨_, rfl, ?_⟩
  split
  · rename_i hfin
    refine ⟨hmoves.trans (finAcknowledged_moves now hfin.2), finAcknowledged_rcvNxt _ _, ?_⟩
    apply finAcknowledged_not_opening
    exact hopening
  · exact ⟨hmoves, rfl, hopening⟩

theorem receive_moves (hp : A p) (h : SendInv c) (hstate : c.state ≠ .closed ∧ ¬ c.Opening) :
    ∃ c', c.receive p (c.offset p) = .ok c' ∧ Moves A H c c' ∧ ¬ c'.Opening := by
  unfold receive
  split
  swap
  · exact ⟨c, rfl, .refl, hstate.2⟩
  rename_i hdata
  obtain ⟨hstart, hne, hfin⟩ := hdata
  split
  · exact ⟨_, rfl, fail_moves c (by decide) true, by simp [Opening, fail_state]⟩
  rename_i happ
  have hpos : 0 < c.rx.data.length := by
    rw [h.rx_length]
    decide
  -- the segment starts at the next number or before it
  have htrim : trimmed p (c.offset p) = p.payload.drop (-c.offset p).toNat ∧
      -(p.payload.length : Int) ≤ c.offset p ∧ c.offset p ≤ 0 := by
    unfold trimmed
    unfold trimmedOffset at hstart
    split at hstart
    · rename_i hneg
      rw [if_pos hneg]
      exact ⟨rfl, by omega, by omega⟩
    · rename_i hneg
      rw [if_neg hneg, hstart]
      exact ⟨rfl, by omega, by omega⟩
  obtain ⟨htrim, hlow, hhigh⟩ := htrim
  obtain ⟨rx, hwrite, -⟩ := ByteBuffer.write_eq hpos (trimmed p (c.offset p))
  simp only [hwrite]
  rw [htrim] at hwrite ⊢
  exact ⟨_, rfl,
    .single (.received _ rx hp hstate (by simpa using hfin) (by simpa using happ) hlow hhigh
    hwrite), hstate.2⟩

theorem receiveFin_moves (hp : A p) (c : Conn) (hstate : c.state ≠ .closed ∧ ¬ c.Opening)
    (window : Nat) (receiveRight : UInt32) (now : Int) :
    Moves A H c (c.receiveFin p window receiveRight now) ∧
      (c.receiveFin p window receiveRight now).state ≠ .closed ∧
      ¬ (c.receiveFin p window receiveRight now).Opening := by
  unfold receiveFin
  dsimp only
  split
  swap
  · exact ⟨.refl, hstate⟩
  rename_i hfin
  obtain ⟨hflag, hrecv, hseq, -, -⟩ := hfin
  have hmove : Move A H c _ := .finReceived hp hstate hflag (by simpa using hrecv) hseq
  unfold finReceived
  split
  · rename_i hest
    simp only [if_pos hest] at hmove
    exact ⟨.single hmove, by rintro ⟨⟩, by simp [Opening]⟩
  · rename_i hwait
    have hne : ¬ c.state = .established := by rw [hwait]; decide
    simp only [if_neg hne, if_pos hwait] at hmove
    exact ⟨.single hmove, by rintro ⟨⟩, by simp [Opening]⟩
  · rename_i hwait
    have hne : ¬ c.state = .established := by rw [hwait]; decide
    have hne' : ¬ c.state = .finWait1 := by rw [hwait]; decide
    simp only [if_neg hne, if_neg hne'] at hmove
    exact ⟨.tail (.tail (.single hmove) (.timeWait (.inr hwait))) (.timers ..), by rintro ⟨⟩,
      by simp [Opening, enterTimeWait]⟩
  · rename_i hne hne' _
    simp only [if_neg hne, if_neg hne'] at hmove
    exact ⟨.single hmove, hstate⟩

theorem respond_moves (h : SendInv c) (hstate : c.state ≠ .closed ∧ ¬ c.Opening) (p : TcpPkt)
    (now : Int) : ∃ c', c.respond p now = .ok c' ∧ Moves A H c c' := by
  unfold respond
  split
  · have hmove : Move A H c c.ack := .sendAck ⟨hstate.1, fun hs => hstate.2 (.inl hs)⟩
    obtain ⟨c', hok, hmoves⟩ := pump_moves (A := A) (H := H) (hmove.sendInv h) now
    exact ⟨c', hok, .head hmove hmoves⟩
  · exact pump_moves h now

theorem inputAcceptable_moves (hp : A p) (h : SendInv c)
    (hstate : c.state = .synReceived ∨ c.Sending ∨ c.Ended) (hflag : p.Has tcpFlagsAck)
    (hnxt : seqLess c.sndNxt p.ackNum = false)
    (hsyn : c.state = .synReceived → p.ackNum = c.sndNxt ∧ p.seqNum = c.rcvNxt) (now : Int) :
    ∃ c', c.inputAcceptable p now = .ok c' ∧ Moves A H c c' := by
  -- the connection after the handshake
  obtain ⟨c₁, hc₁, hmoves₁, hstate₁, hnxt₁, hrcv₁⟩ : ∃ c₁,
    (if c.state = .synReceived then c.establish p else c) = c₁ ∧
      Moves A H c c₁ ∧ (c₁.Sending ∨ c₁.Ended) ∧ c₁.sndNxt = c.sndNxt ∧ c₁.rcvNxt = c.rcvNxt := by
    split
    · rename_i hs
      obtain ⟨hack, hseq⟩ := hsyn hs
      exact ⟨_, rfl, .single (.establish hp hs hflag hack hseq), .inl (.inl rfl), rfl, rfl⟩
    · exact ⟨c, rfl, .refl, by tauto, rfl, rfl⟩
  have hwindow := updateWindow_moves (H := H) hp c₁ now
  have hstate₂ : (c₁.updateWindow p now).state = c₁.state ∧
    (c₁.updateWindow p now).sndNxt = c₁.sndNxt ∧
      (c₁.updateWindow p now).rcvNxt = c₁.rcvNxt := by
    unfold updateWindow
    split <;> exact ⟨rfl, rfl, rfl⟩
  obtain ⟨hs₂, hn₂, hr₂⟩ := hstate₂
  have hmoves₂ := hmoves₁.trans hwindow
  obtain ⟨c₃, hok₃, hmoves₃, hrcv₃, hopening₃⟩ :=
    acknowledge_moves (H := H) hp (Moves.sendInv hmoves₂ h)
    (by unfold Sending Ended at *; rw [hs₂]; exact hstate₁) hflag
      (by rw [hn₂, hnxt₁]; exact hnxt) now
  have hmoves₃ := hmoves₂.trans hmoves₃
  have hoffset : c.offset p = c₃.offset p := by
    unfold offset
    rw [hrcv₃, hr₂, hrcv₁]
  unfold inputAcceptable
  simp only [hc₁, hok₃, hoffset, bind, Except.bind]
  split
  · exact ⟨c₃, rfl, hmoves₃⟩
  rename_i hclosed₃
  obtain ⟨c₄, hok₄, hmoves₄, hopening₄⟩ := receive_moves (H := H) hp (Moves.sendInv hmoves₃ h)
    ⟨hclosed₃, hopening₃⟩
  have hmoves₄ := hmoves₃.trans hmoves₄
  simp only [hok₄]
  split
  · exact ⟨c₄, rfl, hmoves₄⟩
  rename_i hclosed₄
  obtain ⟨hmoves₅, hstate₅⟩ := receiveFin_moves (H := H) hp c₄ ⟨hclosed₄, hopening₄⟩ c.rx.room
    (c.rcvNxt + .ofNat c.rx.room) now
  have hmoves₅ := hmoves₄.trans hmoves₅
  obtain ⟨c₆, hok₆, hmoves₆⟩ :=
    respond_moves (A := A) (H := H) (Moves.sendInv hmoves₅ h) hstate₅ p now
  exact ⟨c₆, hok₆, hmoves₅.trans hmoves₆⟩

/-- The arrival of a segment. -/
theorem input_moves (hp : A p) (h : SendInv c) (hlive : c.state ≠ .closed) (now : Int) :
    ∃ c', c.input p now = .ok c' ∧ Moves A H c c' := by
  unfold input
  split
  · exact ⟨_, rfl, inputSynSent_moves hp ‹_›⟩
  rename_i hsent
  have hack : Move A H c c.ack := .sendAck ⟨hlive, hsent⟩
  split
  · rename_i hsyn
    exact ⟨_, rfl, .single (.sendSynAck hsyn.1)⟩
  split
  · refine ⟨_, rfl, ?_⟩
    unfold inputTimeWait
    split
    · exact .refl
    split
    · exact .tail (.single (.timers ..)) (.sendAck ⟨hlive, hsent⟩)
    split
    · exact .single hack
    · exact .refl
  rename_i htime
  split
  · exact ⟨_, rfl, .single hack⟩
  split
  · split
    · exact ⟨_, rfl, fail_moves c (by decide) false⟩
    split
    · exact ⟨_, rfl, .single hack⟩
    · exact ⟨_, rfl, .refl⟩
  split
  · exact ⟨_, rfl, .single hack⟩
  split
  · exact ⟨_, rfl, .refl⟩
  rename_i hflag
  split
  · exact ⟨_, rfl, .single hack⟩
  rename_i hnxt
  split
  · exact ⟨_, rfl, .refl⟩
  rename_i hsyn
  refine inputAcceptable_moves hp h ?_ (not_not.mp hflag) (by simpa using hnxt) (by tauto) now
  unfold Sending Ended
  cases hs : c.state <;> simp_all

/-! ## The timer -/

theorem probe_moves (hstate : c.Sending) (hwrite : c.tx.size ≠ 0 ∨ c.writeClosed)
    (now : Int) : ∃ c', c.probe now = .ok c' ∧ Moves A H c c' := by
  obtain ⟨interval, at', hfirst⟩ : ∃ interval at',
      (if c.probeAt.isNone then { c with probeInterval := c.rto, probeAt := some (now + c.rto) }
        else c) = { c with probeInterval := interval, probeAt := at' } := by
    split
    · exact ⟨_, _, rfl⟩
    · exact ⟨c.probeInterval, c.probeAt, rfl⟩
  unfold probe
  simp only [hfirst]
  split
  · exact ⟨_, rfl, .single (.timers ..)⟩
  have htimers : Moves A H c
      { c with probeInterval := interval, probeAt := at', rttValid := false } :=
    .single (.timers ..)
  by_cases hsize : c.tx.size ≠ 0
  · have hone : 1 ≤ c.tx.size := Nat.pos_of_ne_zero hsize
    simp only [if_pos hsize]
    by_cases hzero : c.inflight = 0
    · simp only [if_pos hzero, peekTx, if_neg (Nat.not_lt.mpr hone)]
      refine ⟨_, rfl, ?_⟩
      refine .tail (.tail (htimers.tail (.advance 1 hstate hzero hone (by decide)))
        (.sendData tcpFlagsAck 1 hstate (.inl rfl) (Nat.le_refl 1))) (.timers ..)
    · simp only [if_neg hzero, peekTx, if_neg (Nat.not_lt.mpr hone)]
      refine ⟨_, rfl, ?_⟩
      exact .tail
        (htimers.tail (.sendData tcpFlagsAck 1 hstate (.inl rfl) (Nat.pos_of_ne_zero hzero)))
        (.timers ..)
  · simp only [if_neg hsize]
    refine ⟨_, rfl, ?_⟩
    exact .tail (htimers.tail (.filler hstate (not_not.mp hsize) (by tauto))) (.timers ..)

theorem retransmit_moves (h : SendInv c) (hstate : c.Sending ∨ c.Ended) (now : Int) :
    ∃ c', c.retransmit now = .ok c' ∧ Moves A H c c' := by
  unfold retransmit
  split
  swap
  · exact ⟨c, rfl, .refl⟩
  by_cases hzero : c.inflight ≠ 0
  · have hsending : c.Sending := by
      rcases hstate with hstate | hstate
      · exact hstate
      · exact absurd (h.inflight_ended hstate) hzero
    have hle := h.inflight_le hsending.live
    simp only [if_pos hzero, peekTx, if_neg (Nat.not_lt.mpr hle)]
    refine ⟨_, rfl, ?_⟩
    exact .tail (.single (.timers ..)) (.sendData _ c.inflight hsending (.inr rfl) (Nat.le_refl _))
  · simp only [if_neg hzero]
    split
    · rename_i hfin
      refine ⟨_, rfl, ?_⟩
      have hended : c.Ended := by
        rcases hstate with hstate | hstate
        · exact absurd ((h.sending hstate).1.symm.trans hfin) (by decide)
        · exact hstate
      exact .tail (.single (.timers ..)) (.sendFin hended)
    · exact ⟨_, rfl, .single (.timers ..)⟩

theorem tickConnected_moves (h : SendInv c) (hstate : c.Sending ∨ c.Ended) (now : Int) :
    ∃ c', c.tickConnected now = .ok c' ∧ Moves A H c c' := by
  unfold tickConnected
  split
  · rename_i hprobe
    have hsending : c.Sending := by
      rcases hstate with hstate | hstate
      · exact hstate
      · obtain ⟨hfin, hsize, -⟩ := h.ended hstate
        rcases hprobe.2 with hne | hclosed
        · exact absurd hsize hne
        · exact absurd hfin hclosed.2
    exact probe_moves hsending (hprobe.2.imp_right And.left) now
  · obtain ⟨c₁, hok₁, hmoves₁⟩ := retransmit_moves (A := A) (H := H) h hstate now
    obtain ⟨c₂, hok₂, hmoves₂⟩ := pump_moves (A := A) (H := H) (Moves.sendInv hmoves₁ h) now
    refine ⟨c₂, ?_, hmoves₁.trans hmoves₂⟩
    simp only [hok₁, bind, Except.bind, hok₂]

/-- A tick of the timer. -/
theorem tick_moves (h : SendInv c) (now : Int) : ∃ c', c.tick now = .ok c' ∧ Moves A H c c' := by
  unfold tick
  split
  · exact ⟨c, rfl, .refl⟩
  rename_i hlive
  split
  · refine ⟨_, rfl, ?_⟩
    split
    · exact .refl
    · exact fail_moves c (by decide) false
  rename_i htime
  split
  · exact ⟨_, rfl, fail_moves c (by decide) true⟩
  have hconnected : ∃ c', (if c.state = .synSent ∨ c.state = .synReceived then Except.ok c
      else c.tickConnected now) = .ok c' ∧ Moves A H c c' := by
    split
    · exact ⟨c, rfl, .refl⟩
    · refine tickConnected_moves h ?_ now
      unfold Sending Ended
      cases hs : c.state <;> simp_all
  split
  · rename_i out hpending
    split
    · exact hconnected
    refine ⟨_, rfl, ?_⟩
    unfold requeue
    dsimp only
    split
    · exact .tail (.tail (.single (.requeue hpending)) .drop) (.timers ..)
    · exact .tail (.single .drop) (.timers ..)
  · exact hconnected

/-! ## The calls -/

/-- The bytes of a round. -/
def Reply.bytes : Reply Bytes → Bytes
  | .returns data _ => data
  | .waits data => data

theorem SendInv.take (h : SendInv c) {n : Nat} {data : Bytes} {rx : ByteBuffer}
    (hread : c.rx.read n = .ok (data, rx)) : SendInv { c with rx := rx } := by
  have hpos : 0 < c.rx.data.length := by
    rw [h.rx_length]
    decide
  obtain ⟨rx', hok, -, hlen, hsize⟩ := ByteBuffer.read_eq hpos n
  obtain ⟨-, rfl⟩ := Prod.mk.inj (Except.ok.inj (hok.symm.trans hread))
  refine ⟨hlen.trans h.rx_length, h.2, h.3, h.4, h.5, fun hs => ?_, h.7, h.8⟩
  show rx'.size = 0
  rw [hsize, h.silent hs, Nat.zero_sub]

/-- A round of `Read` takes bytes from the receive queue, or has no bytes and changes nothing. -/
theorem read_cases (h : SendInv c) (n : Nat) (now : Int) :
    ∃ reply c', c.read n now = .ok (reply, c') ∧
    ((∃ data rx, c.rx.read n = .ok (data, rx) ∧ reply = .returns data none ∧
        Moves A H { c with rx := rx } c') ∨
      (reply.bytes = [] ∧ c' = c ∧ (reply = .returns [] (some .eof) →
        c.rx.size = 0 ∧ (c.err = some .eof ∨ c.recvFin = true)))) := by
  unfold read
  split
  · exact ⟨_, _, rfl, .inr ⟨rfl, rfl, nofun⟩⟩
  split
  · exact ⟨_, _, rfl, .inr ⟨rfl, rfl, nofun⟩⟩
  split
  · exact ⟨_, _, rfl, .inr ⟨rfl, rfl, nofun⟩⟩
  split
  · rename_i hsize
    have hpos : 0 < c.rx.data.length := by
      rw [h.rx_length]
      decide
    obtain ⟨rx, hread, -⟩ := ByteBuffer.read_eq hpos n
    simp only [hread]
    refine ⟨_, _, rfl, .inl ⟨_, rx, rfl, rfl, ?_⟩⟩
    split
    · rename_i hstate
      refine .single (.sendAck ⟨hstate.1, fun hs => ?_⟩)
      rw [h.silent hs] at hsize
      exact absurd hsize (Nat.lt_irrefl 0)
    · exact .refl
  rename_i hsize
  have hempty : c.rx.size = 0 := by omega
  split
  · refine ⟨_, _, rfl, .inr ⟨rfl, rfl, fun heof => ⟨hempty, .inl ?_⟩⟩⟩
    exact (Reply.returns.inj heof).2
  split
  · exact ⟨_, _, rfl, .inr ⟨rfl, rfl, fun _ => ⟨hempty, .inr ‹_›⟩⟩⟩
  split
  · exact ⟨_, _, rfl, .inr ⟨rfl, rfl, nofun⟩⟩
  · exact ⟨_, _, rfl, .inr ⟨rfl, rfl, nofun⟩⟩

theorem SendInv.put (h : SendInv c) (hstate : c.Sending) {p : Bytes} {n : Nat} {tx : ByteBuffer}
    (hwrite : c.tx.write p = .ok (n, tx)) : SendInv { c with tx := tx } := by
  have hpos : 0 < c.tx.data.length := by
    rw [h.tx_length hstate.live]
    decide
  obtain ⟨tx', hok, -, hlen, hsize⟩ := ByteBuffer.write_eq hpos p
  obtain ⟨-, rfl⟩ := Prod.mk.inj (Except.ok.inj (hok.symm.trans hwrite))
  obtain ⟨hfin, hnum⟩ := h.sending hstate
  have hle := h.inflight_le hstate.live
  refine .of_sending hstate h.rx_length (hlen.trans (h.tx_length hstate.live)) ?_
    (h.inflight_le_mss hstate.live) hfin hnum
  show c.inflight ≤ tx'.size
  omega

/-- A round of `Write` puts bytes into the send queue, or takes none and changes nothing. -/
theorem write_cases (h : SendInv c) (p : Bytes) (now : Int) :
    ∃ reply c', c.write p now = .ok (reply, c') ∧
    ((∃ n tx, c.tx.write p = .ok (n, tx) ∧ reply.bytes = p.take n ∧ c.Sending ∧
      c.writeClosed = false ∧
        Moves A H { c with tx := tx } c') ∨
      (reply.bytes = [] ∧ c' = c)) := by
  unfold write
  split
  · exact ⟨_, _, rfl, .inr ⟨rfl, rfl⟩⟩
  rename_i hclosed
  split
  · exact ⟨_, _, rfl, .inr ⟨rfl, rfl⟩⟩
  split
  · exact ⟨_, _, rfl, .inr ⟨rfl, rfl⟩⟩
  rename_i hstate
  have hsending : c.Sending := by
    unfold Sending
    tauto
  split
  · exact ⟨_, _, rfl, .inr ⟨rfl, rfl⟩⟩
  split
  · exact ⟨_, _, rfl, .inr ⟨rfl, rfl⟩⟩
  obtain ⟨progress, hprogress⟩ : ∃ progress,
      (if c.tx.size = 0 then { c with progress := some now } else c) =
        { c with progress := progress } := by
    split
    · exact ⟨_, rfl⟩
    · exact ⟨c.progress, rfl⟩
  have hpos : 0 < c.tx.data.length := by
    rw [h.tx_length hsending.live]
    decide
  obtain ⟨tx, hwrite, -⟩ := ByteBuffer.write_eq hpos p
  have htimers : Move A H { c with tx := tx } { c with progress := progress, tx := tx } :=
    .timers ..
  obtain ⟨c', hpump, hmoves⟩ := pump_moves (A := A) (H := H)
    (htimers.sendInv (h.put hsending hwrite)) now
  simp only [hprogress, hwrite, bind, Except.bind, hpump]
  refine ⟨_, c', rfl, .inl ⟨_, tx, rfl, ?_, hsending, by simp_all, .head htimers hmoves⟩⟩
  split
  · rename_i hall
    rw [hall, List.take_length]
    rfl
  · rfl

theorem closeWrite_moves (h : SendInv c) (now : Int) :
    ∃ err c', c.closeWrite now = .ok (err, c') ∧ Moves A H c c' := by
  unfold closeWrite
  split
  · exact ⟨_, _, rfl, .refl⟩
  split
  · have hmoves : Moves A H c
        { c with writeClosed := true, closeEnd := some (now + closeTimeout) } :=
      .tail (.single .closeWriting) (.timers ..)
    obtain ⟨c', hpump, hmoves'⟩ := pump_moves (A := A) (H := H) (Moves.sendInv hmoves h) now
    rw [hpump]
    exact ⟨none, c', rfl, hmoves.trans hmoves'⟩
  · exact ⟨_, _, rfl, .refl⟩

theorem close_moves (h : SendInv c) (now : Int) :
    ∃ err c', c.close now = .ok (err, c') ∧ Moves A H c c' := by
  unfold close
  split
  · exact ⟨_, _, rfl, .refl⟩
  have hclosed : Moves A H c { c with appClosed := true, writeClosed := true } :=
    .tail (.single .closeReading) .closeWriting
  dsimp only
  split
  · exact ⟨_, _, rfl, hclosed.trans (fail_moves _ (by decide) true)⟩
  split
  · have hmoves : Moves A H c
        { c with appClosed := true, writeClosed := true, closeEnd := some (now + closeTimeout) } :=
      hclosed.tail (.timers ..)
    obtain ⟨c', hpump, hmoves'⟩ := pump_moves (A := A) (H := H) (Moves.sendInv hmoves h) now
    rw [hpump]
    exact ⟨none, c', rfl, hmoves.trans hmoves'⟩
  · exact ⟨_, _, rfl, hclosed⟩

theorem setDeadlines_moves (c : Conn) (rd wd : Option (Option Int)) :
    Moves A H c (c.setDeadlines rd wd).2 := by
  unfold setDeadlines
  split
  · exact .refl
  · exact .single (.timers ..)

theorem unsent_moves (c : Conn) {out : Outbound} (h : H out) : Moves A H c (c.unsent out) := by
  unfold unsent
  split
  · exact .single (.keep h)
  · exact .refl

/-! ## New connections -/

/-- A new connection that has sent its SYN. -/
theorem SendInv.of_new (hopening : c.Opening) (hrx : c.rx = .new receiveBufferSize)
    (htx : c.tx = .new sendBufferSize) (hinflight : c.inflight = 0) (hfin : c.finSent = false)
    (hnum : c.sndNxt = c.sndUna + 1) : SendInv c where
  rx_length := by rw [hrx, ByteBuffer.length_data_new]
  tx_length := fun _ => by rw [htx, ByteBuffer.length_data_new]
  inflight_le := fun _ => by rw [hinflight]; exact Nat.zero_le _
  inflight_le_mss := fun _ => by rw [hinflight]; exact Nat.zero_le _
  opening := fun _ => ⟨by rw [htx, ByteBuffer.size_new], hfin, hnum⟩
  silent := fun _ => by rw [hrx, ByteBuffer.size_new]
  sending := fun hs => by
    rcases hopening with ho | ho <;> rcases hs with hs | hs <;> cases ho.symm.trans hs
  ended := fun hs => by
    rcases hopening with ho | ho <;> rcases hs with hs | hs | hs | hs <;> cases ho.symm.trans hs

theorem SendInv.dial (localAddr remoteAddr : Addr) (iss : UInt32) (now : Int) :
    SendInv (Conn.dial localAddr remoteAddr iss now) :=
  (SendInv.of_new (.inl rfl) rfl rfl rfl rfl rfl).emit (Nat.zero_le _) _ _ _

theorem SendInv.accept (localAddr remoteAddr : Addr) (iss : UInt32) (listener : Nat) (p : TcpPkt)
    (now : Int) : SendInv (Conn.accept localAddr remoteAddr iss listener p now) :=
  (SendInv.of_new (.inr rfl) rfl rfl rfl rfl rfl).emit (Nat.zero_le _) _ _ _

end Halo.Tcp.Conn
