import Halo.Kcp.Congestion

/-!
# The congestion window in the runs of KCP

`InRange` are the calls with congestion control on. In every run of them, whatever datagrams come
in, the state stays `Steady`, so that each computation with the congestion window is exact but for
the early retransmissions of a flush without a threshold (`exact_rounds`).
`early_retransmission_wraps` is a run with the default settings in which the window wraps around.
-/

namespace Halo.Kcp.KCP

variable (byteCheck : Option (Bytes → UInt32))

/-- The state in which an input lets the congestion window grow. -/
def growsFrom (k : KCP) : KcpEvent → Option KCP
  | .input data regular _ clock =>
    if data.length < overhead byteCheck then none
    else
      match inputLoop byteCheck regular data.length ⟨k, 0, false, false⟩ data with
      | (a, code) => if code ≠ 0 then none else some (a.updateRtt regular (clock 0))
  | _ => none

/-- The state in which a call starts a full flush, by itself or at the end of an input, and its
clock. -/
def flushesFrom (k : KCP) : KcpEvent → Option (KCP × (Nat → UInt32))
  | .flush false clock => some (k, clock)
  | .input data regular _ clock =>
    if data.length < overhead byteCheck then none
    else
      match inputLoop byteCheck regular data.length ⟨k, 0, false, false⟩ data with
      | (a, code) =>
        if code ≠ 0 then none
        else
          match (a.updateRtt regular (clock 0)).growCwnd k.sndUna with
          | .error _ => none
          | .ok k' => if a.flushSegments then some (k', fun n => clock (n + 1)) else none
  | _ => none

/-- The calls with congestion control on, an mtu up to the limit and a threshold of 16 bits. -/
def InRange : KcpEvent → Prop
  | .setMtu mtu => mtu ≤ mtuLimit
  | .noDelay _ _ resend nc => resend < 2 ^ 16 ∧ (0 ≤ nc → Int32.ofInt nc = 0)
  | .releaseTX => False
  | _ => True

/-- The computations of a call with the congestion window. -/
structure ExactRound (k : KCP) (e : KcpEvent) : Prop where
  /-- `Input` computes exactly. -/
  grow : ∀ k₁, k.growsFrom byteCheck e = some k₁ →
    ∃ k₂, k₁.growCwndExact k.sndUna = some k₂ ∧ k₁.growCwnd k.sndUna = .ok k₂
  /-- No call divides by zero. -/
  divide : ∀ p, k.step byteCheck e = .error p → p.fault ≠ .divideByZero
  /-- A full flush leaves a window, and computes exactly just where no early retransmission is due
  while there is no threshold. -/
  flush : ∀ k₁ clock u out, k.flushesFrom byteCheck e = some (k₁, clock) →
    k₁.flushToUpdate byteCheck clock = .ok (u, out) →
    k.step byteCheck e = .ok (u.result, out.1) ∧ 1 ≤ u.result.cwnd ∧
    (u.Exact ∧ (0 < u.change → u.lostSegs = 0 → u.result.ssthresh ≤ u.result.cwnd) ↔
      0 < k₁.fastresend ∨ ¬ k₁.EarlyRetransmits)

section

variable {byteCheck} {k k' : KCP}

/-! ## Settings -/

theorem newKCP_steady (conv : UInt64) : (newKCP byteCheck conv).Steady := by
  have hready : (newKCP byteCheck conv).Ready byteCheck := newKCP_ready conv
  have hmss : (newKCP byteCheck conv).mss.toNat = 1400 - overhead byteCheck - 0 := hready.mss_eq
  have hroom : overhead byteCheck + 0 < 1400 := hready.room
  have hlimit : mtuLimit = 1500 := rfl
  refine ⟨newKCP_window conv, (by decide : 1400 ≤ mtuLimit), ?_, ?_, rfl, Int32.le_refl 0,
    (by decide : (0 : Int32).toUInt32.toNat < 2 ^ 16), (by decide : (0 : UInt32).toNat < 2 ^ 17),
    Nat.zero_le _⟩
  · omega
  · omega

/-- A change of the mtu or of the reserved bytes that leaves room for data. -/
theorem Steady.setRoom (h : k.Steady) {mtu : UInt32} {reserved : Nat} (buffer : Bytes)
    (hmtu : mtu.toNat ≤ mtuLimit) (hroom : overhead byteCheck + reserved < mtu.toNat) :
    ({ k with
      mtu := mtu, mss := mtu - .ofNat (overhead byteCheck) - .ofNat reserved, reserved := reserved
      buffer := buffer } : KCP).Steady := by
  have hmss := toNat_mss hroom
  exact { h with
    window := { h.window with }
    mtu_le := hmtu
    mss_pos := by dsimp only; omega
    mss_le := by dsimp only; omega }

theorem Steady.setMtu (h : k.Steady) {mtu : Int} (hmtu : mtu ≤ mtuLimit) :
    (k.setMtu byteCheck mtu).2.Steady := by
  unfold KCP.setMtu
  split
  · exact h
  · rename_i haccept
    have hlimit : mtuLimit = 1500 := rfl
    have hnat : (UInt32.ofNat mtu.toNat).toNat = mtu.toNat :=
      UInt32.toNat_ofNat_of_lt' (lt_of_le_of_lt (show mtu.toNat ≤ 1500 by omega) (by decide))
    exact h.setRoom _ (by omega) (by omega)

theorem Steady.reserveBytes (h : k.Steady) (n : Int) : (k.reserveBytes byteCheck n).2.Steady := by
  unfold KCP.reserveBytes
  split
  · exact h
  · exact h.setRoom k.buffer h.mtu_le (by omega)

theorem ofInt_resend {resend : Int} (hpos : 0 ≤ resend) (hlt : resend < 2 ^ 16) :
    0 ≤ Int32.ofInt resend ∧ (Int32.ofInt resend).toUInt32.toNat < 2 ^ 16 := by
  obtain ⟨n, rfl⟩ := Int.eq_ofNat_of_zero_le hpos
  constructor
  · rw [Int32.le_iff_toInt_le, Int32.toInt_ofInt_of_le (by omega) (by omega)]
    exact hpos
  · rw [Int32.ofInt_eq_ofNat, Int32.toUInt32_ofNat', UInt32.toNat_ofNat']
    omega

theorem Steady.noDelay (h : k.Steady) (nodelay interval : Int) {resend nc : Int}
    (hresend : resend < 2 ^ 16) (hnc : 0 ≤ nc → Int32.ofInt nc = 0) :
    (k.noDelay nodelay interval resend nc).Steady := by
  obtain ⟨a, b, c, d, e, heq⟩ := k.noDelay_eq nodelay interval resend nc
  have hfast : (k.noDelay nodelay interval resend nc).fastresend =
      if 0 ≤ resend then Int32.ofInt resend else k.fastresend := by
    unfold KCP.noDelay
    split_ifs <;> rfl
  have hnocwnd : (k.noDelay nodelay interval resend nc).nocwnd =
      if 0 ≤ nc then Int32.ofInt nc else k.nocwnd := by
    unfold KCP.noDelay
    split_ifs <;> rfl
  rw [heq] at hfast hnocwnd ⊢
  dsimp only at hfast hnocwnd
  refine ⟨{ h.window with }, h.mtu_le, h.mss_pos, h.mss_le, ?_, ?_, ?_, h.cwnd_lt, h.incr_le⟩
  · dsimp only
    rw [hnocwnd]
    split
    · exact hnc ‹_›
    · exact h.nocwnd_eq
  · dsimp only
    rw [hfast]
    split
    · exact (ofInt_resend ‹_› hresend).1
    · exact h.resend_nonneg
  · dsimp only
    rw [hfast]
    split
    · exact (ofInt_resend ‹_› hresend).2
    · exact h.resend_lt

/-! ## Panics -/

/-- The computation does not divide by zero. -/
def NoDivision {α : Type} (x : Except Panic α) : Prop :=
  Outcome (fun _ => True) (fun p => p.fault = .indexOutOfRange) x

theorem NoDivision.ne_divideByZero {α : Type} {x : Except Panic α} (h : NoDivision x) {p : Panic}
    (hp : x = .error p) : p.fault ≠ .divideByZero := by
  rw [hp] at h
  intro hfault
  cases hfault.symm.trans h

variable {clock : Nat → UInt32} {e : KcpEvent}

theorem noDivision_flush (k : KCP) (ackOnly : Bool) (clock : Nat → UInt32) :
    NoDivision (k.flush byteCheck ackOnly clock) :=
  (flush_outcome k ackOnly clock).mono (fun _ _ => trivial) fun _ hp => hp.fault

theorem noDivision_flushAfterInput (k : KCP) (flushSegments ackNoDelay : Bool)
    (clock : Nat → UInt32) :
    NoDivision (k.flushAfterInput byteCheck flushSegments ackNoDelay clock) := by
  unfold flushAfterInput
  split
  · exact Outcome.map (noDivision_flush k false clock) fun _ _ => trivial
  · split
    · exact Outcome.map (noDivision_flush k true clock) fun _ _ => trivial
    · trivial

theorem sendFragments_ne_error (hmss : 0 < k.mss.toNat) (buffer : Bytes) (fault : Fault) :
    k.sendFragments buffer ≠ .error fault := by
  unfold sendFragments
  rw [if_neg (Nat.ne_of_gt hmss)]
  dsimp only
  split <;> exact nofun

theorem extendLast_fault {buffer : Bytes} {fault : Fault} (h : k.extendLast buffer = .error fault) :
    fault = .indexOutOfRange := by
  unfold extendLast at h
  split at h
  · cases h
  · split at h
    · rename_i seg _ _
      dsimp only at h
      generalize (if buffer.length < k.mss.toNat - seg.data.length then buffer.length
        else k.mss.toNat - seg.data.length) = n at h
      split at h
      · cases h
        rfl
      · cases h
    · cases h

theorem send_fault (hmss : 0 < k.mss.toNat) {buffer : Bytes} {fault : Fault}
    (h : k.send buffer = .error fault) : fault = .indexOutOfRange := by
  unfold send at h
  split at h
  · cases h
  split at h
  · cases hext : k.extendLast buffer with
    | error fault' =>
      rw [hext] at h
      cases h
      exact extendLast_fault hext
    | ok r =>
      obtain ⟨rest, k₁⟩ := r
      rw [hext] at h
      have hmss₁ : 0 < k₁.mss.toNat := by
        rcases extendLast_cases hext with heq | ⟨_, _, _, -, -, heq⟩ <;> cases heq <;> exact hmss
      dsimp only at h
      split at h
      · cases h
      · exact absurd h (sendFragments_ne_error hmss₁ _ _)
  · exact absurd h (sendFragments_ne_error hmss _ _)

/-! ## Every call -/

theorem Steady.flush (h : k.Steady) {ackOnly : Bool} {r : KCP × List Bytes × UInt32}
    (hr : k.flush byteCheck ackOnly clock = .ok r) : r.1.Steady := by
  have hout : Outcome _ _ (k.flush byteCheck ackOnly clock) := flush_outcome k ackOnly clock
  rw [hr] at hout
  have hwindow := h.window.flushed hout.1
  cases ackOnly with
  | true => exact h.of_congestion hwindow (flush_acks_congestion hr)
  | false =>
    rw [flush_eq, map_eq_ok] at hr
    obtain ⟨⟨u, out⟩, hu, rfl⟩ := hr
    exact (h.update hu).2.2 hwindow

variable (byteCheck) in
/-- What an input does with the congestion window: nothing, when it returns an error code, else it
lets the window grow and may flush. -/
theorem input_cases (k : KCP) (data : Bytes) (regular ackNoDelay : Bool) (clock : Nat → UInt32) :
    (k.growsFrom byteCheck (.input data regular ackNoDelay clock) = none ∧
      k.flushesFrom byteCheck (.input data regular ackNoDelay clock) = none ∧
      ∃ k', (k' = k ∨ k' = k.afterLoop byteCheck regular data) ∧
        k.step byteCheck (.input data regular ackNoDelay clock) = .ok (k', [])) ∨
    ∃ k₁ full,
      k₁ = (inputAll regular ⟨k, 0, false, false⟩ (k.segments byteCheck data)).updateRtt regular
        (clock 0) ∧
      k.growsFrom byteCheck (.input data regular ackNoDelay clock) = some k₁ ∧
      k.step byteCheck (.input data regular ackNoDelay clock) = (k₁.growCwnd k.sndUna >>= fun k' =>
        k'.flushAfterInput byteCheck full ackNoDelay fun n => clock (n + 1)) ∧
      k.flushesFrom byteCheck (.input data regular ackNoDelay clock) =
        match k₁.growCwnd k.sndUna with
        | .error _ => none
        | .ok k' => if full then some (k', fun n => clock (n + 1)) else none := by
  rw [growsFrom, flushesFrom, step, input, inputLoop_eq]
  dsimp only
  by_cases hshort : data.length < overhead byteCheck
  · refine .inl ⟨if_pos hshort, if_pos hshort, k, .inl rfl, ?_⟩
    rw [if_pos hshort]
    rfl
  rw [if_neg hshort, if_neg hshort, if_neg hshort]
  by_cases hcode : (received byteCheck k.conv data.length data).2 ≠ 0
  · refine .inl ⟨if_pos hcode, if_pos hcode, _, .inr rfl, ?_⟩
    rw [if_pos hcode]
    rfl
  · refine .inr ⟨_, _, rfl, if_neg hcode, ?_, if_neg hcode⟩
    rw [if_neg hcode]
    have hcode_dropped (x : Except Panic KCP) (f : KCP → Except Panic (KCP × List Bytes)) :
        (x >>= fun k' => f k' >>= fun r => Except.ok ((0 : Int), r.1, r.2)).map
          (fun r => (r.2.1, r.2.2)) = x >>= f := by
      cases x with
      | error p => rfl
      | ok k' => cases hf : f k' <;> simp [Bind.bind, Except.bind, Except.map, hf]
    exact hcode_dropped _ fun k' => k'.flushAfterInput byteCheck _ ackNoDelay fun n => clock (n + 1)

theorem Steady.afterLoop (h : k.Steady) (regular : Bool) (data : Bytes) :
    (k.afterLoop byteCheck regular data).Steady :=
  h.of_congestion (h.window.heard (inputAll_heard regular _ ⟨k, 0, false, false⟩))
    (inputAll_congestion regular _ ⟨k, 0, false, false⟩)

theorem Steady.updateRtt {a : InputAcc} (h : a.k.Steady) (regular : Bool) (current : UInt32) :
    (a.updateRtt regular current).Steady :=
  h.of_congestion (h.window.adjusted (updateRtt_adjusted a regular current))
    (updateRtt_congestion a regular current)

theorem Steady.flushAfterInput (h : k.Steady) {full ackNoDelay : Bool}
    {r : KCP × List Bytes} (hr : k.flushAfterInput byteCheck full ackNoDelay clock = .ok r) :
    r.1.Steady := by
  unfold KCP.flushAfterInput at hr
  split at hr
  · obtain ⟨r', hr', rfl⟩ := map_eq_ok.mp hr
    exact h.flush hr'
  · split at hr
    · obtain ⟨r', hr', rfl⟩ := map_eq_ok.mp hr
      exact h.flush hr'
    · cases hr
      exact h

theorem Steady.step (h : k.Steady) (he : InRange e) {sent : List Bytes}
    (hstep : k.step byteCheck e = .ok (k', sent)) : k'.Steady := by
  have hne : e ≠ .releaseTX := by
    rintro rfl
    exact he
  have hwindow := (h.window.step hne hstep).1
  cases e with
  | send buffer =>
    obtain ⟨queue, rfl⟩ := step_send_eq hstep
    exact h.of_congestion hwindow rfl
  | recv len =>
    obtain ⟨_, _, _, _, heq⟩ := k.recv_eq len
    rw [KCP.step, heq] at hstep
    cases hstep
    exact h.of_congestion hwindow rfl
  | input data regular ackNoDelay clock =>
    rcases k.input_cases byteCheck data regular ackNoDelay clock with
      ⟨-, -, k₁, hk₁, hinput⟩ | ⟨k₁, full, rfl, -, hinput, -⟩
    · rw [hinput] at hstep
      cases hstep
      rcases hk₁ with rfl | rfl
      · exact h
      · exact h.afterLoop regular data
    · obtain ⟨k₂, -, hgrow, hk₂⟩ :=
        ((h.afterLoop regular data).updateRtt regular (clock 0)).growCwnd k.sndUna
      rw [hinput, hgrow] at hstep
      exact hk₂.flushAfterInput hstep
  | flush ackOnly clock =>
    obtain ⟨r, hr, heq⟩ := map_eq_ok.mp hstep
    cases heq
    exact h.flush hr
  | setMtu mtu =>
    cases hstep
    exact h.setMtu he
  | reserveBytes n =>
    cases hstep
    exact h.reserveBytes n
  | wndSize sndwnd rcvwnd =>
    obtain ⟨_, _, heq⟩ := k.wndSize_eq sndwnd rcvwnd
    rw [KCP.step, heq] at hstep
    cases hstep
    exact h.of_congestion hwindow rfl
  | noDelay nodelay interval resend nc =>
    cases hstep
    exact h.noDelay nodelay interval he.1 he.2
  | setStream stream =>
    cases hstep
    exact h.of_congestion hwindow rfl
  | releaseTX => exact absurd rfl hne

/-- A call that ends with a full flush. -/
theorem Steady.exactFlush (h : k.Steady) {u : CwndUpdate} {out : List Bytes × UInt32}
    {x : Except Panic (KCP × List Bytes)}
    (hx : x = (k.flush byteCheck false clock).map fun r => (r.1, r.2.1))
    (hu : k.flushToUpdate byteCheck clock = .ok (u, out)) :
    x = .ok (u.result, out.1) ∧ 1 ≤ u.result.cwnd ∧
      (u.Exact ∧ (0 < u.change → u.lostSegs = 0 → u.result.ssthresh ≤ u.result.cwnd) ↔
        0 < k.fastresend ∨ ¬ k.EarlyRetransmits) := by
  obtain ⟨hpos, hiff, -⟩ := h.update hu
  refine ⟨?_, hpos, hiff⟩
  rw [hx, flush_eq, hu]
  rfl

/-- A call that neither lets the window grow nor flushes, and does not divide by zero. -/
theorem ExactRound.of_idle (hgrow : k.growsFrom byteCheck e = none)
    (hflush : k.flushesFrom byteCheck e = none) (hstep : NoDivision (k.step byteCheck e)) :
    k.ExactRound byteCheck e := by
  refine ⟨fun k₁ hk₁ => ?_, fun p hp => ?_, fun k₁ clock u out hk₁ => ?_⟩
  · cases hgrow.symm.trans hk₁
  · exact hstep.ne_divideByZero hp
  · cases hflush.symm.trans hk₁

theorem Steady.exactRound (h : k.Steady) (he : InRange e) : k.ExactRound byteCheck e := by
  cases e with
  | send buffer =>
    refine .of_idle rfl rfl ?_
    rw [KCP.step]
    cases hsend : k.send buffer with
    | error fault => exact send_fault h.mss_pos hsend
    | ok r => trivial
  | input data regular ackNoDelay clock =>
    rcases k.input_cases byteCheck data regular ackNoDelay clock with
      ⟨hgrow, hflush, k₁, -, hinput⟩ | ⟨k₁, full, hk₁, hgrows, hinput, hflushes⟩
    · refine .of_idle hgrow hflush ?_
      rw [hinput]
      trivial
    · have hsteady : k₁.Steady := hk₁ ▸ (h.afterLoop regular data).updateRtt regular (clock 0)
      obtain ⟨k₂, hexact, hgrow, hk₂⟩ := hsteady.growCwnd k.sndUna
      rw [hgrow] at hinput hflushes
      have hinput : k.step byteCheck (.input data regular ackNoDelay clock) =
        k₂.flushAfterInput byteCheck full ackNoDelay fun n => clock (n + 1) := hinput
      refine ⟨fun k₁' hk₁' => ?_, fun p hp => ?_, fun k₂' clock' u out hk₂' hu => ?_⟩
      · cases hgrows.symm.trans hk₁'
        exact ⟨k₂, hexact, hgrow⟩
      · have hflush :
            NoDivision (k₂.flushAfterInput byteCheck full ackNoDelay fun n => clock (n + 1)) :=
          noDivision_flushAfterInput k₂ full ackNoDelay _
        exact hflush.ne_divideByZero (hinput.symm.trans hp)
      · cases full with
        | false => cases hflushes.symm.trans hk₂'
        | true =>
          cases hflushes.symm.trans hk₂'
          exact hk₂.exactFlush hinput hu
  | flush ackOnly clock =>
    cases ackOnly with
    | true =>
      exact .of_idle rfl rfl (Outcome.map (noDivision_flush k true clock) fun _ _ => trivial)
    | false =>
      refine ⟨by rintro _ ⟨⟩, fun p hp => ?_, fun k₁ clock' u out hk₁ hu => ?_⟩
      · have hflush : NoDivision (k.step byteCheck (.flush false clock)) :=
          Outcome.map (noDivision_flush k false clock) fun _ _ => trivial
        exact hflush.ne_divideByZero hp
      · cases hk₁
        exact h.exactFlush rfl hu
  | releaseTX => exact absurd he id
  | _ => exact .of_idle rfl rfl trivial

end

/-! ## Runs -/

/-- In every run with congestion control on, an mtu up to the limit and a threshold of 16 bits,
whatever datagrams come in: `Input` computes exactly with the congestion window, no call divides by
zero, and a full flush leaves a window of at least one segment. It computes exactly, and leaves a
window not below the threshold of the slow start after a retransmission without losses, just where
the threshold of fast retransmissions is set or no early retransmission is due. -/
theorem exact_rounds (conv : UInt64) (es : List KcpEvent) (h : ∀ e ∈ es, InRange e) :
    EachRound (step byteCheck) (ExactRound byteCheck) (newKCP byteCheck conv) es := by
  refine (EachRound.of_forall h).of_invariant (newKCP_steady conv) ?_ ?_
  · intro k e k' sent hk he hstep
    exact hk.step he hstep
  · intro k e hk he
    exact hk.exactRound he

/-- An acknowledgement of the segment `sn`, and of all segments before `una`. -/
def ackOf (sn una : UInt32) : KcpEvent :=
  .input ({ Segment.ofData [] with conv := 7, cmd := cmdAck, wnd := 32, sn := sn, una := una }.wire
    none) true false fun _ => 0

/-- Three segments are sent, the second of them is lost. -/
def lossyRun : List KcpEvent :=
  [.send [1], .send [2], .send [3], .flush false fun _ => 0, .flush false fun _ => 0, ackOf 0 1]

theorem exact_rounds_lossyRun :
    (∀ e ∈ .noDelay 1 10 2 0 :: lossyRun ++ [ackOf 2 1], InRange e) ∧
    EachRound (step none) (ExactRound none) (newKCP none 7)
      (.noDelay 1 10 2 0 :: lossyRun ++ [ackOf 2 1]) := by
  have hrange : ∀ e ∈ .noDelay 1 10 2 0 :: lossyRun ++ [ackOf 2 1], InRange e := by
    intro e he
    fin_cases he
    · exact ⟨by decide, fun _ => rfl⟩
    all_goals trivial
  exact ⟨hrange, exact_rounds none 7 _ hrange⟩

/-- The state after a run. -/
def after (k : KCP) (es : List KcpEvent) : Except Panic KCP :=
  es.foldlM (fun k e => (k.step byteCheck e).map Prod.fst) k

theorem toOption_eq_some {α : Type} {x : Except Panic α} {a : α} :
    x.toOption = some a ↔ x = .ok a := by
  cases x <;> simp [Except.toOption]

/-- With the default settings: the acknowledgement of the third segment makes the second one
overtaken, and the input flushes. No segment waits, so this is an early retransmission. The window
is the threshold of the slow start plus the largest word. -/
theorem early_retransmission_wraps : (∀ e ∈ lossyRun ++ [ackOf 2 1], InRange e) ∧
    ∃ k k₁ clock u out, after none (newKCP none 7) lossyRun = .ok k ∧
      k.flushesFrom none (ackOf 2 1) = some (k₁, clock) ∧
        k₁.flushToUpdate none clock = .ok (u, out) ∧
      u.change = 1 ∧ u.lostSegs = 0 ∧ u.resent = 0xffffffff ∧ u.result.ssthresh = 2 ∧
        u.result.cwnd = 1 ∧
      ¬ u.Exact := by
  have hrun : ((after none (newKCP none 7) lossyRun).toOption.bind fun k =>
      (k.flushesFrom none (ackOf 2 1)).bind fun r =>
        (r.1.flushToUpdate none r.2).toOption.map fun q =>
        (q.1.change, q.1.lostSegs, q.1.resent, q.1.result.ssthresh, q.1.result.cwnd,
          (q.1.k.updateCwndExact q.1.resent q.1.cwnd q.1.change q.1.lostSegs).isSome)) =
      some (1, 0, 0xffffffff, 2, 1, false) := by
    decide +kernel
  obtain ⟨k, hk, hrun⟩ := Option.bind_eq_some_iff.mp hrun
  obtain ⟨⟨k₁, clock⟩, hk₁, hrun⟩ := Option.bind_eq_some_iff.mp hrun
  obtain ⟨⟨u, out⟩, hu, hrun⟩ := Option.map_eq_some_iff.mp hrun
  simp only [Prod.mk.injEq] at hrun
  obtain ⟨hchange, hlost, hresent, hssthresh, hcwnd, hnone⟩ := hrun
  refine ⟨fun e he => ?_, k, k₁, clock, u, out, toOption_eq_some.mp hk, hk₁, toOption_eq_some.mp hu,
    hchange, hlost, hresent, hssthresh, hcwnd, fun hexact => ?_⟩
  · fin_cases he <;> trivial
  · rw [CwndUpdate.Exact] at hexact
    rw [hexact] at hnone
    cases hnone

end Halo.Kcp.KCP
