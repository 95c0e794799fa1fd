import Halo.Kcp.SendWindow

/-!
# The arithmetic of the congestion window

`Input` lets the congestion window grow, and a full flush cuts it after a retransmission. Both
compute with 32-bit words. `growCwndExact` and `updateCwndExact` are the two computations with
operations that fail where a word would overflow or a divisor would be zero; a computation is exact
when it is the result of these.

While the settings are in range and the window is small (`Steady`), every computation of `Input` is
exact (`Steady.growCwnd`). A full flush takes its threshold of fast retransmissions as an additive
term, and without fast retransmissions this term is the largest word: `Steady.update` says that its
computation is exact just where no early retransmission is due, or the threshold is set.
-/

namespace Halo.Kcp

/-- Addition that fails where the word would overflow. -/
def addExact (x y : UInt32) : Option UInt32 :=
  if x.toNat + y.toNat < 2 ^ 32 then some (x + y) else none

/-- Multiplication that fails where the word would overflow. -/
def mulExact (x y : UInt32) : Option UInt32 :=
  if x.toNat * y.toNat < 2 ^ 32 then some (x * y) else none

/-- Division that fails for the divisor zero. -/
def divExact (x y : UInt32) : Option UInt32 := if y = 0 then none else some (x / y)

section

variable {x y : UInt32}

theorem addExact_eq (h : x.toNat + y.toNat < 2 ^ 32) :
    addExact x y = some (x + y) ∧ (x + y).toNat = x.toNat + y.toNat := by
  refine ⟨if_pos h, ?_⟩
  rw [UInt32.toNat_add, Nat.mod_eq_of_lt h]

theorem mulExact_eq (h : x.toNat * y.toNat < 2 ^ 32) :
    mulExact x y = some (x * y) ∧ (x * y).toNat = x.toNat * y.toNat := by
  refine ⟨if_pos h, ?_⟩
  rw [UInt32.toNat_mul, Nat.mod_eq_of_lt h]

theorem divExact_eq (h : y ≠ 0) : divExact x y = some (x / y) := if_neg h

end

/-- The segment is retransmitted because of later acknowledgements. -/
def Segment.overtaken (resent : UInt32) (newSegsCount : Nat) (seg : Segment) : Bool :=
  seg.acked ≠ 1 ∧ seg.xmit ≠ 0 ∧ seg.fastack ≠ 0xffffffff ∧
    (resent ≤ seg.fastack ∨ (0 < seg.fastack ∧ newSegsCount = 0))

namespace KCP

variable (byteCheck : Option (Bytes → UInt32))

/-! ## The computations with exact operations -/

/-- `avoidCongestion` with exact operations. -/
def avoidCongestionExact (k : KCP) : Option KCP := do
  let incr := if k.incr < k.mss then k.mss else k.incr
  let square ← mulExact k.mss k.mss
  let share ← divExact square incr
  let more ← addExact share (k.mss / 16)
  let incr ← addExact incr more
  let next ← addExact k.cwnd 1
  let bytes ← mulExact next k.mss
  if bytes ≤ incr then
    let sum ← addExact incr k.mss
    if 0 < k.mss then
      let cwnd ← divExact (sum - 1) k.mss
      return { k with incr := incr, cwnd := cwnd }
    else return { k with incr := incr, cwnd := sum - 1 }
  else return { k with incr := incr }

/-- `raiseCwnd` with exact operations. -/
def raiseCwndExact (k : KCP) : Option KCP :=
  if k.cwnd < k.ssthresh then do
    let cwnd ← addExact k.cwnd 1
    let incr ← addExact k.incr k.mss
    return { k with cwnd := cwnd, incr := incr }
  else k.avoidCongestionExact

/-- `growCwnd` with exact operations. -/
def growCwndExact (k : KCP) (oldUna : UInt32) : Option KCP :=
  if k.nocwnd = 0 ∧ 0 < itimediff k.sndUna oldUna ∧ k.cwnd < k.rmtWnd then do
    let k ← k.raiseCwndExact
    if k.rmtWnd < k.cwnd then
      let incr ← mulExact k.rmtWnd k.mss
      return { k with cwnd := k.rmtWnd, incr := incr }
    else return k
  else some k

/-- `updateCwnd` with exact operations. -/
def updateCwndExact (k : KCP) (resent cwnd : UInt32) (change lostSegs : Nat) : Option KCP :=
  if k.nocwnd = 0 then do
    let k ←
      if 0 < change then do
        let ssthresh := max ((k.sndNxt - k.sndUna) / 2) 2
        let cwnd ← addExact ssthresh resent
        let incr ← mulExact cwnd k.mss
        pure { k with ssthresh := ssthresh, cwnd := cwnd, incr := incr }
      else pure k
    let k :=
      if 0 < lostSegs then { k with ssthresh := max (cwnd / 2) 2, cwnd := 1, incr := k.mss } else k
    return if k.cwnd < 1 then { k with cwnd := 1, incr := k.mss } else k
  else some k

/-! ## The end of a full flush -/

/-- What the update of the congestion window at the end of a flush gets. -/
structure CwndUpdate where
  k : KCP
  resent : UInt32
  cwnd : UInt32
  change : Nat
  lostSegs : Nat

/-- The state after the update. -/
def CwndUpdate.result (u : CwndUpdate) : KCP := u.k.updateCwnd u.resent u.cwnd u.change u.lostSegs

/-- The update is exact. -/
def CwndUpdate.Exact (u : CwndUpdate) : Prop :=
  u.k.updateCwndExact u.resent u.cwnd u.change u.lostSegs = some u.result

/-- The threshold of fast retransmissions. -/
def resent (k : KCP) : UInt32 := if k.fastresend ≤ 0 then 0xffffffff else k.fastresend.toUInt32

/-- A full flush up to the update of the congestion window (`flush_eq`). -/
def flushToUpdate (k : KCP) (clock : Nat → UInt32) :
    Except Panic (CwndUpdate × List Bytes × UInt32) := do
  let seg := { Segment.ofData [] with
    conv := k.conv, cmd := cmdAck, wnd := k.wndUnused, una := k.rcvNxt }
  let w ← Writer.start k
  let (seg, w) ← k.flushAcks byteCheck k.acklist seg w
  let k := { k with acklist := [] }.probeWindow (clock 0)
  let (seg, w) ← k.flushProbe byteCheck 1 cmdWask seg w
  let (seg, w) ← k.flushProbe byteCheck 2 cmdWins seg w
  let k := { k with probe := 0 }
  let cwnd := k.sendWindow
  let (k, newSegsCount) := moveNew cwnd k k.sndQueue
  let (sndBuf, t) ← k.transmit byteCheck seg.wnd seg.una k.resent newSegsCount clock 0 k.sndBuf
    ⟨w, clock 1, 0, 0, k.interval.toInt32, k.state⟩
  let w := t.w.flushBuffer k
  .ok (⟨{ k with sndBuf := sndBuf, state := t.state, buffer := w.buffer }, k.resent, cwnd, t.change,
    t.lostSegs⟩, w.sent, t.minrto.toUInt32)

/-- An early retransmission is due: a segment that has been sent is overtaken by acknowledgements,
and no new segment is sent, since none waits or the window is full. -/
def EarlyRetransmits (k : KCP) : Prop :=
  (k.sndQueue = [] ∨ k.sendWindow.toNat ≤ k.sndBuf.length) ∧
    ∃ seg ∈ k.sndBuf, seg.acked ≠ 1 ∧ seg.xmit ≠ 0 ∧ 0 < seg.fastack ∧ seg.fastack ≠ 0xffffffff

section

variable {byteCheck} {k k' : KCP}

/-! ## What leaves the congestion window alone -/

/-- The part of the state that the computations with the congestion window read and write, but for
the numbers of the send window. -/
def congestion (k : KCP) : (UInt32 × UInt32) × (Int32 × Int32) × UInt32 × UInt32 × UInt32 :=
  ((k.mtu, k.mss), (k.nocwnd, k.fastresend), k.cwnd, k.ssthresh, k.incr)

theorem inputSegment_congestion (a : InputAcc) (regular : Bool) (h : Header) (data : Bytes) :
    (inputSegment a regular h data).k.congestion = a.k.congestion := by
  have huna : (((if regular then { a.k with rmtWnd := h.wnd.toUInt32 } else a.k).parseUna
      h.una).1.shrinkBuf).congestion = a.k.congestion := by
    rw [shrinkBuf_eq]
    cases regular <;> rfl
  unfold inputSegment
  dsimp only
  generalize (((if regular then { a.k with rmtWnd := h.wnd.toUInt32 } else a.k).parseUna
      h.una).1.shrinkBuf) = k₁ at huna
  split
  · rename_i hcmd
    obtain ⟨buf, hack, -⟩ := parseAck_answered hcmd k₁
    obtain ⟨buf', hfast, -⟩ := parseFastack_answered [h] (k₁.parseAck h.sn) h.sn h.ts
    dsimp only
    rw [hfast, hack]
    exact huna
  · split
    · obtain ⟨acks, heap, queue, nxt, hpush⟩ := inputPush_eq k₁ h data
      rw [hpush]
      exact huna
    · split
      · exact huna
      · exact huna

theorem inputAll_congestion (regular : Bool) (segs : List (Header × Bytes)) (a : InputAcc) :
    (inputAll regular a segs).k.congestion = a.k.congestion := by
  induction segs generalizing a with
  | nil => rfl
  | cons seg rest ih =>
    exact (ih (inputSegment a regular seg.1 seg.2)).trans
      (inputSegment_congestion a regular seg.1 seg.2)

theorem updateRtt_congestion (a : InputAcc) (regular : Bool) (current : UInt32) :
    (a.updateRtt regular current).congestion = a.k.congestion := by
  unfold InputAcc.updateRtt
  split
  · unfold updateAck
    dsimp only
    split <;> rfl
  · rfl

variable {clock : Nat → UInt32} {resent : UInt32} {newSegsCount : Nat} {seg : Segment}

theorem flush_acks_congestion {r : KCP × List Bytes × UInt32}
    (h : k.flush byteCheck true clock = .ok r) : r.1.congestion = k.congestion := by
  rw [flush, bind_eq_ok] at h
  obtain ⟨w, -, h⟩ := h
  rw [bind_eq_ok] at h
  obtain ⟨⟨seg, w'⟩, -, h⟩ := h
  cases h
  rfl

/-! ## A full flush -/

/-- A full flush ends with the update of the congestion window. -/
theorem flush_eq (k : KCP) (clock : Nat → UInt32) :
    k.flush byteCheck false clock =
      (k.flushToUpdate byteCheck clock).map fun r => (r.1.result, r.2) := by
  have hmap {α β γ : Type} (x : Except Panic α) (f : α → Except Panic β) (g : β → γ) :
      (x >>= f).map g = x >>= fun a => (f a).map g := by
    cases x <;> rfl
  rw [flush, flushToUpdate, hmap]
  refine bind_congr fun w => ?_
  rw [hmap]
  refine bind_congr fun r => ?_
  dsimp only
  rw [if_neg Bool.false_ne_true, flushRest, hmap]
  refine bind_congr fun r₁ => ?_
  rw [hmap]
  refine bind_congr fun r₂ => ?_
  rw [hmap]
  refine bind_congr fun r₃ => ?_
  rfl

theorem needsend_change {current : UInt32} (hacked : seg.acked ≠ 1) :
    (needsend resent newSegsCount current seg = some .fast ∨
      needsend resent newSegsCount current seg = some .early) ↔
        seg.overtaken resent newSegsCount := by
  unfold needsend Segment.overtaken
  rw [decide_eq_true_eq]
  by_cases hxmit : seg.xmit = 0
  · simp [hxmit]
  by_cases hfast : resent ≤ seg.fastack ∧ seg.fastack ≠ 0xffffffff
  · rw [if_neg hxmit, if_pos hfast]
    exact iff_of_true (.inl rfl) ⟨hacked, hxmit, hfast.2, .inl hfast.1⟩
  by_cases hearly : 0 < seg.fastack ∧ seg.fastack ≠ 0xffffffff ∧ newSegsCount = 0
  · rw [if_neg hxmit, if_neg hfast, if_pos hearly]
    exact iff_of_true (.inr rfl) ⟨hacked, hxmit, hearly.2.1, .inr ⟨hearly.1, hearly.2.2⟩⟩
  · rw [if_neg hxmit, if_neg hfast, if_neg hearly]
    refine iff_of_false ?_ ?_
    · split <;> simp
    · rintro ⟨-, -, hmax, hle | ⟨hpos, hnew⟩⟩
      · exact hfast ⟨hle, hmax⟩
      · exact hearly ⟨hpos, hmax, hnew⟩

theorem transmitSegment_change {wnd : UInt16} {una now : UInt32} {seg' : Segment} {t t' : Transmit}
    (h : k.transmitSegment byteCheck wnd una resent newSegsCount now seg t = .ok (seg', t')) :
    t'.change = t.change + if seg.overtaken resent newSegsCount then 1 else 0 := by
  unfold transmitSegment at h
  split at h
  · rename_i hacked
    cases h
    simp [Segment.overtaken, hacked]
  rename_i hacked
  have hiff : (needsend resent newSegsCount t.current seg = some .fast ∨
      needsend resent newSegsCount t.current seg = some .early) ↔
        seg.overtaken resent newSegsCount :=
    needsend_change hacked
  split at h
  · rename_i hnone
    cases h
    simp_all
  · rename_i why hwhy
    rw [bind_eq_ok] at h
    obtain ⟨w, -, h⟩ := h
    rw [bind_eq_ok] at h
    obtain ⟨w', -, h⟩ := h
    cases h
    rw [hwhy] at hiff
    simp only [Option.some.injEq] at hiff
    simp only [hiff]

theorem transmit_change {wnd : UInt16} {una : UInt32} {n : Nat} {segs segs' : List Segment}
    {t t' : Transmit}
    (h : k.transmit byteCheck wnd una resent newSegsCount clock n segs t = .ok (segs', t')) :
    t'.change = t.change + segs.countP (Segment.overtaken resent newSegsCount) := by
  induction segs generalizing n t segs' with
  | nil =>
    cases h
    rfl
  | cons seg rest ih =>
    rw [transmit, bind_eq_ok] at h
    obtain ⟨⟨seg', t₁⟩, hseg, h⟩ := h
    rw [bind_eq_ok] at h
    obtain ⟨⟨rest', t₂⟩, hrest, h⟩ := h
    cases h
    rw [ih hrest, transmitSegment_change hseg, List.countP_cons, Nat.add_assoc,
      Nat.add_comm (List.countP _ _)]

/-- The update at the end of a full flush. -/
theorem flushToUpdate_spec {u : CwndUpdate} {out : List Bytes × UInt32}
    (h : k.flushToUpdate byteCheck clock = .ok (u, out)) :
    u.k.congestion = k.congestion ∧ u.k.sndUna = k.sndUna ∧
      u.k.sndNxt = k.sndNxt + .ofNat (k.newCount false) ∧ u.resent = k.resent ∧
        u.cwnd = k.sendWindow ∧
      u.change = (k.flushBuf false).countP (Segment.overtaken k.resent (k.newCount false)) := by
  obtain ⟨wait, ts, probe, hprobe⟩ := ({ k with acklist := [] } : KCP).probeWindow_eq (clock 0)
  rw [flushToUpdate, bind_eq_ok] at h
  obtain ⟨w, -, h⟩ := h
  rw [bind_eq_ok] at h
  obtain ⟨r, -, h⟩ := h
  rw [hprobe] at h
  dsimp only at h
  rw [bind_eq_ok] at h
  obtain ⟨r₁, -, h⟩ := h
  rw [bind_eq_ok] at h
  obtain ⟨r₂, -, h⟩ := h
  have hmove := moveNew_eq k.sendWindow { k with
    acklist := [], probeWait := wait, tsProbe := ts, probe := 0 }
  dsimp only at hmove h
  erw [hmove] at h
  rw [bind_eq_ok] at h
  obtain ⟨⟨sndBuf, t⟩, htransmit, h⟩ := h
  have hchange := transmit_change htransmit
  cases h
  refine ⟨rfl, rfl, rfl, rfl, rfl, ?_⟩
  rw [hchange, Nat.zero_add]
  rfl

/-! ## The bounds -/

/-- The settings are in range, and the congestion window is small. -/
structure Steady (k : KCP) : Prop where
  window : k.Window
  mtu_le : k.mtu.toNat ≤ mtuLimit
  mss_pos : 0 < k.mss.toNat
  mss_le : k.mss.toNat ≤ mtuLimit
  nocwnd_eq : k.nocwnd = 0
  resend_nonneg : 0 ≤ k.fastresend
  resend_lt : k.fastresend.toUInt32.toNat < 2 ^ 16
  cwnd_lt : k.cwnd.toNat < 2 ^ 17
  incr_le : k.incr.toNat ≤ (k.cwnd.toNat + 1) * mtuLimit

theorem Steady.of_congestion (h : k.Steady) (hwindow : k'.Window)
    (hsame : k'.congestion = k.congestion) : k'.Steady := by
  simp only [congestion, Prod.mk.injEq] at hsame
  obtain ⟨⟨hmtu, hmss⟩, ⟨hnocwnd, hresend⟩, hcwnd, -, hincr⟩ := hsame
  refine ⟨hwindow, ?_, ?_, ?_, ?_, ?_, ?_, ?_, ?_⟩
  · exact hmtu ▸ h.mtu_le
  · exact hmss ▸ h.mss_pos
  · exact hmss ▸ h.mss_le
  · exact hnocwnd ▸ h.nocwnd_eq
  · exact hresend ▸ h.resend_nonneg
  · exact hresend ▸ h.resend_lt
  · exact hcwnd ▸ h.cwnd_lt
  · rw [hcwnd, hincr]
    exact h.incr_le

/-- In congestion avoidance the bytes grow by less than two segments. -/
theorem Steady.avoidCongestion (h : k.Steady) (hbelow : k.cwnd < k.rmtWnd) :
    ∃ cwnd incr, k.avoidCongestionExact = some { k with cwnd := cwnd, incr := incr } ∧
      k.avoidCongestion = .ok { k with cwnd := cwnd, incr := incr } ∧
      incr.toNat ≤ (cwnd.toNat + 1) * mtuLimit := by
  have hmtu : mtuLimit = 1500 := rfl
  have hmss := h.mss_le
  have hpos := h.mss_pos
  have hold := h.incr_le
  have hcwnd := UInt32.lt_iff_toNat_lt.mp hbelow
  have hrmt := h.window.rmtWnd_lt
  rw [hmtu] at hmss hold
  unfold KCP.avoidCongestion avoidCongestionExact
  obtain ⟨incr, hincr, hle, hbound⟩ : ∃ incr, (if k.incr < k.mss then k.mss else k.incr) = incr ∧
      k.mss.toNat ≤ incr.toNat ∧ incr.toNat ≤ (k.cwnd.toNat + 1) * 1500 := by
    split
    · exact ⟨_, rfl, Nat.le_refl _, by omega⟩
    · rename_i hnot
      exact ⟨_, rfl, UInt32.le_iff_toNat_le.mp (UInt32.not_lt.mp hnot), hold⟩
  rw [hincr]
  have hne : incr ≠ 0 := by
    rintro rfl
    rw [UInt32.toNat_zero] at hle
    omega
  have hsquare : k.mss.toNat * k.mss.toNat ≤ 1500 * 1500 := Nat.mul_le_mul hmss hmss
  obtain ⟨hmul, hmul'⟩ := mulExact_eq (x := k.mss) (y := k.mss) (by omega)
  have hshare : (k.mss * k.mss / incr).toNat ≤ k.mss.toNat := by
    rw [UInt32.toNat_div, hmul']
    exact Nat.div_le_of_le_mul (Nat.mul_le_mul_right _ hle)
  have hpart : (k.mss / 16).toNat ≤ k.mss.toNat := by
    rw [UInt32.toNat_div]
    exact Nat.div_le_self _ _
  obtain ⟨hmore, hmore'⟩ := addExact_eq (x := k.mss * k.mss / incr) (y := k.mss / 16) (by omega)
  obtain ⟨hsum, hsum'⟩ :=
    addExact_eq (x := incr) (y := k.mss * k.mss / incr + k.mss / 16) (by omega)
  obtain ⟨hnext, hnext'⟩ := addExact_eq (x := k.cwnd) (y := 1) (by rw [UInt32.toNat_one]; omega)
  rw [UInt32.toNat_one] at hnext'
  have hproduct : (k.cwnd + 1).toNat * k.mss.toNat ≤ (k.cwnd.toNat + 1) * 1500 := by
    rw [hnext']
    exact Nat.mul_le_mul_left _ hmss
  obtain ⟨hbytes, hbytes'⟩ := mulExact_eq (x := k.cwnd + 1) (y := k.mss) (by omega)
  simp only [hmul, divExact_eq hne, hmore, hsum, hnext, hbytes, Option.bind_eq_bind,
    Option.bind_some, if_neg hne]
  have hgrown : (incr + (k.mss * k.mss / incr + k.mss / 16)).toNat ≤
      (k.cwnd.toNat + 1) * 1500 + 3000 := by
    omega
  generalize incr + (k.mss * k.mss / incr + k.mss / 16) = grown at hgrown
  have hmss0 : 0 < k.mss := UInt32.lt_iff_toNat_lt.mpr hpos
  have hmssne : k.mss ≠ 0 := by
    intro hzero
    rw [hzero, UInt32.toNat_zero] at hpos
    omega
  by_cases hfull : (k.cwnd + 1) * k.mss ≤ grown
  · obtain ⟨hlast, hlast'⟩ := addExact_eq (x := grown) (y := k.mss) (by omega)
    simp only [if_pos hfull, hlast, if_pos hmss0, divExact_eq hmssne, Option.bind_some]
    refine ⟨_, _, rfl, rfl, ?_⟩
    -- the window is the number of segments, rounded up
    have hone : (grown + k.mss - 1).toNat = grown.toNat + k.mss.toNat - 1 := by
      rw [UInt32.toNat_sub_of_le _ _
        (UInt32.le_iff_toNat_le.mpr (by rw [hlast', UInt32.toNat_one]; omega)),
        hlast', UInt32.toNat_one]
    rw [UInt32.toNat_div, hone, hmtu]
    have hdiv := Nat.div_add_mod (grown.toNat + k.mss.toNat - 1) k.mss.toNat
    have hmod := Nat.mod_lt (grown.toNat + k.mss.toNat - 1) hpos
    generalize (grown.toNat + k.mss.toNat - 1) / k.mss.toNat = q at hdiv
    calc grown.toNat ≤ k.mss.toNat * q := by omega
      _ ≤ 1500 * q := Nat.mul_le_mul_right q hmss
      _ = q * 1500 := Nat.mul_comm _ _
      _ ≤ (q + 1) * 1500 := Nat.mul_le_mul_right _ (Nat.le_succ q)
  · simp only [if_neg hfull]
    refine ⟨k.cwnd, _, rfl, rfl, ?_⟩
    have hlt := UInt32.lt_iff_toNat_lt.mp (UInt32.not_le.mp hfull)
    exact (Nat.le_of_lt hlt).trans (hbytes'.trans_le hproduct)

/-- `Input` computes exactly, and the window stays small. -/
theorem Steady.growCwnd (h : k.Steady) (oldUna : UInt32) :
    ∃ k', k.growCwndExact oldUna = some k' ∧ k.growCwnd oldUna = .ok k' ∧ k'.Steady := by
  unfold KCP.growCwnd growCwndExact
  by_cases hgrow : k.nocwnd = 0 ∧ 0 < itimediff k.sndUna oldUna ∧ k.cwnd < k.rmtWnd
  · rw [if_pos hgrow, if_pos hgrow]
    have hrmt := h.window.rmtWnd_lt
    have hbelow := UInt32.lt_iff_toNat_lt.mp hgrow.2.2
    have hmss := h.mss_le
    have hold := h.incr_le
    have hmtu : mtuLimit = 1500 := rfl
    rw [hmtu] at hmss hold
    obtain ⟨cwnd, incr, hexact, hraise, hincr⟩ : ∃ cwnd incr,
        k.raiseCwndExact = some { k with cwnd := cwnd, incr := incr } ∧
        k.raiseCwnd = .ok { k with cwnd := cwnd, incr := incr } ∧
        incr.toNat ≤ (cwnd.toNat + 1) * mtuLimit := by
      unfold raiseCwnd raiseCwndExact
      by_cases hslow : k.cwnd < k.ssthresh
      · rw [if_pos hslow, if_pos hslow]
        obtain ⟨hnext, hnext'⟩ :=
          addExact_eq (x := k.cwnd) (y := 1) (by rw [UInt32.toNat_one]; omega)
        obtain ⟨hmore, hmore'⟩ := addExact_eq (x := k.incr) (y := k.mss) (by omega)
        rw [UInt32.toNat_one] at hnext'
        refine ⟨k.cwnd + 1, k.incr + k.mss, ?_, rfl, ?_⟩
        · rw [hnext, hmore]
          rfl
        · rw [hnext', hmore', hmtu]
          omega
      · rw [if_neg hslow, if_neg hslow]
        exact h.avoidCongestion hgrow.2.2
    have hsteady {cwnd incr : UInt32} (hcwnd : cwnd.toNat < 2 ^ 16)
        (hincr : incr.toNat ≤ (cwnd.toNat + 1) * mtuLimit) :
        ({ k with cwnd := cwnd, incr := incr } : KCP).Steady :=
      ⟨h.window.adjusted ⟨_, _, _, _, _, rfl⟩, h.mtu_le, h.mss_pos, h.mss_le, h.nocwnd_eq,
        h.resend_nonneg, h.resend_lt, by dsimp only; omega, hincr⟩
    rw [hexact, hraise]
    dsimp only [Option.bind_eq_bind, Option.bind_some]
    by_cases hcap : k.rmtWnd < cwnd
    · have hproduct : k.rmtWnd.toNat * k.mss.toNat ≤ k.rmtWnd.toNat * 1500 :=
        Nat.mul_le_mul_left _ hmss
      obtain ⟨hmul, hmul'⟩ := mulExact_eq (x := k.rmtWnd) (y := k.mss) (by omega)
      refine ⟨{ k with cwnd := k.rmtWnd, incr := k.rmtWnd * k.mss }, ?_, ?_, hsteady hrmt ?_⟩
      · rw [if_pos hcap, hmul]
        rfl
      · exact if_pos hcap
      · exact hmul'.trans_le (hproduct.trans (Nat.mul_le_mul_right _ (Nat.le_succ _)))
    · have hle := UInt32.le_iff_toNat_le.mp (UInt32.not_lt.mp hcap)
      refine ⟨{ k with cwnd := cwnd, incr := incr }, ?_, ?_, hsteady (by omega) hincr⟩
      · rw [if_neg hcap]
        rfl
      · exact if_neg hcap
  · rw [if_neg hgrow, if_neg hgrow]
    exact ⟨k, rfl, rfl, h⟩

/-! ## The update at the end of a flush -/

theorem toNat_max (a b : UInt32) : (max a b).toNat = max a.toNat b.toNat := by
  show (if a ≤ b then b else a).toNat = _
  split
  · rename_i hle
    exact (Nat.max_eq_right (UInt32.le_iff_toNat_le.mp hle)).symm
  · rename_i hnot
    exact (Nat.max_eq_left (Nat.le_of_lt (UInt32.lt_iff_toNat_lt.mp (UInt32.not_le.mp hnot)))).symm

/-- The threshold after a retransmission: half the segments in flight. -/
def halved (k : KCP) : UInt32 := max ((k.sndNxt - k.sndUna) / 2) 2

/-- What the update does to the window. -/
theorem updateCwnd_cases (hnocwnd : k.nocwnd = 0) (resent cwnd : UInt32) (change lostSegs : Nat) :
    ∃ ssthresh cwnd' incr,
      k.updateCwnd resent cwnd change lostSegs =
        { k with ssthresh := ssthresh, cwnd := cwnd', incr := incr } ∧
      (cwnd' = 1 ∧ incr = k.mss ∨ 1 ≤ cwnd' ∧ cwnd' = k.cwnd ∧ incr = k.incr ∨
        1 ≤ cwnd' ∧ cwnd' = k.halved + resent ∧ incr = cwnd' * k.mss) ∧
      (0 < change → lostSegs = 0 → 1 ≤ k.halved + resent →
        ssthresh = k.halved ∧ cwnd' = k.halved + resent) := by
  unfold updateCwnd
  rw [if_pos hnocwnd]
  dsimp only
  have hone : ¬ (1 : UInt32) < 1 := UInt32.lt_irrefl 1
  have hhalved : max ((k.sndNxt - k.sndUna) / 2) 2 = k.halved := rfl
  by_cases hlost : 0 < lostSegs
  · simp only [if_pos hlost, if_neg hone]
    have hne : lostSegs ≠ 0 := Nat.ne_of_gt hlost
    split <;> exact ⟨_, _, _, rfl, .inl ⟨rfl, rfl⟩, fun _ hzero => absurd hzero hne⟩
  · simp only [if_neg hlost]
    by_cases hchange : 0 < change
    · simp only [if_pos hchange, hhalved]
      by_cases hsmall : k.halved + resent < 1
      · rw [if_pos hsmall]
        exact ⟨_, _, _, rfl, .inl ⟨rfl, rfl⟩, fun _ _ hle => absurd hsmall (UInt32.not_lt.mpr hle)⟩
      · rw [if_neg hsmall]
        exact ⟨_, _, _, rfl, .inr (.inr ⟨UInt32.not_lt.mp hsmall, rfl, rfl⟩),
          fun _ _ _ => ⟨rfl, rfl⟩⟩
    · simp only [if_neg hchange]
      by_cases hsmall : k.cwnd < 1
      · rw [if_pos hsmall]
        exact ⟨_, _, _, rfl, .inl ⟨rfl, rfl⟩, fun hpos => absurd hpos hchange⟩
      · rw [if_neg hsmall]
        exact ⟨_, _, _, rfl, .inr (.inl ⟨UInt32.not_lt.mp hsmall, rfl, rfl⟩),
          fun hpos => absurd hpos hchange⟩

theorem updateCwndExact_eq {cwnd : UInt32} {change lostSegs : Nat}
    (h : 0 < change → k.halved.toNat + resent.toNat < 2 ^ 32 ∧
      (k.halved + resent).toNat * k.mss.toNat < 2 ^ 32) :
    k.updateCwndExact resent cwnd change lostSegs =
      some (k.updateCwnd resent cwnd change lostSegs) := by
  unfold updateCwndExact updateCwnd
  by_cases hnocwnd : k.nocwnd = 0
  · rw [if_pos hnocwnd, if_pos hnocwnd]
    by_cases hchange : 0 < change
    · obtain ⟨hadd, hmul⟩ := h hchange
      simp only [if_pos hchange]
      have hsum : addExact (max ((k.sndNxt - k.sndUna) / 2) 2) resent = some (k.halved + resent) :=
        (addExact_eq hadd).1
      rw [hsum]
      dsimp only [Option.bind_eq_bind, Option.bind_some]
      rw [(mulExact_eq hmul).1]
      rfl
    · simp only [if_neg hchange]
      rfl
  · rw [if_neg hnocwnd, if_neg hnocwnd]

theorem updateCwndExact_none {cwnd : UInt32} {change lostSegs : Nat} (hnocwnd : k.nocwnd = 0)
    (hchange : 0 < change) (h : 2 ^ 32 ≤ k.halved.toNat + resent.toNat) :
    k.updateCwndExact resent cwnd change lostSegs = none := by
  have hadd : addExact (max ((k.sndNxt - k.sndUna) / 2) 2) resent = none :=
    if_neg (Nat.not_lt.mpr h)
  unfold updateCwndExact
  rw [if_pos hnocwnd]
  simp only [if_pos hchange]
  rw [hadd]
  rfl

/-! ## When an early retransmission is due -/

theorem newCount_eq_zero_iff (h : k.Window) :
    k.newCount false = 0 ↔ k.sndQueue = [] ∨ k.sendWindow.toNat ≤ k.sndBuf.length := by
  have hlen := h.length_lt
  have hwnd := k.sendWindow_le
  have hrmt := h.rmtWnd_lt
  rw [newCount, if_neg Bool.false_ne_true]
  cases k.sndQueue with
  | nil => exact iff_of_true rfl (.inl rfl)
  | cons seg rest =>
    have hfull : 0 ≤ itimediff k.sndNxt (k.sndUna + k.sendWindow) ↔
        k.sendWindow.toNat ≤ k.sndBuf.length := by
      rw [h.sndNxt_eq, itimediff_nonneg]
      nth_rewrite 1 [← UInt32.ofNat_toNat (x := k.sendWindow)]
      rw [toNat_sub_of_offsets k.sndUna (by omega) (by omega)]
      split <;> omega
    rw [sendCount, ← hfull]
    split <;> simp_all

theorem overtaken_off_iff : seg.overtaken 0xffffffff newSegsCount ↔ newSegsCount = 0 ∧
      seg.acked ≠ 1 ∧ seg.xmit ≠ 0 ∧ 0 < seg.fastack ∧ seg.fastack ≠ 0xffffffff := by
  have hmax : 0xffffffff ≤ seg.fastack → seg.fastack = 0xffffffff := by
    intro hle
    have hlt := seg.fastack.toNat_lt
    have hle := UInt32.le_iff_toNat_le.mp hle
    apply UInt32.toNat_inj.mp
    change 4294967295 ≤ seg.fastack.toNat at hle
    change seg.fastack.toNat = 4294967295
    omega
  unfold Segment.overtaken
  rw [decide_eq_true_eq]
  constructor
  · rintro ⟨hacked, hxmit, hne, hle | ⟨hpos, hnew⟩⟩
    · exact absurd (hmax hle) hne
    · exact ⟨hnew, hacked, hxmit, hpos, hne⟩
  · rintro ⟨hnew, hacked, hxmit, hpos, hne⟩
    exact ⟨hacked, hxmit, hne, .inr ⟨hpos, hnew⟩⟩

/-- Without a threshold only early retransmissions follow from acknowledgements. -/
theorem change_pos_iff (h : k.Window) :
    0 < (k.flushBuf false).countP (Segment.overtaken 0xffffffff (k.newCount false)) ↔
      k.EarlyRetransmits := by
  rw [List.countP_pos_iff, EarlyRetransmits, ← newCount_eq_zero_iff h]
  constructor
  · rintro ⟨seg, hseg, hover⟩
    obtain ⟨hnew, hover⟩ := overtaken_off_iff.mp hover
    rw [flushBuf, hnew, List.take_zero, numbered, List.append_nil] at hseg
    exact ⟨hnew, seg, hseg, hover⟩
  · rintro ⟨hnew, seg, hseg, hover⟩
    exact ⟨seg, List.mem_append_left _ hseg, overtaken_off_iff.mpr ⟨hnew, hover⟩⟩

/-! ## The update is exact -/

theorem Steady.resent_lt (h : k.Steady) (hpos : 0 < k.fastresend) : k.resent.toNat < 2 ^ 16 := by
  rw [resent, if_neg (Int32.not_le.mpr hpos)]
  exact h.resend_lt

theorem resent_off (hoff : ¬ 0 < k.fastresend) : k.resent = 0xffffffff :=
  if_pos (Int32.not_lt.mp hoff)

/-- The threshold after a retransmission is small. -/
theorem Window.halved_le (h : k.Window) (huna : k'.sndUna = k.sndUna)
    (hnxt : k'.sndNxt = k.sndNxt + .ofNat (k.newCount false)) :
    2 ≤ k'.halved.toNat ∧ k'.halved.toNat ≤ 2 ^ 15 := by
  have hlen := h.newCount_lt false
  have hflight : (k'.sndNxt - k'.sndUna).toNat = k.sndBuf.length + k.newCount false := by
    rw [hnxt, huna, h.sndNxt_eq, UInt32.add_assoc, ← UInt32.ofNat_add, add_sub_cancel_left]
    exact UInt32.toNat_ofNat_of_lt' (lt_trans hlen (by decide))
  have hhalf : ((k'.sndNxt - k'.sndUna) / 2).toNat = (k.sndBuf.length + k.newCount false) / 2 := by
    rw [UInt32.toNat_div, hflight]
    rfl
  have htwo : (2 : UInt32).toNat = 2 := rfl
  rw [halved, toNat_max, hhalf, htwo]
  omega

/-- The window after a retransmission is small, also where the sum wraps around. -/
theorem toNat_add_resent {half : UInt32} (hhalf : 2 ≤ half.toNat ∧ half.toNat ≤ 2 ^ 15)
    (hresent : resent.toNat < 2 ^ 16 ∨ resent = 0xffffffff) :
    1 ≤ (half + resent).toNat ∧ (half + resent).toNat < 2 ^ 17 := by
  rcases hresent with hlt | rfl
  · rw [(addExact_eq (x := half) (y := resent) (by omega)).2]
    omega
  · have hmax : (0xffffffff : UInt32).toNat = 2 ^ 32 - 1 := rfl
    rw [UInt32.toNat_add, hmax]
    omega

/-- What the update at the end of a full flush does. -/
theorem Steady.update (h : k.Steady) {u : CwndUpdate} {out : List Bytes × UInt32}
    (hu : k.flushToUpdate byteCheck clock = .ok (u, out)) :
    1 ≤ u.result.cwnd ∧
      (u.Exact ∧ (0 < u.change → u.lostSegs = 0 → u.result.ssthresh ≤ u.result.cwnd) ↔
        0 < k.fastresend ∨ ¬ k.EarlyRetransmits) ∧
      (u.result.Window → u.result.Steady) := by
  obtain ⟨hsame, huna, hnxt, hresent, -, hchange⟩ := flushToUpdate_spec hu
  have hhalf := h.window.halved_le huna hnxt
  simp only [congestion, Prod.mk.injEq] at hsame
  obtain ⟨⟨hmtu, hmss⟩, ⟨hnocwnd, hfast⟩, hcwnd, -, hincr⟩ := hsame
  have hmss_le : u.k.mss.toNat ≤ 1500 := hmss ▸ h.mss_le
  have hresent_cases : u.resent.toNat < 2 ^ 16 ∨ u.resent = 0xffffffff := by
    rw [hresent]
    by_cases hpos : 0 < k.fastresend
    · exact .inl (h.resent_lt hpos)
    · exact .inr (resent_off hpos)
  have hsum := toNat_add_resent hhalf hresent_cases
  have hproduct : (u.k.halved + u.resent).toNat * u.k.mss.toNat ≤
      (u.k.halved + u.resent).toNat * 1500 :=
    Nat.mul_le_mul_left _ hmss_le
  have hmul := mulExact_eq (x := u.k.halved + u.resent) (y := u.k.mss) (by omega)
  obtain ⟨ssthresh, cwnd, incr, hresult, hcases, hkeep⟩ :=
    updateCwnd_cases (hnocwnd.trans h.nocwnd_eq) u.resent u.cwnd u.change u.lostSegs
  have hresult : u.result = { u.k with ssthresh := ssthresh, cwnd := cwnd, incr := incr } := hresult
  refine ⟨?_, ⟨fun hexact => ?_, fun hcond => ?_⟩, fun hwindow => ?_⟩
  · rw [hresult]
    rcases hcases with ⟨rfl, -⟩ | ⟨hle, -⟩ | ⟨hle, -⟩
    · exact UInt32.le_refl 1
    · exact hle
    · exact hle
  · -- the sum of the threshold and the largest word overflows
    by_contra hnot
    rw [not_or, not_not] at hnot
    rw [resent_off hnot.1] at hresent hchange
    rw [← change_pos_iff h.window, ← hchange] at hnot
    have hmax : u.resent.toNat = 2 ^ 32 - 1 := by
      rw [hresent]
      rfl
    have hnone : u.k.updateCwndExact u.resent u.cwnd u.change u.lostSegs = none :=
      updateCwndExact_none (hnocwnd.trans h.nocwnd_eq) hnot.2 (by omega)
    cases hnone.symm.trans hexact.1
  · by_cases hpos : 0 < k.fastresend
    · have hlt : u.resent.toNat < 2 ^ 16 := hresent ▸ h.resent_lt hpos
      have hadd := addExact_eq (x := u.k.halved) (y := u.resent) (by omega)
      refine ⟨updateCwndExact_eq fun _ => ⟨by omega, by omega⟩, fun hchanged hzero => ?_⟩
      obtain ⟨rfl, rfl⟩ := hkeep hchanged hzero (UInt32.le_iff_toNat_le.mpr hsum.1)
      rw [hresult, UInt32.le_iff_toNat_le]
      dsimp only
      omega
    · have hnot := hcond.resolve_left hpos
      have hzero : u.change = 0 := by
        rw [← change_pos_iff h.window, ← resent_off hpos, ← hchange] at hnot
        omega
      refine ⟨updateCwndExact_eq fun hchanged => ?_, fun hchanged => ?_⟩
      · omega
      · omega
  · have hbounds : cwnd.toNat < 2 ^ 17 ∧ incr.toNat ≤ (cwnd.toNat + 1) * mtuLimit := by
      rcases hcases with ⟨rfl, rfl⟩ | ⟨-, rfl, rfl⟩ | ⟨-, rfl, rfl⟩
      · exact ⟨by decide, hmss_le.trans (by decide)⟩
      · rw [hcwnd, hincr]
        exact ⟨h.cwnd_lt, h.incr_le⟩
      · exact ⟨hsum.2, hmul.2.trans_le (hproduct.trans (Nat.mul_le_mul_right _ (Nat.le_succ _)))⟩
    rw [hresult] at hwindow ⊢
    exact ⟨hwindow, hmtu ▸ h.mtu_le, hmss ▸ h.mss_pos, hmss ▸ h.mss_le, hnocwnd ▸ h.nocwnd_eq,
      hfast ▸ h.resend_nonneg, hfast ▸ h.resend_lt, hbounds.1, hbounds.2⟩

end

end KCP

end Halo.Kcp
