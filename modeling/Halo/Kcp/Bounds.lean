import Halo.Kcp.Input

/-!
# The datagrams of a run of KCP

A segment is cut to the maximum segment size when it is queued, and a flush writes it when it is
sent. A change of the mtu or of the reserved bytes between the two may leave a queued segment that
does not fit. `Fits` says that it does not: then no flush leaves its buffer, every datagram is no
longer than the mtu and holds whole segments only (`flush_in_bounds`), and an input reads these
segments back (`datagrams_decode`). Without it a flush slices its buffer out of range, after a
datagram without any segment (`flush_slices_out`, `reserved_alone`).
-/

namespace Halo.Kcp.KCP

open List

variable (byteCheck : Option (Bytes → UInt32))

/-- The settings agree, every segment fits, and the send buffer holds push segments. -/
structure Ready (k : KCP) : Prop extends Sound byteCheck k where
  push : ∀ seg ∈ k.sndBuf, seg.conv = k.conv ∧ seg.cmd = cmdPush

/-- A change of the settings that is accepted leaves room for every segment that is queued or
unacknowledged; the mtu is at most `limit`. -/
def Fits (limit : Nat) (k : KCP) : KcpEvent → Prop
  | .setMtu mtu => ((overhead byteCheck + k.reserved : Nat) : Int) < mtu → mtu ≤ limit ∧
      ∀ seg ∈ k.sndQueue ++ k.sndBuf,
        ((overhead byteCheck + k.reserved + seg.data.length : Nat) : Int) ≤ mtu
  | .reserveBytes n => 0 ≤ n → overhead byteCheck + n < k.mtu.toNat →
      ∀ seg ∈ k.sndQueue ++ k.sndBuf, overhead byteCheck + n + seg.data.length ≤ k.mtu.toNat
  | _ => True

instance (limit : Nat) (k : KCP) : ∀ e, Decidable (k.Fits byteCheck limit e)
  | .setMtu _ | .reserveBytes _ => inferInstanceAs (Decidable (_ → _))
  | .send _ | .recv _ | .input _ _ _ _ | .flush _ _ | .wndSize _ _ | .noDelay _ _ _ _ | .setStream _
    | .releaseTX =>
    isTrue trivial

/-- The datagrams that a call has passed to the output, when it returns or panics. -/
def sentBy : Except Panic (KCP × List Bytes) → List Bytes
  | .ok r => r.2
  | .error p => p.sent

/-- A datagram of an instance: no longer than the mtu, and whole segments after the reserved
bytes. -/
structure InOrder (k : KCP) (d : Bytes) : Prop where
  le_mtu : d.length ≤ k.mtu.toNat
  reserved_lt : k.reserved < d.length
  whole : Whole byteCheck (Readable k.conv) (d.drop k.reserved)

/-- The segments of a datagram are read back: the loop of `Input` takes exactly the segments that
the datagram was made of, one after the other, whatever it has done before, and an input returns no
error code; it panics only for a reason of its own. -/
def Decodes (k : KCP) (d : Bytes) : Prop :=
  ∃ segs : List Segment, d.drop k.reserved = segs.flatMap (Segment.wire byteCheck) ∧
    (∀ (regular : Bool) (a : InputAcc), a.k.conv = k.conv →
      inputLoop byteCheck regular (d.drop k.reserved).length a (d.drop k.reserved) =
        (segs.foldl (fun a seg => inputSegment a regular (seg.header byteCheck) seg.data) a, 0)) ∧
    ∀ (peer : KCP) (regular ackNoDelay : Bool) (clock : Nat → UInt32), peer.conv = k.conv →
      Outcome (fun r => r.1 = 0) (fun _ => ¬ peer.Ready byteCheck)
        (peer.input byteCheck (d.drop k.reserved) regular ackNoDelay clock)

/-- What a call leaves behind: an instance that is ready, and datagrams that are in order. -/
structure Left (k : KCP) (limit : Nat) (r : KCP × List Bytes) : Prop where
  ready : r.1.Ready byteCheck
  mtu : r.1.mtu = k.mtu ∨ r.1.mtu.toNat ≤ limit
  sent : ∀ d ∈ r.2, k.InOrder byteCheck d

section

variable {byteCheck} {k k' : KCP}

/-! ## Every call leaves the instance ready -/

theorem newKCP_ready (conv : UInt64) : (newKCP byteCheck conv).Ready byteCheck := by
  have hover : overhead byteCheck = 28 ∨ overhead byteCheck = 32 := by
    unfold overhead ikcpOverhead
    cases byteCheck.isSome
    · exact .inl rfl
    · exact .inr rfl
  refine ⟨⟨?_, ?_, length_replicate, fun _ h => absurd h not_mem_nil,
    fun _ h => absurd h not_mem_nil⟩, fun _ h => absurd h not_mem_nil⟩
  · show overhead byteCheck + 0 < 1400
    omega
  · show (1400 - UInt32.ofNat (overhead byteCheck)).toNat = 1400 - overhead byteCheck - 0
    rcases hover with h | h <;> rw [h] <;> rfl

/-- What carries over to a state with the same settings and no longer segments. -/
theorem Ready.of_segments (h : k.Ready byteCheck) (hsettings : SameSettings k k')
    (hqueue : ∀ seg ∈ k'.sndQueue, seg.data.length ≤ k.mss.toNat)
    (hbuf : ∀ seg ∈ k'.sndBuf, seg.data.length ≤ k.mss.toNat ∧ seg.conv = k.conv ∧
      seg.cmd = cmdPush) :
    k'.Ready byteCheck := by
  refine ⟨⟨?_, ?_, ?_, ?_, ?_⟩, ?_⟩
  · rw [hsettings.reserved, hsettings.mtu]
    exact h.room
  · rw [hsettings.reserved, hsettings.mtu, hsettings.mss]
    exact h.mss_eq
  · rw [hsettings.buffer, hsettings.mtu]
    exact h.buffer_eq
  · rw [hsettings.mss]
    exact hqueue
  · rw [hsettings.mss]
    exact fun seg hseg => (hbuf seg hseg).1
  · rw [hsettings.conv]
    exact fun seg hseg => (hbuf seg hseg).2

theorem Ready.heard (h : k.Ready byteCheck) {heads : List Header} (hk : Heard heads k k') :
    k'.Ready byteCheck := by
  obtain ⟨m, -, hkept⟩ := hk.sndBuf
  refine h.of_segments hk.settings (hk.sndQueue ▸ h.queue_fits) fun seg' hseg' => ?_
  obtain ⟨seg, hseg, hans⟩ := exists_of_forall₂_right hkept hseg'
  have hmem := mem_of_mem_drop hseg
  refine ⟨?_, hans.conv ▸ (h.push seg hmem).1, hans.cmd ▸ (h.push seg hmem).2⟩
  rcases hans.data with ⟨-, hdata⟩ | ⟨-, hdata, -⟩
  · exact hdata ▸ h.buf_fits seg hmem
  · rw [hdata]
    exact Nat.zero_le _

theorem Ready.adjusted (h : k.Ready byteCheck) (hk : Adjusted k k') : k'.Ready byteCheck := by
  obtain ⟨_, _, _, _, _, rfl⟩ := hk
  exact { h with }

theorem numbered_push {conv : UInt64} {sn : UInt32} {segs : List Segment} :
    ∀ seg ∈ numbered conv sn segs, seg.conv = conv ∧ seg.cmd = cmdPush := by
  induction segs generalizing sn with
  | nil => simp [numbered]
  | cons seg rest ih =>
    intro s hs
    rcases mem_cons.mp hs with rfl | hs
    · exact ⟨rfl, rfl⟩
    · exact ih s hs

theorem Ready.flushBuf_push (h : k.Ready byteCheck) (ackOnly : Bool) :
    ∀ seg ∈ k.flushBuf ackOnly, seg.conv = k.conv ∧ seg.cmd = cmdPush := by
  intro seg hseg
  rcases mem_append.mp hseg with hbuf | hnew
  · exact h.push seg hbuf
  · exact numbered_push seg hnew

theorem Ready.flushed (h : k.Ready byteCheck) {ackOnly : Bool} (hk : k.Flushed ackOnly k') :
    k'.Ready byteCheck := by
  refine h.of_segments hk.settings (fun seg hseg => ?_) fun seg' hseg' => ?_
  · rw [hk.sndQueue] at hseg
    exact h.queue_fits seg (mem_of_mem_drop hseg)
  · obtain ⟨seg, hseg, hsame⟩ := exists_of_forall₂_right hk.sndBuf hseg'
    have hpush := h.flushBuf_push ackOnly seg hseg
    exact ⟨hsame.data ▸ h.flushBuf_fits ackOnly seg hseg, hsame.conv ▸ hpush.1, hsame.cmd ▸ hpush.2⟩

/-- A segment of a flush is read by the peer. -/
theorem Ready.readable (h : k.Ready byteCheck) {ackOnly : Bool} {seg : Segment}
    (hseg : Carried k.conv (k.flushBuf ackOnly) seg) : Readable k.conv seg := by
  rcases hseg with ⟨hconv, hcmd, hdata⟩ | ⟨s, hs, -, hsame⟩
  · refine ⟨hconv, .inr hcmd, ?_⟩
    rw [hdata]
    decide
  · have hpush := h.flushBuf_push ackOnly s hs
    refine ⟨hsame.conv.trans hpush.1, .inl (hsame.cmd.trans hpush.2), ?_⟩
    rw [hsame.data]
    exact (h.flushBuf_fits ackOnly s hs).trans_lt k.mss.toNat_lt

theorem Ready.ends (h : k.Ready byteCheck) {r : KCP × List Bytes} (hr : k.Ends byteCheck r) :
    r.1.Ready byteCheck ∧ ∀ d ∈ r.2, k.InOrder byteCheck d := by
  rcases hr with rfl | ⟨ackOnly, hflushed, hsent⟩
  · exact ⟨h, forall_mem_nil _⟩
  · refine ⟨h.flushed hflushed, fun d hd => ?_⟩
    have hdata := hsent d hd
    refine ⟨hdata.le_cap.trans_eq h.buffer_eq, hdata.nonempty h.toSound, ?_⟩
    exact hdata.whole.mono fun seg hseg => h.readable hseg

theorem Ready.not_panics (h : k.Ready byteCheck) {p : Panic} : ¬ k.Panics byteCheck p := by
  rintro ⟨ackOnly, hsafe, -⟩
  exact hsafe h.toSound

/-! ## Send, receive and settings -/

theorem fragments_length_le {mss : Nat} {stream : Bool} (count : Nat) (buffer : Bytes) :
    ∀ seg ∈ fragments mss stream count buffer, seg.data.length ≤ mss := by
  induction count generalizing buffer with
  | zero => simp [fragments]
  | succ count ih =>
    intro seg hseg
    rcases mem_cons.mp hseg with rfl | hseg
    · exact length_take_le mss buffer
    · exact ih (buffer.drop mss) seg hseg

/-- The queue may be extended by segments that fit. -/
theorem Ready.queue (h : k.Ready byteCheck) {queue : List Segment}
    (hqueue : ∀ seg ∈ queue, seg.data.length ≤ k.mss.toNat) :
    ({ k with sndQueue := queue } : KCP).Ready byteCheck :=
  ⟨⟨h.room, h.mss_eq, h.buffer_eq, hqueue, h.buf_fits⟩, h.push⟩

theorem Ready.sendFragments (h : k.Ready byteCheck) (buffer : Bytes) :
    ∃ r, k.sendFragments buffer = .ok r ∧ r.2.Ready byteCheck ∧ SameSettings k r.2 := by
  have hmss : k.mss.toNat ≠ 0 := fun hzero => h.mss_ne_zero (UInt32.toNat_inj.mp hzero)
  rw [KCP.sendFragments, if_neg hmss]
  dsimp only
  split
  · exact ⟨_, rfl, h, .refl k⟩
  · refine ⟨_, rfl, h.queue fun seg hseg => ?_, ⟨rfl, rfl, rfl, rfl, rfl, rfl, rfl, rfl⟩⟩
    rcases mem_append.mp hseg with hold | hnew
    · exact h.queue_fits seg hold
    · exact fragments_length_le _ _ seg hnew

/-- In stream mode the last segment grows to the maximum segment size, which a pooled buffer holds
when the mtu is small. -/
theorem Ready.extendLast (h : k.Ready byteCheck) (buffer : Bytes) :
    (∃ r, k.extendLast buffer = .ok r ∧ r.2.Ready byteCheck ∧ SameSettings k r.2) ∨
      (mtuLimit < k.mtu.toNat ∧ ∃ fault, k.extendLast buffer = .error fault) := by
  unfold KCP.extendLast
  split
  · exact .inl ⟨_, rfl, h, .refl k⟩
  rename_i seg hlast
  have hmem : seg ∈ k.sndQueue := mem_of_getLast? hlast
  split
  · rename_i hlt
    have hextend : (if buffer.length < k.mss.toNat - seg.data.length then buffer.length
        else k.mss.toNat - seg.data.length) ≤ k.mss.toNat - seg.data.length := by
      split <;> omega
    dsimp only
    generalize (if buffer.length < k.mss.toNat - seg.data.length then buffer.length
        else k.mss.toNat - seg.data.length) = extend at hextend ⊢
    split
    · refine .inr ⟨?_, _, rfl⟩
      have := h.mss_eq
      omega
    · refine .inl ⟨_, rfl, h.queue fun s hs => ?_, ⟨rfl, rfl, rfl, rfl, rfl, rfl, rfl, rfl⟩⟩
      rcases mem_append.mp hs with hold | hnew
      · exact h.queue_fits s (mem_of_mem_dropLast hold)
      · rw [mem_singleton.mp hnew]
        simp only [length_append, length_take]
        omega
  · exact .inl ⟨_, rfl, h, .refl k⟩

theorem Ready.send (h : k.Ready byteCheck) (buffer : Bytes) :
    (∃ r, k.send buffer = .ok r ∧ r.2.Ready byteCheck ∧ SameSettings k r.2) ∨
      (mtuLimit < k.mtu.toNat ∧ ∃ fault, k.send buffer = .error fault) := by
  unfold KCP.send
  split
  · exact .inl ⟨_, rfl, h, .refl k⟩
  split
  · rcases h.extendLast buffer with ⟨⟨rest, k₁⟩, heq, hready, hsettings⟩ | ⟨hlimit, fault, heq⟩
    · rw [heq]
      dsimp only
      split
      · exact .inl ⟨_, rfl, hready, hsettings⟩
      · obtain ⟨r, hr, hready', hsettings'⟩ := hready.sendFragments rest
        exact .inl ⟨r, hr, hready', hsettings.trans hsettings'⟩
    · rw [heq]
      exact .inr ⟨hlimit, fault, rfl⟩
  · exact .inl (h.sendFragments buffer)

theorem recv_eq (k : KCP) (len : Nat) : ∃ heap queue nxt probe,
    (k.recv len).2.2 =
      { k with rcvBuf := heap, rcvQueue := queue, rcvNxt := nxt, probe := probe } := by
  unfold recv
  split
  · exact ⟨_, _, _, _, rfl⟩
  split
  · exact ⟨_, _, _, _, rfl⟩
  dsimp only
  obtain ⟨heap, queue, nxt, heq⟩ := moveAvailable_eq k.rcvBuf.segments.length
    { k with rcvQueue := (popMessage k.rcvQueue).2 }
  rw [heq]
  split
  · exact ⟨heap, queue, nxt, _, rfl⟩
  · exact ⟨heap, queue, nxt, _, rfl⟩

theorem Ready.recv (h : k.Ready byteCheck) (len : Nat) : (k.recv len).2.2.Ready byteCheck := by
  obtain ⟨heap, queue, nxt, probe, heq⟩ := k.recv_eq len
  rw [heq]
  exact { h with }

theorem toNat_sub_ofNat {m : UInt32} {a : Nat} (h : a ≤ m.toNat) :
    (m - .ofNat a).toNat = m.toNat - a := by
  have ha : (UInt32.ofNat a).toNat = a := UInt32.toNat_ofNat_of_lt' (h.trans_lt m.toNat_lt)
  rw [UInt32.toNat_sub_of_le _ _ (UInt32.le_iff_toNat_le.mpr (ha.trans_le h)), ha]

/-- The subtractions of the maximum segment size do not wrap. -/
theorem toNat_mss {m : UInt32} {a b : Nat} (h : a + b < m.toNat) :
    (m - .ofNat a - .ofNat b).toNat = m.toNat - a - b := by
  have hma := toNat_sub_ofNat (m := m) (a := a) (by omega)
  rw [toNat_sub_ofNat (by omega), hma]

/-- A change of the mtu or of the reserved bytes that leaves room for every segment. -/
theorem Ready.setRoom (h : k.Ready byteCheck) {mtu : UInt32} {reserved : Nat} {buffer : Bytes}
    (hroom : overhead byteCheck + reserved < mtu.toNat) (hbuffer : buffer.length = mtu.toNat)
    (hsegs : ∀ seg ∈ k.sndQueue ++ k.sndBuf,
      overhead byteCheck + reserved + seg.data.length ≤ mtu.toNat) :
    ({ k with
      mtu := mtu, mss := mtu - .ofNat (overhead byteCheck) - .ofNat reserved, reserved := reserved
      buffer := buffer } : KCP).Ready byteCheck := by
  have hmss := toNat_mss hroom
  refine ⟨⟨hroom, hmss, hbuffer, fun seg hseg => ?_, fun seg hseg => ?_⟩, h.push⟩
  · have := hsegs seg (mem_append_left _ hseg)
    dsimp only
    omega
  · have := hsegs seg (mem_append_right _ hseg)
    dsimp only
    omega

theorem Ready.setMtu (h : k.Ready byteCheck) {mtu : Int} {limit : Nat} (hlimit : limit < 2 ^ 32)
    (hfits : k.Fits byteCheck limit (.setMtu mtu)) :
    (k.setMtu byteCheck mtu).2.Ready byteCheck ∧
      ((k.setMtu byteCheck mtu).2.mtu = k.mtu ∨ (k.setMtu byteCheck mtu).2.mtu.toNat ≤ limit) := by
  unfold KCP.setMtu
  split
  · exact ⟨h, .inl rfl⟩
  obtain ⟨hmtu, hsegs⟩ := hfits (by omega)
  have hlt : mtu.toNat < 2 ^ 32 := by omega
  have hnat : (UInt32.ofNat mtu.toNat).toNat = mtu.toNat := UInt32.toNat_ofNat_of_lt' hlt
  refine ⟨h.setRoom (by omega) (length_replicate.trans hnat.symm) fun seg hseg => ?_, .inr ?_⟩
  · have := hsegs seg hseg
    omega
  · exact hnat.trans_le (by omega)

theorem Ready.reserveBytes (h : k.Ready byteCheck) {n : Int} {limit : Nat}
    (hfits : k.Fits byteCheck limit (.reserveBytes n)) :
    (k.reserveBytes byteCheck n).2.Ready byteCheck ∧
      (k.reserveBytes byteCheck n).2.mtu = k.mtu := by
  unfold KCP.reserveBytes
  split
  · exact ⟨h, rfl⟩
  · refine ⟨h.setRoom (by omega) h.buffer_eq fun seg hseg => ?_, rfl⟩
    have := hfits (by omega) (by omega) seg hseg
    omega

theorem wndSize_eq (k : KCP) (sndwnd rcvwnd : Int) : ∃ snd rcv,
    k.wndSize sndwnd rcvwnd = { k with sndWnd := snd, rcvWnd := rcv } := by
  unfold wndSize
  dsimp only
  split <;> split <;> exact ⟨_, _, rfl⟩

theorem noDelay_eq (k : KCP) (nodelay interval resend nc : Int) : ∃ a b c d e,
    k.noDelay nodelay interval resend nc = { k with
      nodelay := a, rxMinrto := b, interval := c, fastresend := d, nocwnd := e } := by
  unfold noDelay
  dsimp only
  split <;> split <;> split <;> split <;> exact ⟨_, _, _, _, _, rfl⟩

/-! ## A call -/

theorem Adjusted.settings (h : Adjusted k k') : SameSettings k k' := by
  obtain ⟨_, _, _, _, _, rfl⟩ := h
  exact ⟨rfl, rfl, rfl, rfl, rfl, rfl, rfl, rfl⟩

theorem InOrder.of_settings {d : Bytes} (h : k'.InOrder byteCheck d)
    (hsettings : SameSettings k k') : k.InOrder byteCheck d := by
  have hwhole := h.whole
  rw [hsettings.conv, hsettings.reserved] at hwhole
  exact ⟨hsettings.mtu ▸ h.le_mtu, hsettings.reserved ▸ h.reserved_lt, hwhole⟩

theorem Ends.mtu {r : KCP × List Bytes} (h : k.Ends byteCheck r) : r.1.mtu = k.mtu := by
  rcases h with rfl | ⟨ackOnly, hflushed, -⟩
  · rfl
  · exact hflushed.settings.mtu

/-- The segments of a datagram, and whatever is adjusted after them, leave an instance ready. -/
theorem Ready.afterLoop (h : k.Ready byteCheck) {regular : Bool} {data : Bytes} {k₁ : KCP}
    (hk₁ : Adjusted (k.afterLoop byteCheck regular data) k₁) :
    k₁.Ready byteCheck ∧ SameSettings k k₁ := by
  have hheard := inputAll_heard regular (k.segments byteCheck data) ⟨k, 0, false, false⟩
  exact ⟨(h.heard hheard).adjusted hk₁, hheard.settings.trans hk₁.settings⟩

/-- A call on an instance that is ready panics only when `Send` extends a segment beyond a pooled
buffer. -/
theorem Ready.step {limit : Nat} (hlimit : limit < 2 ^ 32) (h : k.Ready byteCheck) (e : KcpEvent)
    (hfits : k.Fits byteCheck limit e) :
    Outcome (k.Left byteCheck limit)
      (fun p => mtuLimit < k.mtu.toNat ∧ p.sent = []) (KCP.step byteCheck k e) := by
  cases e with
  | send buffer =>
    rw [KCP.step]
    rcases h.send buffer with ⟨r, hr, hready, hsettings⟩ | ⟨hlarge, fault, hr⟩
    · rw [hr]
      exact ⟨hready, .inl hsettings.mtu, forall_mem_nil _⟩
    · rw [hr]
      exact ⟨hlarge, rfl⟩
  | recv len =>
    obtain ⟨_, _, _, _, heq⟩ := k.recv_eq len
    exact ⟨h.recv len, .inl (by rw [heq]), forall_mem_nil _⟩
  | input data regular ackNoDelay clock =>
    refine ((input_outcome k data regular ackNoDelay clock).mono (fun _ => id) ?_).map ?_
    · rintro p ⟨k₁, hk₁, hpanics⟩
      exact absurd hpanics (h.afterLoop hk₁).1.not_panics
    · rintro r ⟨-, k₁, hk₁, hends⟩
      obtain ⟨hready, hsettings⟩ := h.afterLoop hk₁
      obtain ⟨hready', hsent⟩ := hready.ends hends
      exact ⟨hready', .inl (hends.mtu.trans hsettings.mtu),
        fun d hd => (hsent d hd).of_settings hsettings⟩
  | flush ackOnly clock =>
    refine ((flush_outcome k ackOnly clock).mono (fun _ => id) ?_).map ?_
    · rintro p hp
      exact absurd h.toSound hp.not_safe
    · rintro r hr
      have hends : k.Ends byteCheck (r.1, r.2.1) := .inr ⟨ackOnly, hr⟩
      obtain ⟨hready', hsent⟩ := h.ends hends
      exact ⟨hready', .inl hends.mtu, hsent⟩
  | setMtu mtu =>
    obtain ⟨hready, hmtu⟩ := h.setMtu hlimit hfits
    exact ⟨hready, hmtu, forall_mem_nil _⟩
  | reserveBytes n =>
    obtain ⟨hready, hmtu⟩ := h.reserveBytes hfits
    exact ⟨hready, .inl hmtu, forall_mem_nil _⟩
  | wndSize sndwnd rcvwnd =>
    obtain ⟨_, _, heq⟩ := k.wndSize_eq sndwnd rcvwnd
    rw [KCP.step, heq]
    exact ⟨{ h with }, .inl rfl, forall_mem_nil _⟩
  | noDelay nodelay interval resend nc =>
    obtain ⟨_, _, _, _, _, heq⟩ := k.noDelay_eq nodelay interval resend nc
    rw [KCP.step, heq]
    exact ⟨{ h with }, .inl rfl, forall_mem_nil _⟩
  | setStream stream =>
    exact ⟨{ h with }, .inl rfl, forall_mem_nil _⟩
  | releaseTX =>
    exact ⟨⟨⟨h.room, h.mss_eq, h.buffer_eq, forall_mem_nil _, forall_mem_nil _⟩, forall_mem_nil _⟩,
      .inl rfl, forall_mem_nil _⟩

end

/-! ## Runs -/

/-- A flush stays in its buffer: when every change of the settings leaves room for the segments that
are queued or unacknowledged, no call of a run panics, and its datagrams are no longer than the mtu
and hold whole segments. -/
theorem flush_in_bounds (conv : UInt64) (es : List KcpEvent)
    (h : EachRound (step byteCheck) (Fits byteCheck mtuLimit) (newKCP byteCheck conv) es) :
    EachRound (step byteCheck)
      (fun k e => ∃ r, step byteCheck k e = .ok r ∧ ∀ d ∈ r.2, k.InOrder byteCheck d)
      (newKCP byteCheck conv) es := by
  have hcall (k : KCP) (e : KcpEvent) (hk : k.Ready byteCheck ∧ k.mtu.toNat ≤ mtuLimit)
      (hfits : k.Fits byteCheck mtuLimit e) : ∃ r,
        step byteCheck k e = .ok r ∧ k.Left byteCheck mtuLimit r := by
    have hout := hk.1.step (by decide) e hfits
    cases hr : step byteCheck k e with
    | error p =>
      rw [hr] at hout
      exact absurd hk.2 (Nat.not_le.mpr hout.1)
    | ok r =>
      rw [hr] at hout
      exact ⟨r, rfl, hout⟩
  refine h.of_invariant (I := fun k => k.Ready byteCheck ∧ k.mtu.toNat ≤ mtuLimit)
    ⟨newKCP_ready conv, ?_⟩ ?_ ?_
  · show 1400 ≤ 1500
    decide
  · intro k e k₁ out hk hfits hstep
    obtain ⟨r, hr, hleft⟩ := hcall k e hk hfits
    cases hstep.symm.trans hr
    refine ⟨hleft.ready, ?_⟩
    rcases hleft.mtu with hmtu | hmtu
    · exact hmtu ▸ hk.2
    · exact hmtu
  · intro k e hk hfits
    obtain ⟨r, hr, hleft⟩ := hcall k e hk hfits
    exact ⟨r, hr, hleft.sent⟩

/-- A short segment is queued, and then the settings are changed. -/
def changedRun (change : KcpEvent) : List KcpEvent :=
  [.flush false fun _ => 0, .send [1, 2, 3], change, .flush false fun _ => 0]

/-- The segment on the wire. -/
def shortSegment : Bytes :=
  [7, 0, 0, 0, 0, 0, 0, 0, 81, 0, 32, 0, 0, 0, 0, 0, 0, 0, 0, 0, 0, 0, 0, 0, 3, 0, 0, 0, 1, 2, 3]

/-- The mtu is made smaller than it was, but not too small for the segment. -/
theorem flush_in_bounds_small_mtu :
    outputs (step none) (newKCP none 7) (changedRun (.setMtu 100)) =
      .ok [[], [], [], [shortSegment]] ∧
    EachRound (step none) (fun k e => ∃ r, step none k e = .ok r ∧ ∀ d ∈ r.2, k.InOrder none d)
      (newKCP none 7) (changedRun (.setMtu 100)) :=
  ⟨by decide +kernel, flush_in_bounds none 7 _ (by decide +kernel)⟩

/-- A segment of the default size is queued, and then the mtu is made smaller. -/
theorem flush_slices_out :
    outputs (step none) (newKCP none 0)
      [.flush false fun _ => 0, .send (List.replicate 1372 0), .setMtu 1000,
      .flush false fun _ => 0] = .error ⟨.indexOutOfRange, [[]]⟩ := by
  decide +kernel

variable {byteCheck} in
/-- A datagram that is in order is read back. -/
theorem InOrder.decodes {k : KCP} {d : Bytes} (h : k.InOrder byteCheck d) :
    k.Decodes byteCheck d := by
  obtain ⟨segs, hsegs, hreadable⟩ := h.whole
  have hreceived :=
    received_flatMap hreadable (le_refl (segs.flatMap (Segment.wire byteCheck)).length)
  rw [← hsegs] at hreceived
  refine ⟨segs, hsegs, fun regular a hconv => ?_, fun peer regular ackNoDelay clock hconv => ?_⟩
  · rw [inputLoop_eq, hconv, hreceived, inputAll, foldl_map]
  · have hlong : ¬ (d.drop k.reserved).length < overhead byteCheck := by
      have hpos := h.reserved_lt
      cases segs with
      | nil =>
        have hlen := congrArg List.length hsegs
        rw [length_drop, flatMap_nil, length_nil] at hlen
        omega
      | cons seg rest =>
        rw [hsegs, flatMap_cons, length_append, length_wire]
        omega
    refine (input_outcome peer _ regular ackNoDelay clock).mono ?_ ?_
    · rintro r ⟨hcode, -⟩
      rw [hcode, if_neg hlong, hconv, hreceived]
    · rintro p ⟨k₁, hk₁, hpanics⟩ hready
      exact (hready.afterLoop hk₁).1.not_panics hpanics

/-- The round trip over the wire: when every change of the settings leaves room for the segments
that are queued or unacknowledged, every datagram of a run is read back. -/
theorem datagrams_decode (conv : UInt64) (es : List KcpEvent)
    (h : EachRound (step byteCheck) (Fits byteCheck (2 ^ 32 - 1)) (newKCP byteCheck conv) es) :
    EachRound (step byteCheck) (fun k e => ∀ d ∈ sentBy (step byteCheck k e), k.Decodes byteCheck d)
      (newKCP byteCheck conv) es := by
  refine h.of_invariant (I := Ready byteCheck) (newKCP_ready conv) ?_ ?_
  · intro k e k₁ out hk hfits hstep
    have hout := hk.step (by decide) e hfits
    rw [hstep] at hout
    exact hout.ready
  · intro k e hk hfits d hd
    have hout := hk.step (by decide) e hfits
    cases hr : step byteCheck k e with
    | error p =>
      rw [hr] at hout hd
      rw [sentBy, hout.2] at hd
      cases hd
    | ok r =>
      rw [hr] at hout hd
      exact (hout.sent d hd).decodes

/-- Bytes are reserved that leave room for the segment. -/
theorem datagrams_decode_reserved_after :
    outputs (step none) (newKCP none 7) (changedRun (.reserveBytes 4)) =
      .ok [[], [], [], [[0, 0, 0, 0] ++ shortSegment]] ∧
    EachRound (step none) (fun k e => ∀ d ∈ sentBy (step none k e), k.Decodes none d)
      (newKCP none 7) (changedRun (.reserveBytes 4)) :=
  ⟨by decide +kernel, datagrams_decode none 7 _ (by decide +kernel)⟩

/-- The mtu stays what it is, and bytes are reserved after a segment of the default size has been
queued: a flush passes on a datagram of the reserved bytes alone, which is not a datagram for
`Input`. -/
theorem reserved_alone :
    outputs (step none) (newKCP none 0)
      [.flush false fun _ => 0, .send (List.replicate 1372 0), .reserveBytes 4,
      .flush false fun _ => 0] = .error ⟨.indexOutOfRange, [[0, 0, 0, 0]]⟩ ∧
    ((newKCP none 0).input none ([0, 0, 0, 0].drop 4) true false fun _ => 0).map (·.1) =
      .ok (-1) := by
  decide +kernel

end Halo.Kcp.KCP
