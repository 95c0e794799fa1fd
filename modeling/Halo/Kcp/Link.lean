import Halo.Kcp.Moves

/-!
# Two KCP peers over a network

Each peer is an instance of KCP with settings that were made before the first call. The network
keeps every datagram that a peer has ever passed to its output; any of them may be given to the
other peer at any time, again and again or never, so datagrams are dropped, duplicated, delayed and
reordered, but not altered (`LinkEvent.deliver`). The layer below takes the reserved bytes off
before it passes a datagram on. A call that panics takes its peer down; the datagrams that it has
sent before stay in the network.

A peer also records what it has numbered, what `Send` has accepted and what `Recv` has returned.

`step_transmits` says what a call other than `Send` does to the sender's part of an instance: the
first segments of the queue get the next numbers, and what is sent or kept are segments that were
offered for it.
-/

namespace Halo.Kcp

open Function

theorem Segment.Same.trans {a b c : Segment} (h : a.Same b) (h' : b.Same c) : a.Same c :=
  ⟨h'.conv.trans h.conv, h'.cmd.trans h.cmd, h'.frg.trans h.frg, h'.sn.trans h.sn,
    h'.acked.trans h.acked, h'.data.trans h.data⟩

/-- A setting that is made before the first call. -/
inductive Setting where
  | setMtu (mtu : Int)
  | reserveBytes (n : Int)
  | wndSize (sndwnd rcvwnd : Int)
  | noDelay (nodelay interval resend nc : Int)
  | setStream (stream : Int32)

/-- One side of the link. -/
inductive Side where
  | left
  | right
  deriving DecidableEq

def Side.other : Side → Side
  | .left => .right
  | .right => .left

@[simp] theorem Side.other_other (s : Side) : s.other.other = s := by cases s <;> rfl

theorem Side.other_ne (s : Side) : s.other ≠ s := by cases s <;> decide

theorem Side.eq_other {s s' : Side} (h : s ≠ s') : s' = s.other := by
  cases s <;> cases s' <;> first | rfl | exact absurd rfl h

/-- A peer: its instance, the datagrams it has sent, how many segments it has numbered, the buffers
that its `Send` has accepted and the messages that its `Recv` has returned. -/
structure Peer where
  k : KCP
  sent : List Bytes
  count : Nat
  accepted : List Bytes
  received : List Bytes
  crashed : Bool

/-- The two peers. -/
abbrev Link := Side → Peer

/-- A call on one side, or the delivery of a datagram of the other side. -/
inductive LinkEvent where
  | send (s : Side) (buffer : Bytes)
  | recv (s : Side) (len : Nat)
  | flush (s : Side) (ackOnly : Bool) (clock : Nat → UInt32)
  | deliver (s : Side) (i : Nat) (regular ackNoDelay : Bool) (clock : Nat → UInt32)

variable (byteCheck : Option (Bytes → UInt32))

/-- A setting is made. -/
def Setting.apply (k : KCP) : Setting → KCP
  | .setMtu mtu => (k.setMtu byteCheck mtu).2
  | .reserveBytes n => (k.reserveBytes byteCheck n).2
  | .wndSize sndwnd rcvwnd => k.wndSize sndwnd rcvwnd
  | .noDelay nodelay interval resend nc => k.noDelay nodelay interval resend nc
  | .setStream stream => { k with stream := stream }

/-- A new instance with its settings. -/
def configure (conv : UInt64) (settings : List Setting) : KCP :=
  settings.foldl (Setting.apply byteCheck) (KCP.newKCP byteCheck conv)

namespace KCP

/-- The buffer that a call accepts. -/
def acceptedBy (k : KCP) : KcpEvent → List Bytes
  | .send buffer =>
    match k.send buffer with
    | .ok (code, _) => if code = 0 then [buffer] else []
    | .error _ => []
  | _ => []

/-- The message that a call returns. -/
def receivedBy (k : KCP) : KcpEvent → List Bytes
  | .recv len => if 0 ≤ (k.recv len).1 then [(k.recv len).2.1] else []
  | _ => []

end KCP

/-- A call on a peer. -/
def Peer.call (p : Peer) (e : KcpEvent) : Peer :=
  if p.crashed then p
  else
    match p.k.step byteCheck e with
    | .error panic =>
      { p with sent := p.sent ++ panic.sent.map (List.drop p.k.reserved), crashed := true }
    | .ok (k, sent) =>
      { p with
        k := k
        sent := p.sent ++ sent.map (List.drop p.k.reserved)
        count := p.count + (k.sndNxt - p.k.sndNxt).toNat
        accepted := p.accepted ++ p.k.acceptedBy e
        received := p.received ++ p.k.receivedBy e }

section

variable {byteCheck} {p : Peer} {e : KcpEvent}

theorem Peer.call_crashed (hcrashed : p.crashed = true) : p.call byteCheck e = p := if_pos hcrashed

theorem Peer.call_ok (hcrashed : p.crashed = false) {k : KCP} {sent : List Bytes}
    (hstep : p.k.step byteCheck e = .ok (k, sent)) :
    p.call byteCheck e = { p with
      k := k
      sent := p.sent ++ sent.map (List.drop p.k.reserved)
      count := p.count + (k.sndNxt - p.k.sndNxt).toNat
      accepted := p.accepted ++ p.k.acceptedBy e
      received := p.received ++ p.k.receivedBy e } := by
  rw [Peer.call, if_neg (by rw [hcrashed]; decide), hstep]

theorem Peer.call_error (hcrashed : p.crashed = false) {panic : Panic}
    (hstep : p.k.step byteCheck e = .error panic) :
    p.call byteCheck e = { p with
      sent := p.sent ++ panic.sent.map (List.drop p.k.reserved), crashed := true } := by
  rw [Peer.call, if_neg (by rw [hcrashed]; decide), hstep]

end

namespace Link

/-- The peers before the first call. -/
def start (k : Side → KCP) : Link := fun s => ⟨k s, [], 0, [], [], false⟩

/-- One step of the system. -/
def step (l : Link) : LinkEvent → Link
  | .send s buffer => Function.update l s ((l s).call byteCheck (.send buffer))
  | .recv s len => Function.update l s ((l s).call byteCheck (.recv len))
  | .flush s ackOnly clock => Function.update l s ((l s).call byteCheck (.flush ackOnly clock))
  | .deliver s i regular ackNoDelay clock =>
    match (l s.other).sent[i]? with
    | none => l
    | some d => Function.update l s ((l s).call byteCheck (.input d regular ackNoDelay clock))

/-- The peers after the events. -/
def run (l : Link) (es : List LinkEvent) : Link := es.foldl (step byteCheck) l

end Link

namespace KCP

/-- The calls of a running link. -/
def Running : KcpEvent → Prop
  | .send _ | .recv _ | .input .. | .flush .. => True
  | _ => False

/-- The segments that are offered for transmission when the first `n` of the queue get their
numbers. -/
def offers (k : KCP) (n : Nat) : List Segment :=
  k.sndBuf ++ numbered k.conv k.sndNxt (k.sndQueue.take n)

/-- The datagrams hold control segments and offered ones. -/
def Sends (k : KCP) (n : Nat) (sent : List Bytes) : Prop :=
  ∀ d ∈ sent, Whole byteCheck (Carried k.conv (k.offers n)) (d.drop k.reserved)

/-- A segment in flight: a control segment, or one with the property `Q`. -/
def InFlight (conv : UInt64) (Q : Segment → Prop) (seg : Segment) : Prop :=
  (seg.conv = conv ∧ (seg.cmd = cmdAck ∨ seg.cmd = cmdWask ∨ seg.cmd = cmdWins) ∧ seg.data = []) ∨
    Q seg

/-- The first `n` segments of the queue have got their numbers, and what is not acknowledged in the
send buffer was offered. -/
structure Transmits (k : KCP) (n : Nat) (k' : KCP) : Prop where
  settings : SameSettings k k'
  nxt : k'.sndNxt = k.sndNxt + .ofNat n
  queue : k'.sndQueue = k.sndQueue.drop n
  buf : ∀ s' ∈ k'.sndBuf, s'.acked ≠ 1 → ∃ s ∈ k.offers n, s.acked ≠ 1 ∧ s.Same s'

variable {byteCheck} {k k' : KCP}

/-! ## What is transmitted -/

variable {heads : List Header} {n : Nat}

/-- Acknowledgements free segments, and leave the others as they were. -/
theorem Heard.offers (h : Heard heads k k') {s' : Segment}
    (hs' : s' ∈ k'.offers n) (hacked : s'.acked ≠ 1) :
    ∃ s ∈ k.offers n, s.acked ≠ 1 ∧ s.Same s' := by
  rcases List.mem_append.mp hs' with hbuf | hnew
  · obtain ⟨m, -, hkept⟩ := h.sndBuf
    obtain ⟨s, hs, hans⟩ := exists_of_forall₂_right hkept hbuf
    rcases hans.data with ⟨hsame, hdata⟩ | ⟨hone, -⟩
    · refine ⟨s, List.mem_append_left _ (List.mem_of_mem_drop hs), hsame ▸ hacked, ?_⟩
      exact ⟨hans.conv, hans.cmd, hans.frg, hans.sn, hsame, hdata⟩
    · exact absurd hone hacked
  · rw [h.settings.conv, h.sndNxt, h.sndQueue] at hnew
    exact ⟨s', List.mem_append_right _ hnew, hacked, .refl s'⟩

theorem Heard.sends (h : Heard heads k k') {sent : List Bytes}
    (hsent : k'.Sends byteCheck n sent) : k.Sends byteCheck n sent := by
  intro d hd
  have hwhole := hsent d hd
  rw [h.settings.conv, h.settings.reserved] at hwhole
  refine hwhole.mono fun seg hseg => hseg.imp_right ?_
  rintro ⟨s', hs', hacked, hsame⟩
  obtain ⟨s, hs, hunacked, hsame'⟩ := h.offers hs' hacked
  exact ⟨s, hs, hunacked, hsame'.trans hsame⟩

theorem Heard.transmits (h : Heard heads k k') : Transmits k 0 k' := by
  refine ⟨h.settings, ?_, h.sndQueue, fun s' hs' hacked => h.offers ?_ hacked⟩
  · rw [h.sndNxt]
    exact (add_zero k.sndNxt).symm
  · exact List.mem_append_left _ hs'

theorem Flushed.transmits {ackOnly : Bool} (h : k.Flushed ackOnly k') :
    Transmits k (k.newCount ackOnly) k' := by
  refine ⟨h.settings, h.sndNxt, h.sndQueue, fun s' hs' hacked => ?_⟩
  obtain ⟨s, hs, hsame⟩ := exists_of_forall₂_right h.sndBuf hs'
  exact ⟨s, hs, hsame.acked ▸ hacked, hsame⟩

/-- Acknowledgements, and then a flush. -/
theorem Heard.then_transmits {k₁ : KCP} (h : Heard heads k k₁) (h' : Transmits k₁ n k') :
    Transmits k n k' := by
  refine ⟨h.settings.trans h'.settings, ?_, ?_, fun s' hs' hacked => ?_⟩
  · rw [h'.nxt, h.sndNxt]
  · rw [h'.queue, h.sndQueue]
  · obtain ⟨s₁, hs₁, hacked₁, hsame₁⟩ := h'.buf s' hs' hacked
    obtain ⟨s, hs, hunacked, hsame⟩ := h.offers hs₁ hacked₁
    exact ⟨s, hs, hunacked, hsame.trans hsame₁⟩

/-- A call other than `Send` that returns numbers fewer than `2 ^ 16` segments; so does one that
panics. -/
theorem step_transmits (hk : k.Window) {e : KcpEvent} (he : Running e)
    (hsend : ∀ buffer, e ≠ .send buffer) :
    Outcome (fun r => ∃ n < 2 ^ 16, n ≤ k.sndQueue.length ∧ Transmits k n r.1 ∧
      k.Sends byteCheck n r.2)
      (fun p => ∃ n < 2 ^ 16, n ≤ k.sndQueue.length ∧ k.Sends byteCheck n p.sent)
      (k.step byteCheck e) := by
  have hcount {k₁ : KCP} (hk₁ : k₁.Window) (ackOnly : Bool) : k₁.newCount ackOnly < 2 ^ 16 :=
    (Nat.le_add_left _ _).trans_lt (hk₁.newCount_lt ackOnly)
  have hidle : k.Sends byteCheck 0 [] := List.forall_mem_nil _
  cases e with
  | recv len =>
    obtain ⟨_, _, _, _, heq⟩ := k.recv_eq len
    refine ⟨0, by decide, Nat.zero_le _, ?_, hidle⟩
    dsimp only
    rw [heq]
    refine ⟨⟨rfl, rfl, rfl, rfl, rfl, rfl, rfl, rfl⟩, (add_zero k.sndNxt).symm, rfl,
      fun s hs hacked => ?_⟩
    exact ⟨s, List.mem_append_left _ hs, hacked, .refl s⟩
  | flush ackOnly clock =>
    refine (((flush_outcome k ackOnly clock).mono ?_ ?_).map fun r hr => hr)
    · intro r hr
      exact ⟨_, hcount hk ackOnly, k.newCount_le_length ackOnly, hr.1.transmits,
        fun d hd => (hr.2 d hd).whole⟩
    · intro p hp
      exact ⟨_, hcount hk ackOnly, k.newCount_le_length ackOnly, fun d hd => (hp.sent d hd).whole⟩
  | input data regular ackNoDelay clock =>
    have hloop {k₁ : KCP} (hk₁ : Adjusted (k.afterLoop byteCheck regular data) k₁) :
        Heard ((k.segments byteCheck data).map (·.1)) k k₁ :=
      heard_adjusted (inputAll_heard regular (k.segments byteCheck data) ⟨k, 0, false, false⟩) hk₁
    refine (((input_outcome k data regular ackNoDelay clock).mono ?_ ?_).map fun r hr => hr)
    · rintro ⟨code, k', sent⟩ ⟨-, k₁, hk₁, hends⟩
      have hheard := hloop hk₁
      rcases hends with heq | ⟨ackOnly, hflushed, hsent⟩
      · cases heq
        exact ⟨0, by decide, Nat.zero_le _, hheard.transmits, hidle⟩
      · refine ⟨_, hcount (hk.heard hheard) ackOnly, ?_,
          hheard.then_transmits hflushed.transmits, ?_⟩
        · rw [← hheard.sndQueue]
          exact k₁.newCount_le_length ackOnly
        · exact hheard.sends fun d hd => (hsent d hd).whole
    · rintro p ⟨k₁, hk₁, ackOnly, hpanic⟩
      have hheard := hloop hk₁
      refine ⟨_, hcount (hk.heard hheard) ackOnly, ?_,
        hheard.sends fun d hd => (hpanic.2 d hd).whole⟩
      rw [← hheard.sndQueue]
      exact k₁.newCount_le_length ackOnly
  | send buffer => exact absurd rfl (hsend buffer)
  | _ => exact absurd he id

/-! ## What is in flight -/

section

variable {conv : UInt64} {Q : Segment → Prop}

/-- What is sent has a property if what was offered has it. -/
theorem Sends.inFlight {n : Nat} {sent : List Bytes} (h : k.Sends byteCheck n sent)
    (hconv : k.conv = conv) (hQ : ∀ s ∈ k.offers n, s.acked ≠ 1 → ∀ seg, s.Same seg → Q seg) :
    ∀ d ∈ sent.map (List.drop k.reserved), Whole byteCheck (InFlight conv Q) d := by
  intro d hd
  obtain ⟨d₀, hd₀, rfl⟩ := List.mem_map.mp hd
  refine (h d₀ hd₀).mono fun seg hseg => ?_
  rcases hseg with hcontrol | ⟨s, hs, hacked, hsame⟩
  · exact .inl (hconv ▸ hcontrol)
  · exact .inr (hQ s hs hacked seg hsame)

/-- The push segments that are read from a datagram are those in flight. -/
theorem inFlight_segments (hQ : ∀ seg, Q seg → Readable conv seg) {d : Bytes}
    (h : Whole byteCheck (InFlight conv Q) d) (hconv : k.conv = conv) :
    ∀ seg ∈ k.segments byteCheck d, seg.1.cmd = cmdPush →
      ∃ s, Q s ∧ seg = (s.header byteCheck, s.data) := by
  obtain ⟨segs, rfl, hflight⟩ := h
  have hreadable : ∀ seg ∈ segs, Readable k.conv seg := by
    intro seg hseg
    rw [hconv]
    rcases hflight seg hseg with ⟨hc, hcmd, hdata⟩ | hq
    · exact ⟨hc, .inr hcmd, by rw [hdata]; decide⟩
    · exact hQ seg hq
  intro seg hseg hpush
  rw [KCP.segments, received_flatMap hreadable le_rfl] at hseg
  obtain ⟨s, hs, rfl⟩ := List.mem_map.mp hseg
  rcases hflight s hs with ⟨-, hcmd, -⟩ | hq
  · have hcmd' : s.cmd = cmdPush := hpush
    rw [hcmd'] at hcmd
    exact absurd hcmd (by decide)
  · exact ⟨s, hq, rfl⟩

end

/-- A call of a running link keeps the settings. -/
theorem step_settings (hk : k.Window) {e : KcpEvent} (he : Running e) {sent : List Bytes}
    (hstep : k.step byteCheck e = .ok (k', sent)) : SameSettings k k' := by
  by_cases hsend : ∃ buffer, e = .send buffer
  · obtain ⟨buffer, rfl⟩ := hsend
    obtain ⟨queue, rfl⟩ := step_send_eq hstep
    exact ⟨rfl, rfl, rfl, rfl, rfl, rfl, rfl, rfl⟩
  · have hout : Outcome _ _ (k.step byteCheck e) :=
      step_transmits hk he fun buffer heq => hsend ⟨buffer, heq⟩
    rw [hstep] at hout
    obtain ⟨_, -, -, hk', -⟩ := hout
    exact hk'.settings

end KCP

/-! ## Runs -/

namespace Link

open KCP

/-- An instance that differs from a new one in the settings only. -/
def Configured (byteCheck : Option (Bytes → UInt32)) (conv : UInt64) (k : KCP) : Prop :=
  ∃ mtu mss buffer reserved sndWnd rcvWnd nodelay minrto interval fastresend nocwnd stream,
    k = { newKCP byteCheck conv with
      mtu := mtu, mss := mss, buffer := buffer, reserved := reserved, sndWnd := sndWnd,
      rcvWnd := rcvWnd, nodelay := nodelay, rxMinrto := minrto, interval := interval,
      fastresend := fastresend, nocwnd := nocwnd, stream := stream }

/-- The settings are those of the start, and the send windows are in order. -/
structure Settled (k : Side → KCP) (l : Link) : Prop where
  settings : ∀ s, SameSettings (k s) (l s).k
  window : ∀ s, (l s).k.Window

variable {byteCheck} {k : Side → KCP} {l : Link} {conv : UInt64}

theorem Configured.apply {k : KCP} (h : Configured byteCheck conv k) (setting : Setting) :
    Configured byteCheck conv (setting.apply byteCheck k) := by
  obtain ⟨_, _, _, _, _, _, _, _, _, _, _, _, rfl⟩ := h
  cases setting with
  | setMtu | reserveBytes =>
    dsimp only [Setting.apply, setMtu, reserveBytes]
    split <;> exact ⟨_, _, _, _, _, _, _, _, _, _, _, _, rfl⟩
  | wndSize sndwnd rcvwnd =>
    obtain ⟨_, _, heq⟩ := wndSize_eq _ sndwnd rcvwnd
    exact ⟨_, _, _, _, _, _, _, _, _, _, _, _, heq⟩
  | noDelay nodelay interval resend nc =>
    obtain ⟨_, _, _, _, _, heq⟩ := noDelay_eq _ nodelay interval resend nc
    exact ⟨_, _, _, _, _, _, _, _, _, _, _, _, heq⟩
  | setStream stream => exact ⟨_, _, _, _, _, _, _, _, _, _, _, _, rfl⟩

theorem configure_configured (conv : UInt64) (settings : List Setting) :
    Configured byteCheck conv (configure byteCheck conv settings) := by
  have hnew : Configured byteCheck conv (newKCP byteCheck conv) := by
    unfold Configured
    generalize newKCP byteCheck conv = k
    exact ⟨_, _, _, _, _, _, _, _, _, _, _, _, rfl⟩
  unfold configure
  generalize newKCP byteCheck conv = k at hnew
  induction settings generalizing k with
  | nil => exact hnew
  | cons setting settings ih => exact ih _ (hnew.apply setting)

theorem Configured.conv_eq {k : KCP} (h : Configured byteCheck conv k) : k.conv = conv := by
  obtain ⟨_, _, _, _, _, _, _, _, _, _, _, _, rfl⟩ := h
  rfl

theorem Configured.window {k : KCP} (h : Configured byteCheck conv k) : k.Window := by
  obtain ⟨_, _, _, _, _, _, _, _, _, _, _, _, rfl⟩ := h
  have hwindow : (newKCP byteCheck conv).Window := newKCP_window conv
  exact { hwindow with }

theorem run_snoc (l : Link) (es : List LinkEvent) (e : LinkEvent) :
    run byteCheck l (es ++ [e]) = step byteCheck (run byteCheck l es) e := by
  rw [run, List.foldl_append]
  rfl

variable (byteCheck) in
/-- A step does nothing, or it is a call on one side; an input is a datagram of the other side. -/
theorem step_cases (l : Link) (e : LinkEvent) : step byteCheck l e = l ∨ ∃ s call, Running call ∧
    (∀ d regular ackNoDelay clock, call = .input d regular ackNoDelay clock →
      d ∈ (l s.other).sent) ∧
    (∀ buffer, call = .send buffer → e = .send s buffer) ∧
    step byteCheck l e = update l s ((l s).call byteCheck call) := by
  cases e with
  | send s buffer =>
    refine .inr ⟨s, .send buffer, trivial, by simp, ?_, rfl⟩
    rintro _ ⟨⟩
    rfl
  | recv s len => exact .inr ⟨s, .recv len, trivial, by simp, by simp, rfl⟩
  | flush s ackOnly clock => exact .inr ⟨s, .flush ackOnly clock, trivial, by simp, by simp, rfl⟩
  | deliver s i regular ackNoDelay clock =>
    rw [step]
    split
    · exact .inl rfl
    · rename_i d hd
      refine .inr ⟨s, .input d regular ackNoDelay clock, trivial, ?_, by simp, rfl⟩
      rintro _ _ _ _ ⟨⟩
      exact List.mem_of_getElem? hd

theorem count_mono (l : Link) (e : LinkEvent) (s : Side) :
    (l s).count ≤ (step byteCheck l e s).count := by
  rcases step_cases byteCheck l e with heq | ⟨s', call, -, -, -, heq⟩
  · rw [heq]
  rw [heq]
  by_cases hs : s = s'
  · subst hs
    rw [update_self, Peer.call]
    split
    · exact le_rfl
    · split
      · exact le_rfl
      · exact Nat.le_add_right _ _
  · rw [update_of_ne hs]

theorem Settled.step (h : Settled k l) (e : LinkEvent) : Settled k (Link.step byteCheck l e) := by
  rcases step_cases byteCheck l e with heq | ⟨s', call, hrunning, -, -, heq⟩
  · rw [heq]
    exact h
  have hcall : SameSettings (k s') ((l s').call byteCheck call).k ∧
      ((l s').call byteCheck call).k.Window := by
    unfold Peer.call
    split
    · exact ⟨h.settings s', h.window s'⟩
    cases hstep : (l s').k.step byteCheck call with
    | error panic => exact ⟨h.settings s', h.window s'⟩
    | ok r =>
      have hrelease : call ≠ .releaseTX := by
        rintro rfl
        exact hrunning
      exact ⟨(h.settings s').trans (step_settings (h.window s') hrunning hstep),
        ((h.window s').step hrelease hstep).1⟩
  rw [heq]
  exact ⟨(Function.forall_update_iff l fun s p => SameSettings (k s) p.k).mpr
    ⟨hcall.1, fun s _ => h.settings s⟩,
    (Function.forall_update_iff l fun _ p => p.k.Window).mpr ⟨hcall.2, fun s _ => h.window s⟩⟩

theorem run_settled (hk : ∀ s, Configured byteCheck conv (k s)) (es : List LinkEvent) :
    Settled k (run byteCheck (start k) es) := by
  induction es using List.reverseRecOn with
  | nil => exact ⟨fun _ => .refl _, fun s => (hk s).window⟩
  | append_singleton es e ih =>
    rw [run_snoc]
    exact ih.step e

end Link

end Halo.Kcp
