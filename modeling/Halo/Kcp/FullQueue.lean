import Halo.Kcp.Delivery

/-!
# A full receive queue of KCP

`Send` accepts a message of up to 255 fragments, whatever the window of the receiver is. The queue
of the receiver holds no more segments than its window, and `Recv` takes whole messages only: a
message with more fragments fills the queue and stays there (`queue_wedged`).

If every message that is accepted fits into the receiver's window, each segment announces no more
fragments than the queue holds (`Announces`), wherever it is: queued, in the send buffer, in flight,
or held by the receiver. Then a full queue starts with a whole message (`full_queue_has_message`).
-/

namespace Halo.Kcp

open List

namespace KCP

/-- The segment announces at most `w` fragments; its data has a length that the header holds. -/
structure Announces (w : Nat) (seg : Segment) : Prop where
  count_le : seg.frg.toNat + 1 ≤ w
  length_lt : seg.data.length < 2 ^ 32

/-- A push segment that announces at most `w` fragments. -/
structure Pushes (w : Nat) (conv : UInt64) (seg : Segment) : Prop extends Announces w seg where
  conv_eq : seg.conv = conv
  cmd_eq : seg.cmd = cmdPush

/-- What the sender of a direction has: no segment announces more than `w` fragments. -/
structure SenderFits (byteCheck : Option (Bytes → UInt32)) (w : Nat) (conv : UInt64) (p : Peer) :
    Prop where
  queue : ∀ seg ∈ p.k.sndQueue, Announces w seg
  buf : ∀ seg ∈ p.k.sndBuf, seg.acked ≠ 1 → Pushes w conv seg
  sent : ∀ d ∈ p.sent, Whole byteCheck (InFlight conv (Pushes w conv)) d

/-- What the receiver of a direction has. -/
structure ReceiverFits (w : Nat) (k : KCP) : Prop where
  queue : ∀ seg ∈ k.rcvQueue, seg.frg.toNat + 1 ≤ w
  heap : ∀ seg ∈ k.rcvBuf.segments, seg.frg.toNat + 1 ≤ w

/-- The message of a call fits into a window of `w` segments, or `Send` does not accept it. -/
def FitsWindow (k : KCP) (w : Nat) (buffer : Bytes) : Prop :=
  255 < fragmentCount k.mss.toNat buffer ∨ fragmentCount k.mss.toNat buffer ≤ w

variable {byteCheck : Option (Bytes → UInt32)} {k k' : KCP} {w : Nat} {conv : UInt64} {p q : Peer}

/-! ## The sender -/

theorem Pushes.same {seg seg' : Segment} (h : Pushes w conv seg) (hsame : seg.Same seg') :
    Pushes w conv seg' :=
  ⟨⟨hsame.frg ▸ h.count_le, hsame.data ▸ h.length_lt⟩, hsame.conv.trans h.conv_eq,
    hsame.cmd.trans h.cmd_eq⟩

theorem numbered_pushes {sn : UInt32} {segs : List Segment} (h : ∀ seg ∈ segs, Announces w seg) :
    ∀ seg ∈ numbered conv sn segs, Pushes w conv seg := by
  induction segs generalizing sn with
  | nil => exact forall_mem_nil _
  | cons first rest ih =>
    intro seg hseg
    rcases mem_cons.mp hseg with rfl | hrest
    · have hfirst := h first mem_cons_self
      exact ⟨⟨hfirst.count_le, hfirst.length_lt⟩, rfl, rfl⟩
    · exact ih (fun s hs => h s (mem_cons_of_mem _ hs)) seg hrest

theorem SenderFits.offers (h : SenderFits byteCheck w conv p) (hconv : p.k.conv = conv) {n : Nat}
    {seg : Segment} (hseg : seg ∈ p.k.offers n) (hacked : seg.acked ≠ 1) : Pushes w conv seg := by
  rcases mem_append.mp hseg with hbuf | hnew
  · exact h.buf seg hbuf hacked
  · rw [hconv] at hnew
    exact numbered_pushes (fun s hs => h.queue s (mem_of_mem_take hs)) seg hnew

/-- The datagrams of a call. -/
theorem SenderFits.sends (h : SenderFits byteCheck w conv p) (hconv : p.k.conv = conv) {n : Nat}
    {sent : List Bytes} (hsent : p.k.Sends byteCheck n sent) :
    ∀ d ∈ p.sent ++ sent.map (List.drop p.k.reserved),
      Whole byteCheck (InFlight conv (Pushes w conv)) d := by
  intro d hd
  rcases mem_append.mp hd with hold | hnew
  · exact h.sent d hold
  · exact hsent.inFlight hconv
      (fun s hs hacked seg hsame => (h.offers hconv hs hacked).same hsame) d hnew

/-- The fragments of a message announce at most as many as there are. -/
theorem frames_announce {mss : Nat} {buffer : Bytes} (hsmall : fragmentCount mss buffer ≤ 255) :
    ∀ f ∈ frames mss buffer, f.1.toNat + 1 ≤ fragmentCount mss buffer := by
  have hcount (count : Nat) (hle : count ≤ 255) (data : Bytes) :
      ∀ seg ∈ fragments mss false count data, seg.frg.toNat + 1 ≤ count := by
    induction count generalizing data with
    | zero => exact forall_mem_nil _
    | succ count ih =>
      intro seg hseg
      rcases mem_cons.mp hseg with rfl | hrest
      · show (UInt8.ofNat count).toNat + 1 ≤ count + 1
        rw [UInt8.toNat_ofNat_of_lt' (show count < 2 ^ 8 by omega)]
      · exact (ih (by omega) _ seg hrest).trans (Nat.le_succ _)
  intro f hf
  obtain ⟨seg, hseg, rfl⟩ := mem_map.mp hf
  exact hcount _ hsmall buffer seg hseg

/-- `Send` queues segments that fit. -/
theorem Queued.announces {buffer : Bytes} {segs : List Segment} (h : Queued k buffer segs)
    (hmode : k.stream = 0) (hfits : k.FitsWindow w buffer)
    (hqueue : ∀ seg ∈ k.sndQueue, Announces w seg) : ∀ seg ∈ segs, Announces w seg := by
  intro seg hseg
  obtain ⟨⟨-, hsmall⟩, hframes⟩ := h.message hmode
  refine ⟨?_, h.short (fun s hs => (hqueue s hs).length_lt) seg hseg⟩
  have hmem : seg.frame ∈ segs.map Segment.frame := mem_map_of_mem hseg
  rw [hframes] at hmem
  rcases mem_append.mp hmem with hold | hnew
  · obtain ⟨s, hs, hframe⟩ := mem_map.mp hold
    have hfrg : s.frg = seg.frg := congrArg Prod.fst hframe
    exact hfrg ▸ (hqueue s hs).count_le
  · rcases hfits with hlarge | hle
    · exact absurd hsmall (not_le.mpr hlarge)
    · exact (frames_announce hsmall _ hnew).trans hle

/-- A call on the sender. -/
theorem SenderFits.call (h : SenderFits byteCheck w conv p) (hconv : p.k.conv = conv)
    (hmode : p.k.stream = 0) (hwindow : p.k.Window) {e : KcpEvent} (he : Running e)
    (hfits : ∀ buffer, e = .send buffer → p.k.FitsWindow w buffer) :
    SenderFits byteCheck w conv (p.call byteCheck e) := by
  by_cases hcrashed : p.crashed = true
  · rw [Peer.call_crashed hcrashed]
    exact h
  rw [Bool.not_eq_true] at hcrashed
  have hidle : p.k.Sends byteCheck 0 [] := forall_mem_nil _
  by_cases hsend : ∃ buffer, e = .send buffer
  · obtain ⟨buffer, rfl⟩ := hsend
    cases hr : p.k.send buffer with
    | error fault =>
      have hstep : p.k.step byteCheck (.send buffer) = .error ⟨fault, []⟩ := by rw [KCP.step, hr]
      rw [Peer.call_error hcrashed hstep]
      exact ⟨h.queue, h.buf, h.sends hconv hidle⟩
    | ok r =>
      have hstep : p.k.step byteCheck (.send buffer) = .ok (r.2, []) := by rw [KCP.step, hr]
      rw [Peer.call_ok hcrashed hstep]
      rcases send_queued hr with ⟨-, heq⟩ | ⟨-, segs, heq, hqueued⟩
      · rw [heq]
        exact ⟨h.queue, h.buf, h.sends hconv hidle⟩
      · rw [heq]
        exact ⟨hqueued.announces hmode (hfits buffer rfl) h.queue, h.buf, h.sends hconv hidle⟩
  have hout : Outcome _ _ (p.k.step byteCheck e) :=
    step_transmits hwindow he fun buffer heq => hsend ⟨buffer, heq⟩
  cases hstep : p.k.step byteCheck e with
  | error panic =>
    rw [hstep] at hout
    obtain ⟨n, -, -, hsent⟩ := hout
    rw [Peer.call_error hcrashed hstep]
    exact ⟨h.queue, h.buf, h.sends hconv hsent⟩
  | ok r =>
    rw [hstep] at hout
    obtain ⟨n, -, -, hk', hsent⟩ := hout
    rw [Peer.call_ok hcrashed hstep]
    refine ⟨fun seg hseg => ?_, fun seg' hseg' hacked => ?_, h.sends hconv hsent⟩
    · exact h.queue seg (mem_of_mem_drop (hk'.queue ▸ hseg))
    · obtain ⟨seg, hseg, hunacked, hsame⟩ := hk'.buf seg' hseg' hacked
      exact (h.offers hconv hseg hunacked).same hsame

/-! ## The receiver -/

/-- A call on the receiver; an input is a datagram of the sender. -/
theorem ReceiverFits.call (h : ReceiverFits w q.k) (hsender : SenderFits byteCheck w conv p)
    (hconv : q.k.conv = conv) {e : KcpEvent} (he : Running e)
    (hdata : ∀ d regular ackNoDelay clock, e = .input d regular ackNoDelay clock → d ∈ p.sent) :
    ReceiverFits w (q.call byteCheck e).k := by
  by_cases hcrashed : q.crashed = true
  · rw [Peer.call_crashed hcrashed]
    exact h
  rw [Bool.not_eq_true] at hcrashed
  cases hstep : q.k.step byteCheck e with
  | error panic =>
    rw [Peer.call_error hcrashed hstep]
    exact h
  | ok r =>
    rw [Peer.call_ok hcrashed hstep]
    have hkeeps : KeepsWindow e := by
      cases e with
      | wndSize _ _ => exact absurd he id
      | _ => trivial
    obtain ⟨l, hreceives⟩ := step_receives hkeeps hstep
    have htaken : ∀ seg ∈ q.k.takenBy byteCheck e,
        seg.1.cmd = cmdPush → seg.1.frg.toNat + 1 ≤ w := by
      cases e with
      | input d regular ackNoDelay clock =>
        intro seg hseg hpush
        have hd := hsender.sent d (hdata d regular ackNoDelay clock rfl)
        obtain ⟨s, hs, rfl⟩ := inFlight_segments
          (fun _ hs => ⟨hs.conv_eq, .inl hs.cmd_eq, hs.length_lt⟩) hd hconv seg hseg hpush
        exact hs.count_le
      | _ => exact forall_mem_nil _
    have hsource : ∀ seg ∈ l ++ r.1.rcvBuf.segments, seg.frg.toNat + 1 ≤ w := by
      intro seg hseg
      rcases hreceives.source seg hseg with hheap | ⟨taken, hmem, hcmd, rfl⟩
      · exact h.heap seg hheap
      · exact htaken taken hmem hcmd
    have hleft : q.k.leftBy e ⊆ q.k.rcvQueue := by
      cases e with
      | recv len =>
        rw [leftBy]
        split
        · obtain ⟨taken, heq, -⟩ := popMessage_split q.k.rcvQueue
          intro seg hseg
          rw [heq]
          exact mem_append_right _ hseg
        · exact Subset.refl _
      | _ => exact Subset.refl _
    refine ⟨fun seg hseg => ?_, fun seg hseg => hsource seg (mem_append_right _ hseg)⟩
    dsimp only at hseg
    rw [hreceives.queue] at hseg
    rcases mem_append.mp hseg with hold | hnew
    · exact h.queue seg (hleft hold)
    · exact hsource seg (mem_append_left _ hnew)

/-- A full queue starts with a whole message. -/
theorem ReceiverFits.peekSize (h : ReceiverFits w k) (hw : 0 < w) (hfull : w ≤ k.rcvQueue.length) :
    0 ≤ k.peekSize := by
  cases hqueue : k.rcvQueue with
  | nil =>
    rw [hqueue, length_nil] at hfull
    omega
  | cons seg rest =>
    refine (peekSize_nonneg k).mpr ⟨seg, rest, hqueue, .inr ?_⟩
    have hle := h.queue seg (hqueue ▸ mem_cons_self)
    rw [UInt8.toNat_add]
    exact (Nat.mod_le _ _).trans (hle.trans hfull)

end KCP

/-! ## Runs -/

namespace Link

open KCP

variable {byteCheck : Option (Bytes → UInt32)} {k : Side → KCP} {l : Link} {conv : UInt64} {w : Nat}

/-- One step, in the direction from `s`. -/
theorem fits_step {s : Side} (h : SenderFits byteCheck w conv (l s) ∧ ReceiverFits w (l s.other).k)
    (hl : Settled k l) (hconv : ∀ s, (k s).conv = conv) (hmode : (k s).stream = 0) {e : LinkEvent}
    (hfits : ∀ buffer, e = .send s buffer → (k s).FitsWindow w buffer) :
    SenderFits byteCheck w conv (step byteCheck l e s) ∧
      ReceiverFits w (step byteCheck l e s.other).k := by
  have hsettings := hl.settings s
  rcases step_cases byteCheck l e with heq | ⟨s', call, hrunning, hdata, hsend, heq⟩
  · rw [heq]
    exact h
  rw [heq]
  by_cases hs : s = s'
  · subst hs
    rw [Function.update_self, Function.update_of_ne s.other_ne]
    refine ⟨h.1.call ?_ ?_ (hl.window s) hrunning fun buffer hcall => ?_, h.2⟩
    · rw [hsettings.conv, hconv]
    · rw [hsettings.stream, hmode]
    · have hfits' := hfits buffer (hsend buffer hcall)
      rwa [FitsWindow, ← hsettings.mss] at hfits'
  · obtain rfl : s' = s.other := Side.eq_other hs
    rw [Function.update_of_ne hs, Function.update_self]
    rw [Side.other_other] at hdata
    refine ⟨h.1, h.2.call h.1 ?_ hrunning hdata⟩
    rw [(hl.settings s.other).conv, hconv]

/-- Every run whose messages from `s` fit. -/
theorem run_fits (hk : ∀ s, Configured byteCheck conv (k s)) {s : Side} (hmode : (k s).stream = 0)
    {es : List LinkEvent} (hes : ∀ buffer, .send s buffer ∈ es → (k s).FitsWindow w buffer) :
    SenderFits byteCheck w conv (run byteCheck (start k) es s) ∧
      ReceiverFits w (run byteCheck (start k) es s.other).k := by
  induction es using List.reverseRecOn with
  | nil =>
    obtain ⟨_, _, _, _, _, _, _, _, _, _, _, _, hsender⟩ := hk s
    obtain ⟨_, _, _, _, _, _, _, _, _, _, _, _, hreceiver⟩ := hk s.other
    show SenderFits byteCheck w conv ⟨k s, [], 0, [], [], false⟩ ∧ ReceiverFits w (k s.other)
    rw [hsender, hreceiver]
    exact ⟨⟨forall_mem_nil _, forall_mem_nil _, forall_mem_nil _⟩,
      forall_mem_nil _, forall_mem_nil _⟩
  | append_singleton es e ih =>
    rw [run_snoc]
    refine fits_step (ih fun buffer hmem => hes buffer (mem_append_left _ hmem)) (run_settled hk es)
      (fun s => (hk s).conv_eq) hmode fun buffer he => hes buffer ?_
    exact mem_append_right _ (he ▸ mem_singleton_self e)

variable (byteCheck) in
/-- In every run in which each message from `s` fits into the window of the other side, a queue that
is full there starts with a whole message. -/
theorem full_queue_has_message (conv : UInt64) (settings : Side → List Setting) (s : Side)
    (hmode : (configure byteCheck conv (settings s)).stream = 0)
    (hwnd : (configure byteCheck conv (settings s.other)).rcvWnd ≠ 0) (es : List LinkEvent)
    (hes : ∀ buffer, .send s buffer ∈ es → (configure byteCheck conv (settings s)).FitsWindow
      (configure byteCheck conv (settings s.other)).rcvWnd.toNat buffer)
    (hfull :
      (run byteCheck (start fun s => configure byteCheck conv (settings s)) es
        s.other).k.rcvWnd.toNat ≤
      (run byteCheck (start fun s => configure byteCheck conv (settings s)) es
        s.other).k.rcvQueue.length) :
    0 ≤ (run byteCheck (start fun s => configure byteCheck conv (settings s)) es
      s.other).k.peekSize := by
  have hk (s : Side) : Configured byteCheck conv (configure byteCheck conv (settings s)) :=
    configure_configured conv (settings s)
  have hpos : 0 < (configure byteCheck conv (settings s.other)).rcvWnd.toNat :=
    Nat.pos_of_ne_zero fun hzero => hwnd (UInt32.toNat_inj.mp hzero)
  refine (run_fits hk hmode hes).2.peekSize hpos (le_of_eq_of_le ?_ hfull)
  rw [((run_settled hk es).settings s.other).rcvWnd]

/-- A message of two fragments, which fills a window of two. -/
def twoFragments : List LinkEvent :=
  [.send .left [1, 2], .flush .left false fun _ => 0, .deliver .right 0 true false fun _ => 0,
    .deliver .right 1 true false fun _ => 0]

theorem full_queue_has_message_two :
    (∀ buffer, .send .left buffer ∈ twoFragments →
      (configure none 7 [.setMtu 29, .noDelay 0 0 0 1, .wndSize 0 2]).FitsWindow 2 buffer) ∧
    0 ≤ (run none (start fun _ => configure none 7 [.setMtu 29, .noDelay 0 0 0 1, .wndSize 0 2])
      twoFragments .right).k.peekSize := by
  have hes : ∀ buffer, .send .left buffer ∈ twoFragments →
      (configure none 7 [.setMtu 29, .noDelay 0 0 0 1, .wndSize 0 2]).FitsWindow 2 buffer := by
    intro buffer hbuffer
    obtain rfl : buffer = [1, 2] := by simpa [twoFragments] using hbuffer
    exact .inr (by decide +kernel)
  exact ⟨hes, full_queue_has_message none 7 (fun _ => [.setMtu 29, .noDelay 0 0 0 1, .wndSize 0 2])
    .left (by decide +kernel) (by decide +kernel) _ hes (by decide +kernel)⟩

/-- A message of 33 fragments and the default window of 32: the queue is full, and there is no
message in it. -/
theorem queue_wedged :
    (run none (start fun _ => configure none 7 [.setMtu 29, .noDelay 0 0 0 1])
      [.send .left (List.replicate 33 0)] .left).accepted = [List.replicate 33 0] ∧
    (fun k : KCP => (k.rcvWnd, k.rcvQueue.length, k.peekSize))
      (run none (start fun _ => configure none 7 [.setMtu 29, .noDelay 0 0 0 1])
        ([.send .left (List.replicate 33 0), .flush .left false fun _ => 0] ++
          (List.range 32).map fun i => .deliver .right i true false fun _ => 0) .right).k =
      (32, 32, -1) := by
  decide +kernel

end Link

end Halo.Kcp
