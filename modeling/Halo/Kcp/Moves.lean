import Halo.Kcp.SendWindow

/-!
# What the receiver of KCP takes and moves

Every call takes segments from a datagram (`takenBy`) to the heap and moves consecutive segments
from the heap to the queue (`Receives`), after it has taken a message from the queue or not
(`leftBy`). This holds whatever the order of the heap is; the order decides when the loop stops.
-/

namespace Halo.Kcp.KCP

open List

/-- The segments have been moved from the heap to the queue. -/
structure Moves (k : KCP) (l : List Segment) (k' : KCP) : Prop where
  queue : k'.rcvQueue = k.rcvQueue ++ l
  nxt : k'.rcvNxt = k.rcvNxt + .ofNat l.length
  numbers : l.map (·.sn) = numbers k.rcvNxt l.length
  perm : (l ++ k'.rcvBuf.segments).Perm k.rcvBuf.segments
  acklist : k'.acklist = k.acklist
  rcvWnd : k'.rcvWnd = k.rcvWnd

/-- The receiver has taken the segments from datagrams and moved those of the list to the queue. -/
structure Receives (segs : List (Header × Bytes)) (k : KCP) (l : List Segment) (k' : KCP) :
    Prop where
  queue : k'.rcvQueue = k.rcvQueue ++ l
  nxt : k'.rcvNxt = k.rcvNxt + .ofNat l.length
  numbers : l.map (·.sn) = numbers k.rcvNxt l.length
  rcvWnd : k'.rcvWnd = k.rcvWnd
  kept : ∀ seg ∈ k.rcvBuf.segments, seg ∈ l ++ k'.rcvBuf.segments
  source : ∀ seg ∈ l ++ k'.rcvBuf.segments,
    seg ∈ k.rcvBuf.segments ∨ ∃ p ∈ segs, p.1.cmd = cmdPush ∧ seg = pushSegment p.1 p.2

/-- The queue that a call leaves before it moves segments to it: a successful `Recv` takes a
message. -/
def leftBy (k : KCP) : KcpEvent → List Segment
  | .recv len => if 0 ≤ k.peekSize ∧ k.peekSize ≤ len then (popMessage k.rcvQueue).2 else k.rcvQueue
  | _ => k.rcvQueue

/-- The segments that a call takes from a datagram. -/
def takenBy (byteCheck : Option (Bytes → UInt32)) (k : KCP) : KcpEvent → List (Header × Bytes)
  | .input data _ _ _ => k.segments byteCheck data
  | _ => []

/-- The state of `Input` after some segments. -/
def handled (k : KCP) (regular : Bool) (segs : List (Header × Bytes)) : KCP :=
  (inputAll regular ⟨k, 0, false, false⟩ segs).k

/-- The call does not change the receive window. -/
def KeepsWindow : KcpEvent → Prop
  | .wndSize _ rcvwnd => rcvwnd ≤ 0
  | _ => True

/-- The receiver's part of the state is the same. -/
structure SameReceiver (k k' : KCP) : Prop where
  rcvNxt : k'.rcvNxt = k.rcvNxt
  rcvWnd : k'.rcvWnd = k.rcvWnd
  rcvQueue : k'.rcvQueue = k.rcvQueue
  rcvBuf : k'.rcvBuf = k.rcvBuf

variable {k k' : KCP}

/-! ## The relations -/

section

variable {segs : List (Header × Bytes)} {l : List Segment}

theorem Moves.refl (k : KCP) : Moves k [] k := by
  refine ⟨by simp, ?_, rfl, .refl _, rfl, rfl⟩
  exact (add_zero k.rcvNxt).symm

theorem Receives.refl (k : KCP) : Receives [] k [] k :=
  ⟨by simp, (add_zero k.rcvNxt).symm, rfl, rfl, fun _ h => h, fun _ h => .inl h⟩

theorem Receives.trans {segs' : List (Header × Bytes)} {l' : List Segment} {k₁ : KCP}
    (h : Receives segs k l k₁) (h' : Receives segs' k₁ l' k') :
    Receives (segs ++ segs') k (l ++ l') k' := by
  refine ⟨?_, ?_, ?_, h'.rcvWnd.trans h.rcvWnd, fun seg hseg => ?_, fun seg hseg => ?_⟩
  · rw [h'.queue, h.queue, append_assoc]
  · rw [h'.nxt, h.nxt, length_append, UInt32.ofNat_add, add_assoc]
  · rw [map_append, h.numbers, h'.numbers, h.nxt, length_append, numbers_add]
  · rw [append_assoc]
    rcases mem_append.mp (h.kept seg hseg) with hl | hheap
    · exact mem_append_left _ hl
    · exact mem_append_right _ (h'.kept seg hheap)
  · rw [append_assoc] at hseg
    have hfirst : seg ∈ l ++ k₁.rcvBuf.segments →
        seg ∈ k.rcvBuf.segments ∨ ∃ p ∈ segs ++ segs',
          p.1.cmd = cmdPush ∧ seg = pushSegment p.1 p.2 := by
      intro hmem
      rcases h.source seg hmem with hheap | ⟨p, hp, hpush⟩
      · exact .inl hheap
      · exact .inr ⟨p, mem_append_left _ hp, hpush⟩
    rcases mem_append.mp hseg with hl | hrest
    · exact hfirst (mem_append_left _ hl)
    · rcases h'.source seg hrest with hheap | ⟨p, hp, hpush⟩
      · exact hfirst (mem_append_right _ hheap)
      · exact .inr ⟨p, mem_append_right _ hp, hpush⟩

theorem Moves.receives (h : Moves k l k') : Receives [] k l k' :=
  ⟨h.queue, h.nxt, h.numbers, h.rcvWnd, fun _ hseg => h.perm.symm.subset hseg,
    fun _ hseg => .inl (h.perm.subset hseg)⟩

theorem Receives.mono {segs' : List (Header × Bytes)} (h : Receives segs k l k')
    (hsub : segs ⊆ segs') : Receives segs' k l k' := by
  refine ⟨h.queue, h.nxt, h.numbers, h.rcvWnd, h.kept,
    fun seg hseg => (h.source seg hseg).imp_right ?_⟩
  rintro ⟨p, hp, hpush⟩
  exact ⟨p, hsub hp, hpush⟩

theorem SameReceiver.receives (h : SameReceiver k k') : Receives [] k [] k' := by
  refine ⟨by rw [h.rcvQueue, append_nil], ?_, rfl, h.rcvWnd, ?_, ?_⟩
  · rw [h.rcvNxt]
    exact (add_zero k.rcvNxt).symm
  · rw [h.rcvBuf]
    exact fun _ hseg => hseg
  · rw [h.rcvBuf]
    exact fun _ hseg => .inl hseg

end

theorem SameReceiver.trans {k₁ : KCP} (h : SameReceiver k k₁) (h' : SameReceiver k₁ k') :
    SameReceiver k k' :=
  ⟨h'.rcvNxt.trans h.rcvNxt, h'.rcvWnd.trans h.rcvWnd, h'.rcvQueue.trans h.rcvQueue,
    h'.rcvBuf.trans h.rcvBuf⟩

/-! ## The loop that moves segments -/

/-- The loop moves consecutive segments. -/
theorem moveAvailable_moves (fuel : Nat) (k : KCP) : ∃ l, Moves k l (moveAvailable fuel k) := by
  induction fuel generalizing k with
  | zero => exact ⟨[], .refl k⟩
  | succ fuel ih =>
    rw [moveAvailable]
    cases hpop : k.rcvBuf.pop with
    | none => exact ⟨[], .refl k⟩
    | some popped =>
      obtain ⟨seg, rest⟩ := popped
      dsimp only
      split
      · rename_i hmove
        obtain ⟨l, hmoves⟩ := ih
          { k with rcvBuf := rest, rcvQueue := k.rcvQueue ++ [seg], rcvNxt := k.rcvNxt + 1 }
        refine ⟨seg :: l, ?_, ?_, ?_, ?_, hmoves.acklist, hmoves.rcvWnd⟩
        · rw [hmoves.queue]
          simp
        · rw [hmoves.nxt, length_cons, UInt32.ofNat_add, add_comm (UInt32.ofNat l.length),
            ← add_assoc]
          rfl
        · rw [map_cons, hmoves.numbers, length_cons, numbers_succ, hmove.1]
        · exact (hmoves.perm.cons seg).trans (SegmentHeap.pop_perm hpop)
      · refine ⟨[], by simp, (add_zero k.rcvNxt).symm, rfl, ?_, rfl, rfl⟩
        exact (SegmentHeap.push_perm rest seg).trans (SegmentHeap.pop_perm hpop)

/-! ## A datagram -/

theorem parseData_receives (k : KCP) {h : Header} (data : Bytes) (hcmd : h.cmd = cmdPush) :
    ∃ l, Receives [(h, data)] k l (k.parseData (pushSegment h data)).1 ∧
      (k.parseData (pushSegment h data)).1.acklist = k.acklist := by
  unfold parseData
  split
  · exact ⟨[], (Receives.refl k).mono (nil_subset _), rfl⟩
  dsimp only
  split
  · obtain ⟨l, hmoves⟩ := moveAvailable_moves k.rcvBuf.segments.length k
    exact ⟨l, hmoves.receives.mono (nil_subset _), hmoves.acklist⟩
  · have hpush := SegmentHeap.push_perm k.rcvBuf (pushSegment h data)
    obtain ⟨l, hmoves⟩ := moveAvailable_moves (k.rcvBuf.push (pushSegment h data)).segments.length
      { k with rcvBuf := k.rcvBuf.push (pushSegment h data) }
    have hreceives := hmoves.receives
    refine ⟨l, ⟨hreceives.queue, hreceives.nxt, hreceives.numbers, hreceives.rcvWnd, ?_, ?_⟩,
      hmoves.acklist⟩
    · exact fun seg hseg => hreceives.kept seg (hpush.symm.subset (.tail _ hseg))
    · intro seg hseg
      rcases mem_cons.mp (hpush.subset (hmoves.perm.subset hseg)) with rfl | hold
      · exact .inr ⟨(h, data), mem_singleton_self _, hcmd, rfl⟩
      · exact .inl hold

theorem inputPush_receives (k : KCP) {h : Header} (data : Bytes) (hcmd : h.cmd = cmdPush) :
    ∃ l, Receives [(h, data)] k l (k.inputPush h data) := by
  have hself := (Receives.refl k).mono (nil_subset [(h, data)])
  unfold inputPush
  split
  · dsimp only
    split
    · obtain ⟨l, hreceives, -⟩ :=
        parseData_receives { k with acklist := k.acklist ++ [⟨h.sn, h.ts⟩] } data hcmd
      exact ⟨l, hreceives.queue, hreceives.nxt, hreceives.numbers, hreceives.rcvWnd, hreceives.kept,
        hreceives.source⟩
    · exact ⟨[], hself.queue, hself.nxt, hself.numbers, hself.rcvWnd, hself.kept, hself.source⟩
  · exact ⟨[], hself⟩

/-- What the sender's side does with a segment leaves the receiver. -/
theorem una_sameReceiver (k : KCP) (regular : Bool) (h : Header) :
    SameReceiver k
      (((if regular then { k with rmtWnd := h.wnd.toUInt32 } else k).parseUna h.una).1.shrinkBuf) ∧
      (((if regular then { k with rmtWnd := h.wnd.toUInt32 } else k).parseUna
        h.una).1.shrinkBuf).acklist = k.acklist := by
  rw [shrinkBuf_eq]
  cases regular <;> exact ⟨⟨rfl, rfl, rfl, rfl⟩, rfl⟩

/-- A segment leaves the receiver, or it is a push segment. -/
theorem inputSegment_receiver (a : InputAcc) (regular : Bool) (h : Header) (data : Bytes) :
    (SameReceiver a.k (inputSegment a regular h data).k ∧
        (inputSegment a regular h data).k.acklist = a.k.acklist) ∨
      (h.cmd = cmdPush ∧ ∃ k₁, SameReceiver a.k k₁ ∧ k₁.acklist = a.k.acklist ∧
        (inputSegment a regular h data).k = k₁.inputPush h data) := by
  obtain ⟨hsame, hacks⟩ := una_sameReceiver a.k regular h
  unfold inputSegment
  dsimp only
  generalize ((if regular then { a.k with rmtWnd := h.wnd.toUInt32 } else a.k).parseUna h.una) =
    r at hsame hacks ⊢
  have hleft {k' : KCP} (hk' : SameReceiver r.1.shrinkBuf k')
      (hlist : k'.acklist = r.1.shrinkBuf.acklist) :
      SameReceiver a.k k' ∧ k'.acklist = a.k.acklist :=
    ⟨hsame.trans hk', hlist.trans hacks⟩
  split
  · rename_i hcmd
    obtain ⟨buf, hack, -⟩ := parseAck_answered hcmd r.1.shrinkBuf
    obtain ⟨buf', hfast, -⟩ := parseFastack_answered [] (r.1.shrinkBuf.parseAck h.sn) h.sn h.ts
    rw [hfast, hack]
    exact .inl (hleft ⟨rfl, rfl, rfl, rfl⟩ rfl)
  split
  · rename_i hcmd
    exact .inr ⟨hcmd, r.1.shrinkBuf, hsame, hacks, rfl⟩
  split
  · exact .inl (hleft ⟨rfl, rfl, rfl, rfl⟩ rfl)
  · exact .inl (hleft ⟨rfl, rfl, rfl, rfl⟩ rfl)

theorem inputSegment_receives (a : InputAcc) (regular : Bool) (h : Header) (data : Bytes) :
    ∃ l, Receives [(h, data)] a.k l (inputSegment a regular h data).k := by
  rcases inputSegment_receiver a regular h data with ⟨hsame, -⟩ | ⟨hcmd, k₁, hsame, -, heq⟩
  · exact ⟨[], hsame.receives.mono (nil_subset _)⟩
  · obtain ⟨l, hreceives⟩ := inputPush_receives k₁ data hcmd
    rw [heq]
    exact ⟨l, hsame.receives.trans hreceives⟩

theorem inputAll_receives (a : InputAcc) (regular : Bool) (segs : List (Header × Bytes)) :
    ∃ l, Receives segs a.k l (inputAll regular a segs).k := by
  induction segs generalizing a with
  | nil => exact ⟨[], .refl a.k⟩
  | cons seg rest ih =>
    obtain ⟨l, hreceives⟩ := inputSegment_receives a regular seg.1 seg.2
    obtain ⟨l', hreceives'⟩ := ih (inputSegment a regular seg.1 seg.2)
    exact ⟨l ++ l', hreceives.trans hreceives'⟩

/-! ## A call -/

/-- `Recv` fails and changes nothing, or it takes a message and moves segments to the queue. -/
theorem recv_cases (k : KCP) (len : Nat) :
    (¬ (0 ≤ k.peekSize ∧ k.peekSize ≤ len) ∧ (k.recv len).1 < 0 ∧ (k.recv len).2.2 = k) ∨
      ((0 ≤ k.peekSize ∧ k.peekSize ≤ len) ∧ (k.recv len).1 = (popMessage k.rcvQueue).1.length ∧
        (k.recv len).2.1 = (popMessage k.rcvQueue).1 ∧
        ∃ probe, (k.recv len).2.2 = { moveAvailable k.rcvBuf.segments.length
          { k with rcvQueue := (popMessage k.rcvQueue).2 } with probe := probe }) := by
  by_cases hnone : k.peekSize < 0
  · rw [recv, if_pos hnone]
    exact .inl ⟨by omega, (by decide : (-1 : Int) < 0), rfl⟩
  by_cases hshort : (len : Int) < k.peekSize
  · rw [recv, if_neg hnone, if_pos hshort]
    exact .inl ⟨by omega, (by decide : (-2 : Int) < 0), rfl⟩
  refine .inr ⟨by omega, ?_⟩
  rw [recv, if_neg hnone, if_neg hshort]
  refine ⟨rfl, rfl, ?_⟩
  dsimp only
  split
  · exact ⟨_, rfl⟩
  · exact ⟨_, rfl⟩

theorem recv_receives (k : KCP) (len : Nat) : ∃ l,
    Receives [] { k with rcvQueue := k.leftBy (.recv len) } l (k.recv len).2.2 := by
  rcases k.recv_cases len with ⟨hfails, -, heq⟩ | ⟨htakes, -, -, probe, heq⟩
  · rw [heq, leftBy, if_neg hfails]
    exact ⟨[], .refl k⟩
  · obtain ⟨l, hmoves⟩ :=
      moveAvailable_moves k.rcvBuf.segments.length { k with rcvQueue := (popMessage k.rcvQueue).2 }
    have hreceives := hmoves.receives
    rw [heq, leftBy, if_pos htakes]
    exact ⟨l, hreceives.queue, hreceives.nxt, hreceives.numbers, hreceives.rcvWnd, hreceives.kept,
      hreceives.source⟩

variable {byteCheck : Option (Bytes → UInt32)}

theorem Adjusted.sameReceiver (h : Adjusted k k') : SameReceiver k k' := by
  obtain ⟨_, _, _, _, _, rfl⟩ := h
  exact ⟨rfl, rfl, rfl, rfl⟩

theorem Flushed.sameReceiver {ackOnly : Bool} (h : k.Flushed ackOnly k') : SameReceiver k k' :=
  ⟨h.rcvNxt, h.settings.rcvWnd, h.rcvQueue, h.rcvBuf⟩

theorem Ends.sameReceiver {r : KCP × List Bytes} (h : k.Ends byteCheck r) : SameReceiver k r.1 := by
  rcases h with rfl | ⟨ackOnly, hflushed, -⟩
  · exact ⟨rfl, rfl, rfl, rfl⟩
  · exact hflushed.sameReceiver

/-- Calls other than `Input`, `Recv` and changes of the window leave the receiver. -/
theorem step_sameReceiver {e : KcpEvent} (he : KeepsWindow e) {sent : List Bytes}
    (hstep : k.step byteCheck e = .ok (k', sent)) :
    (∃ len, e = .recv len) ∨
      (∃ data regular ackNoDelay clock, e = .input data regular ackNoDelay clock) ∨
      (k.leftBy e = k.rcvQueue ∧ SameReceiver k k') := by
  cases e with
  | recv len => exact .inl ⟨len, rfl⟩
  | input data regular ackNoDelay clock => exact .inr (.inl ⟨data, regular, ackNoDelay, clock, rfl⟩)
  | send buffer =>
    obtain ⟨queue, rfl⟩ := step_send_eq hstep
    exact .inr (.inr ⟨rfl, rfl, rfl, rfl, rfl⟩)
  | flush ackOnly clock => exact .inr (.inr ⟨rfl, (step_flush hstep).1.sameReceiver⟩)
  | setMtu | reserveBytes =>
    cases hstep
    dsimp only [setMtu, reserveBytes]
    split <;> exact .inr (.inr ⟨rfl, rfl, rfl, rfl, rfl⟩)
  | wndSize sndwnd rcvwnd =>
    rw [KCP.step, wndSize] at hstep
    rw [if_neg (show ¬ 0 < rcvwnd from not_lt.mpr he)] at hstep
    split at hstep <;> cases hstep <;> exact .inr (.inr ⟨rfl, rfl, rfl, rfl, rfl⟩)
  | noDelay nodelay interval resend nc =>
    obtain ⟨_, _, _, _, _, heq⟩ := k.noDelay_eq nodelay interval resend nc
    rw [KCP.step, heq] at hstep
    cases hstep
    exact .inr (.inr ⟨rfl, rfl, rfl, rfl, rfl⟩)
  | _ =>
    cases hstep
    exact .inr (.inr ⟨rfl, rfl, rfl, rfl, rfl⟩)

/-- `Input` leaves the receiver as its loop has. -/
theorem step_input_sameReceiver {data : Bytes} {regular ackNoDelay : Bool} {clock : Nat → UInt32}
    {sent : List Bytes}
    (hstep : k.step byteCheck (.input data regular ackNoDelay clock) = .ok (k', sent)) :
    SameReceiver (k.handled regular (k.segments byteCheck data)) k' := by
  obtain ⟨k₁, hk₁, hends⟩ := step_input hstep
  exact hk₁.sameReceiver.trans hends.sameReceiver

/-- What a call does to the receiver. -/
theorem step_receives {e : KcpEvent} (he : KeepsWindow e) {sent : List Bytes}
    (hstep : k.step byteCheck e = .ok (k', sent)) :
    ∃ l, Receives (k.takenBy byteCheck e) { k with rcvQueue := k.leftBy e } l k' := by
  rcases step_sameReceiver he hstep with
    ⟨len, rfl⟩ | ⟨data, regular, ackNoDelay, clock, rfl⟩ | ⟨hleft, hsame⟩
  · cases hstep
    exact k.recv_receives len
  · obtain ⟨l, hreceives⟩ :=
      inputAll_receives ⟨k, 0, false, false⟩ regular (k.segments byteCheck data)
    have hboth := hreceives.trans (step_input_sameReceiver hstep).receives
    rw [append_nil, append_nil] at hboth
    exact ⟨l, hboth⟩
  · rw [hleft]
    exact ⟨[], hsame.receives.mono (nil_subset _)⟩

end Halo.Kcp.KCP
