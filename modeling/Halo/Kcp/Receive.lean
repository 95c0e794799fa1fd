import Halo.Kcp.Moves

/-!
# The receiver of KCP

In every run with a fixed receive window, whatever datagrams come in: the receive queue holds no
more segments than the window, the heap holds distinct numbers of the window, and the next number
only while the queue is full (`Receiving`). The segments that were ever moved to the queue are
numbered from zero without a gap. When `Input` has handled a segment and queued its acknowledgement,
the number is before the next one or in the heap (`Stored`), and it stays so until the next number
is more than `2 ^ 31` past it.

The heap compares numbers by the sign of their difference; within a window of fewer than `2 ^ 31`
numbers this is the order of their distances from the next number (`SegmentHeap.lessBy`).
-/

namespace Halo.Kcp

open List

/-! ## The heap -/

namespace SegmentHeap

/-- The distance of a segment from the next number. -/
def distance (nxt : UInt32) (seg : Segment) : Nat := (seg.sn - nxt).toNat

/-- A heap of segments of the window: their numbers are distinct and indexed, and the next one is on
top. -/
structure Ok (h : SegmentHeap) (nxt : UInt32) (wnd : Nat) : Prop where
  window : ∀ seg ∈ h.segments, distance nxt seg < wnd
  nodup : (h.segments.map (·.sn)).Nodup
  marks : ∀ sn, sn ∈ h.marks ↔ sn ∈ h.segments.map (·.sn)
  ordered : BinHeap.Ordered (distance nxt) h.segments

variable {h : SegmentHeap} {nxt : UInt32} {wnd : Nat}

theorem newSegmentHeap_ok (nxt : UInt32) (wnd : Nat) : newSegmentHeap.Ok nxt wnd :=
  ⟨forall_mem_nil _, nodup_nil, fun sn => by simp [newSegmentHeap],
    fun i _ hi => absurd hi (Nat.not_lt_zero i)⟩

theorem sn_eq (nxt : UInt32) (seg : Segment) : seg.sn = nxt + .ofNat (distance nxt seg) := by
  rw [distance, UInt32.ofNat_toNat, add_sub_cancel]

/-- In a window the wrapping comparison is that of the distances. -/
theorem lessBy {segs : List Segment} (hwnd : wnd ≤ 2 ^ 31)
    (hwindow : ∀ seg ∈ segs, distance nxt seg < wnd) : BinHeap.LessBy less (distance nxt) segs := by
  intro a ha b hb
  have ha' := hwindow a ha
  have hb' := hwindow b hb
  rw [less, decide_eq_true_iff, itimediff_pos, sn_eq nxt a, sn_eq nxt b,
    toNat_sub_of_offsets nxt (by omega) (by omega)]
  split <;> omega

variable {seg : Segment}

theorem Ok.push (hwnd : wnd ≤ 2 ^ 31) (hok : h.Ok nxt wnd) (hwindow : distance nxt seg < wnd)
    (hnew : seg.sn ∉ h.marks) : (h.push seg).Ok nxt wnd := by
  have hperm : (h.push seg).segments.Perm (seg :: h.segments) := push_perm h seg
  have hall : ∀ s ∈ seg :: h.segments, distance nxt s < wnd := by
    intro s hs
    rcases mem_cons.mp hs with rfl | hs
    · exact hwindow
    · exact hok.window s hs
  refine ⟨fun s hs => hall s (hperm.subset hs), ?_, fun sn => ?_, ?_⟩
  · rw [(hperm.map _).nodup_iff, map_cons, nodup_cons]
    exact ⟨fun hmem => hnew ((hok.marks _).mpr hmem), hok.nodup⟩
  · show sn ∈ insert seg.sn h.marks ↔ _
    rw [Finset.mem_insert, hok.marks, (hperm.map _).mem_iff, map_cons, mem_cons]
  · exact BinHeap.push_ordered (lessBy hwnd hall) hok.ordered

/-- The top has the least distance. -/
theorem Ok.pop (hwnd : wnd ≤ 2 ^ 31) (hok : h.Ok nxt wnd) {rest : SegmentHeap}
    (hpop : h.pop = some (seg, rest)) :
    rest.Ok nxt wnd ∧ seg ∈ h.segments ∧ seg.sn ∉ rest.marks ∧
      ∀ s ∈ h.segments, distance nxt seg ≤ distance nxt s := by
  have hperm := pop_perm hpop
  unfold SegmentHeap.pop at hpop
  obtain ⟨⟨x, segs⟩, hx, heq⟩ := Option.map_eq_some_iff.mp hpop
  cases heq
  obtain ⟨hordered, hleast⟩ := BinHeap.pop_ordered (lessBy hwnd hok.window) hok.ordered hx
  have hnodup := hok.nodup
  rw [← (hperm.map _).nodup_iff, map_cons, nodup_cons] at hnodup
  refine ⟨⟨fun s hs => hok.window s (hperm.subset (.tail _ hs)), hnodup.2, fun sn => ?_, hordered⟩,
    hperm.subset mem_cons_self, ?_, hleast⟩
  · show sn ∈ h.marks.erase seg.sn ↔ sn ∈ segs.map (·.sn)
    rw [Finset.mem_erase, hok.marks, ← (hperm.map _).mem_iff, map_cons, mem_cons]
    constructor
    · rintro ⟨hne, heq | hmem⟩
      · exact absurd heq hne
      · exact hmem
    · intro hmem
      exact ⟨fun heq => hnodup.1 (heq ▸ hmem), .inr hmem⟩
  · exact Finset.notMem_erase _ _

theorem pop_eq_none (hpop : h.pop = none) : h.segments = [] := by
  rw [SegmentHeap.pop, Option.map_eq_none_iff] at hpop
  exact (BinHeap.pop_eq_none_iff _).mp hpop

/-- The distances after the next number has moved on. -/
theorem distance_succ (hne : seg.sn ≠ nxt) : distance nxt seg = distance (nxt + 1) seg + 1 := by
  have hpos : distance nxt seg ≠ 0 := by
    intro hzero
    apply hne
    rw [sn_eq nxt seg, hzero]
    simp
  have hsub : seg.sn - (nxt + 1) = (seg.sn - nxt) - 1 := by
    rw [sub_sub]
  unfold distance at hpos ⊢
  have hone : (1 : UInt32) ≤ seg.sn - nxt := UInt32.le_iff_toNat_le.mpr (Nat.pos_of_ne_zero hpos)
  have hpred : (seg.sn - nxt - 1).toNat = (seg.sn - nxt).toNat - 1 :=
    UInt32.toNat_sub_of_le _ 1 hone
  rw [hsub, hpred]
  omega

theorem Ok.advance (hok : h.Ok nxt wnd) (hnot : nxt ∉ h.marks) : h.Ok (nxt + 1) wnd := by
  have hstep {seg : Segment} (hseg : seg ∈ h.segments) :
      distance nxt seg = distance (nxt + 1) seg + 1 := by
    apply distance_succ
    intro heq
    apply hnot
    rw [hok.marks, ← heq]
    exact mem_map_of_mem hseg
  refine ⟨fun seg hseg => ?_, hok.nodup, hok.marks, fun i hi hlen => ?_⟩
  · have := hok.window seg hseg
    rw [hstep hseg] at this
    omega
  · have hle := hok.ordered i hi hlen
    have hparent : (i - 1) / 2 < h.segments.length := by omega
    rw [BinHeap.keyAt_eq hparent, BinHeap.keyAt_eq hlen] at hle ⊢
    rw [hstep (getElem_mem hparent), hstep (getElem_mem hlen)] at hle
    omega

end SegmentHeap

namespace KCP

/-- The queue and the heap stay in the window. -/
structure Holding (k : KCP) : Prop where
  wnd_lt : k.rcvWnd.toNat < 2 ^ 31
  queue_le : k.rcvQueue.length ≤ k.rcvWnd.toNat
  heap : k.rcvBuf.Ok k.rcvNxt k.rcvWnd.toNat

/-- The receiver between two calls: the next number is in the heap only while the queue is full. -/
structure Receiving (k : KCP) : Prop extends Holding k where
  full : k.rcvNxt ∈ k.rcvBuf.segments.map (·.sn) → k.rcvQueue.length = k.rcvWnd.toNat

/-- A number is before the next one, or its segment is in the heap. -/
def Stored (k : KCP) (sn : UInt32) : Prop :=
  itimediff sn k.rcvNxt < 0 ∨ sn ∈ k.rcvBuf.segments.map (·.sn)

/-- A stored number stays so, unless the next number moves more than `2 ^ 31` past it. -/
def Stays (k k' : KCP) : Prop :=
  ∀ sn, k.Stored sn → k'.Stored sn ∨
    (itimediff sn k.rcvNxt < 0 ∧ 2 ^ 31 < (k.rcvNxt - sn).toNat + (k'.rcvNxt - k.rcvNxt).toNat)

/-- The segments that the calls of a run move to the queue, up to a panic. -/
def movedIn (byteCheck : Option (Bytes → UInt32)) : KCP → List KcpEvent → List Segment
  | _, [] => []
  | k, e :: es =>
    match k.step byteCheck e with
    | .error _ => []
    | .ok (k', _) => k'.rcvQueue.drop (k.leftBy e).length ++ movedIn byteCheck k' es

/-- A stored number that stays so while the queue is filled: it is not too far before the next
one. -/
def Secure (k : KCP) (sn : UInt32) : Prop :=
  (itimediff sn k.rcvNxt < 0 ∧ (k.rcvNxt - sn).toNat + (k.rcvWnd.toNat - k.rcvQueue.length) ≤
    2 ^ 31) ∨ sn ∈ k.rcvBuf.segments.map (·.sn)

/-- A segment with the header has been handled: if its acknowledgement has been queued, its number
is stored. -/
def Queues (h : Header) (k k' : KCP) : Prop :=
  k'.acklist = k.acklist ∨ (k'.acklist = k.acklist ++ [⟨h.sn, h.ts⟩] ∧ k'.Secure h.sn)

variable {k k' : KCP}

/-! ## The loop that moves segments -/

variable {rest : SegmentHeap} {seg : Segment}

theorem length_of_pop {h : SegmentHeap} (hpop : h.pop = some (seg, rest)) :
    h.segments.length = rest.segments.length + 1 := by
  rw [← (SegmentHeap.pop_perm hpop).length_eq, length_cons]

/-- A round without a move is the last one: as many rounds as there are segments are enough. -/
theorem moveAvailable_fuel {fuel : Nat} (h : k.rcvBuf.segments.length ≤ fuel) :
    moveAvailable (fuel + 1) k = moveAvailable fuel k := by
  induction fuel generalizing k with
  | zero =>
    have hnone : k.rcvBuf.pop = none := by
      have hempty : k.rcvBuf.segments = [] := length_eq_zero_iff.mp (Nat.le_zero.mp h)
      rw [SegmentHeap.pop, hempty]
      rfl
    rw [moveAvailable.eq_2, hnone]
    rfl
  | succ fuel ih =>
    rw [moveAvailable, moveAvailable.eq_2 k fuel]
    cases hpop : k.rcvBuf.pop with
    | none => rfl
    | some popped =>
      dsimp only
      split
      · apply ih
        have := length_of_pop hpop
        dsimp only
        omega
      · rfl

/-- One round of the loop. -/
theorem Holding.move (h : k.Holding) (hpop : k.rcvBuf.pop = some (seg, rest))
    (hsn : seg.sn = k.rcvNxt) (hroom : k.rcvQueue.length < k.rcvWnd.toNat) :
    ({ k with rcvBuf := rest, rcvQueue := k.rcvQueue ++ [seg], rcvNxt := k.rcvNxt + 1 } :
      KCP).Holding := by
  obtain ⟨hok, -, hnot, -⟩ := h.heap.pop h.wnd_lt.le hpop
  refine ⟨h.wnd_lt, ?_, hok.advance (hsn ▸ hnot)⟩
  rw [length_append, length_singleton]
  exact hroom

/-- The last round: the segment goes back to the heap. -/
theorem Holding.put_back (h : k.Holding) (hpop : k.rcvBuf.pop = some (seg, rest))
    (hnot : ¬ (seg.sn = k.rcvNxt ∧ k.rcvQueue.length < k.rcvWnd.toNat)) :
    ({ k with rcvBuf := rest.push seg } : KCP).Receiving := by
  obtain ⟨hok, hmem, hmark, hleast⟩ := h.heap.pop h.wnd_lt.le hpop
  have hperm := SegmentHeap.pop_perm hpop
  refine ⟨⟨h.wnd_lt, h.queue_le, hok.push h.wnd_lt.le (h.heap.window seg hmem) hmark⟩,
    fun hnext => ?_⟩
  have hmem' : k.rcvNxt ∈ (seg :: rest.segments).map (·.sn) :=
    ((SegmentHeap.push_perm rest seg).map _).subset hnext
  obtain ⟨s, hs, hsn⟩ := mem_map.mp hmem'
  -- the next number has distance zero, so it is on top
  have hzero : SegmentHeap.distance k.rcvNxt seg = 0 := by
    have hle := hleast s (hperm.subset hs)
    rw [SegmentHeap.distance, SegmentHeap.distance, hsn, sub_self] at hle
    exact Nat.le_zero.mp hle
  have htop : seg.sn = k.rcvNxt := by
    rw [SegmentHeap.sn_eq k.rcvNxt seg, hzero]
    exact add_zero _
  have hle := h.queue_le
  have hfull : ¬ k.rcvQueue.length < k.rcvWnd.toNat := fun hroom => hnot ⟨htop, hroom⟩
  show k.rcvQueue.length = k.rcvWnd.toNat
  omega

/-- The loop stops when the queue is full or the next segment is not there. -/
theorem Holding.moveAvailable (h : k.Holding) {fuel : Nat}
    (hfuel : k.rcvBuf.segments.length ≤ fuel) : (moveAvailable fuel k).Receiving := by
  induction fuel generalizing k with
  | zero =>
    have hempty : k.rcvBuf.segments = [] := length_eq_zero_iff.mp (Nat.le_zero.mp hfuel)
    refine ⟨h, fun hnext => ?_⟩
    have hnext' : k.rcvNxt ∈ k.rcvBuf.segments.map (·.sn) := hnext
    rw [hempty] at hnext'
    cases hnext'
  | succ fuel ih =>
    rw [KCP.moveAvailable]
    cases hpop : k.rcvBuf.pop with
    | none =>
      refine ⟨h, fun hnext => ?_⟩
      rw [SegmentHeap.pop_eq_none hpop] at hnext
      cases hnext
    | some popped =>
      obtain ⟨seg, rest⟩ := popped
      dsimp only
      split
      · rename_i hmove
        have hlen := length_of_pop hpop
        exact ih (h.move hpop hmove.1 hmove.2) (by dsimp only; omega)
      · rename_i hnot
        exact h.put_back hpop hnot

/-! ## What is received -/

section

variable {segs : List (Header × Bytes)} {l : List Segment}

/-- The queue is in the window, so fewer than `2 ^ 31` segments are moved. -/
theorem Receives.length_lt (h : Receives segs k l k') (hk : k'.Holding) : l.length < 2 ^ 31 := by
  have hle := hk.queue_le
  have hlt := hk.wnd_lt
  rw [h.queue, length_append] at hle
  omega

variable {sn : UInt32}

theorem Secure.stored (h : k.Secure sn) : k.Stored sn := h.imp_left And.left

/-- A number that has been moved is before the next one. -/
theorem Receives.moved_secure (h : Receives segs k l k') (hk : k'.Holding)
    (hsn : sn ∈ l.map (·.sn)) : k'.Secure sn := by
  have hlen := h.length_lt hk
  have hwnd := hk.wnd_lt
  have hqueue : k'.rcvQueue.length = k.rcvQueue.length + l.length := by
    rw [h.queue, length_append]
  rw [h.numbers] at hsn
  obtain ⟨i, hi, rfl⟩ := mem_map.mp hsn
  have hlt := mem_range.mp hi
  left
  rw [h.nxt, itimediff_neg, toNat_sub_of_offsets _ (by omega) (by omega), if_neg (by omega),
    toNat_sub_of_offsets _ (by omega) (by omega), if_pos (by omega)]
  omega

theorem Receives.held_secure (h : Receives segs k l k') (hk : k'.Holding)
    (hsn : sn ∈ k.rcvBuf.segments.map (·.sn)) : k'.Secure sn := by
  obtain ⟨seg, hseg, rfl⟩ := mem_map.mp hsn
  rcases mem_append.mp (h.kept seg hseg) with hl | hheap
  · exact h.moved_secure hk (mem_map_of_mem hl)
  · exact .inr (mem_map_of_mem hheap)

/-- The distance behind the next number, after some more numbers. -/
theorem behind_add {nxt : UInt32} {n : Nat} (hn : n < 2 ^ 31) (hbelow : itimediff sn nxt < 0)
    (hfar : (nxt - sn).toNat + n ≤ 2 ^ 31) :
    itimediff sn (nxt + .ofNat n) < 0 ∧ (nxt + .ofNat n - sn).toNat = (nxt - sn).toNat + n := by
  have hl : (UInt32.ofNat n).toNat = n := UInt32.toNat_ofNat_of_lt' (lt_trans hn (by decide))
  have hsn := sn.toNat_lt
  have hnxt := nxt.toNat_lt
  rw [itimediff_neg, UInt32.toNat_sub] at hbelow ⊢
  rw [UInt32.toNat_sub] at hfar ⊢
  rw [UInt32.toNat_sub, UInt32.toNat_add, hl]
  omega

/-- What is secure stays so while the queue is filled. -/
theorem Receives.secure (h : Receives segs k l k') (hk : k'.Holding) (hsn : k.Secure sn) :
    k'.Secure sn := by
  rcases hsn with ⟨hbelow, hnear⟩ | hheld
  · have hle := hk.queue_le
    have hqueue : k'.rcvQueue.length = k.rcvQueue.length + l.length := by
      rw [h.queue, length_append]
    rw [h.rcvWnd] at hle
    obtain ⟨hbelow', hdist⟩ := behind_add (h.length_lt hk) hbelow (by omega)
    left
    rw [h.nxt, h.rcvWnd]
    exact ⟨hbelow', by omega⟩
  · exact h.held_secure hk hheld

theorem Receives.stays (h : Receives segs k l k') (hk : k'.Holding) : Stays k k' := by
  intro sn hstored
  have hlen := h.length_lt hk
  rcases hstored with hbelow | hheld
  · by_cases hfar : (k.rcvNxt - sn).toNat + l.length ≤ 2 ^ 31
    · left
      left
      rw [h.nxt]
      exact (behind_add hlen hbelow hfar).1
    · right
      refine ⟨hbelow, ?_⟩
      have hmoved : (k'.rcvNxt - k.rcvNxt).toNat = l.length := by
        rw [h.nxt, add_sub_cancel_left]
        exact UInt32.toNat_ofNat_of_lt' (lt_trans hlen (by decide))
      omega
  · exact .inl (h.held_secure hk hheld).stored

/-! ## A push segment -/

/-- `parse_data` of a number of the window. -/
theorem Receiving.parseData (hk : k.Receiving) {h : Header} (data : Bytes)
    (hwindow : itimediff h.sn (k.rcvNxt + k.rcvWnd) < 0) (hnext : 0 ≤ itimediff h.sn k.rcvNxt) :
    (k.parseData (pushSegment h data)).1.Receiving ∧
      (k.parseData (pushSegment h data)).1.Secure h.sn := by
  have hwnd := hk.wnd_lt
  have hdist : SegmentHeap.distance k.rcvNxt (pushSegment h data) < k.rcvWnd.toNat := by
    show (h.sn - k.rcvNxt).toNat < k.rcvWnd.toNat
    rw [itimediff_nonneg, UInt32.toNat_sub] at hnext
    rw [itimediff_neg, UInt32.toNat_sub, UInt32.toNat_add] at hwindow
    have hsn := h.sn.toNat_lt
    have hnxt := k.rcvNxt.toNat_lt
    rw [UInt32.toNat_sub]
    omega
  -- in both cases the loop starts with the number in the heap
  have hmoved {k₁ : KCP} (hk₁ : k₁.Holding) (hheld : h.sn ∈ k₁.rcvBuf.segments.map (·.sn)) :
      (moveAvailable k₁.rcvBuf.segments.length k₁).Receiving ∧
        (moveAvailable k₁.rcvBuf.segments.length k₁).Secure h.sn := by
    have hreceiving := hk₁.moveAvailable le_rfl
    obtain ⟨l, hmoves⟩ := moveAvailable_moves k₁.rcvBuf.segments.length k₁
    exact ⟨hreceiving, hmoves.receives.held_secure hreceiving.toHolding hheld⟩
  unfold KCP.parseData
  rw [if_neg (by
    show ¬ (0 ≤ itimediff h.sn (k.rcvNxt + k.rcvWnd) ∨ itimediff h.sn k.rcvNxt < 0)
    rw [not_or, Int32.not_le, Int32.not_lt]
    exact ⟨hwindow, hnext⟩)]
  dsimp only
  split
  · rename_i hhas
    exact hmoved hk.toHolding ((hk.heap.marks _).mp (of_decide_eq_true hhas))
  · rename_i hhas
    have hnew : (pushSegment h data).sn ∉ k.rcvBuf.marks := by simpa [SegmentHeap.has] using hhas
    have hpush := SegmentHeap.push_perm k.rcvBuf (pushSegment h data)
    have hholding : ({ k with rcvBuf := k.rcvBuf.push (pushSegment h data) } : KCP).Holding :=
      ⟨hwnd, hk.queue_le, hk.heap.push hwnd.le hdist hnew⟩
    exact hmoved hholding ((hpush.map _).symm.subset mem_cons_self)

theorem Receiving.of_same (hk : k.Receiving) (h : SameReceiver k k') : k'.Receiving := by
  refine ⟨⟨?_, ?_, ?_⟩, ?_⟩
  · exact h.rcvWnd ▸ hk.wnd_lt
  · rw [h.rcvQueue, h.rcvWnd]
    exact hk.queue_le
  · rw [h.rcvBuf, h.rcvNxt, h.rcvWnd]
    exact hk.heap
  · rw [h.rcvNxt, h.rcvBuf, h.rcvQueue, h.rcvWnd]
    exact hk.full

theorem Receiving.inputPush (hk : k.Receiving) {h : Header} (data : Bytes)
    (hcmd : h.cmd = cmdPush) :
    (k.inputPush h data).Receiving ∧ Queues h k (k.inputPush h data) := by
  unfold KCP.inputPush
  split
  · rename_i hwindow
    dsimp only
    have hacks : ({ k with acklist := k.acklist ++ [⟨h.sn, h.ts⟩] } : KCP).Receiving :=
      hk.of_same ⟨rfl, rfl, rfl, rfl⟩
    split
    · rename_i hnext
      obtain ⟨hreceiving, hsecure⟩ := hacks.parseData data hwindow hnext
      obtain ⟨_, -, hlist⟩ :=
        parseData_receives { k with acklist := k.acklist ++ [⟨h.sn, h.ts⟩] } data hcmd
      exact ⟨hreceiving, .inr ⟨hlist, hsecure⟩⟩
    · rename_i hbelow
      rw [Int32.not_le] at hbelow
      refine ⟨hacks, .inr ⟨rfl, .inl ⟨hbelow, ?_⟩⟩⟩
      -- a number that is acknowledged is at most `2 ^ 31 - rcvWnd` behind
      have hwnd := hk.wnd_lt
      have hsn := h.sn.toNat_lt
      have hnxt := k.rcvNxt.toNat_lt
      rw [itimediff_neg, UInt32.toNat_sub] at hbelow hwindow
      rw [UInt32.toNat_add] at hwindow
      rw [UInt32.toNat_sub]
      dsimp only
      omega
  · exact ⟨hk, .inl rfl⟩

/-! ## A datagram -/

theorem Receiving.inputSegment {a : InputAcc} (hk : a.k.Receiving) (regular : Bool) (h : Header)
    (data : Bytes) :
    (inputSegment a regular h data).k.Receiving ∧
      Queues h a.k (KCP.inputSegment a regular h data).k := by
  rcases inputSegment_receiver a regular h data with ⟨hsame, hacks⟩ | ⟨hcmd, k₁, hsame, hacks, heq⟩
  · exact ⟨hk.of_same hsame, .inl hacks⟩
  · obtain ⟨hreceiving, hqueues⟩ := (hk.of_same hsame).inputPush data hcmd
    rw [heq]
    rw [Queues, hacks] at hqueues
    exact ⟨hreceiving, hqueues⟩

theorem Receiving.inputAll {a : InputAcc} (hk : a.k.Receiving) (regular : Bool)
    (segs : List (Header × Bytes)) : (inputAll regular a segs).k.Receiving := by
  induction segs generalizing a with
  | nil => exact hk
  | cons seg rest ih => exact ih (hk.inputSegment regular seg.1 seg.2).1

/-! ## A call -/

theorem length_popMessage_le (queue : List Segment) :
    (popMessage queue).2.length ≤ queue.length := by
  induction queue with
  | nil => exact Nat.le_refl 0
  | cons seg rest ih =>
    rw [popMessage]
    split
    · exact Nat.le_succ _
    · exact ih.trans (Nat.le_succ _)

theorem Receiving.recv (hk : k.Receiving) (len : Nat) : (k.recv len).2.2.Receiving := by
  rcases k.recv_cases len with ⟨-, -, heq⟩ | ⟨-, -, -, probe, heq⟩
  · rw [heq]
    exact hk
  · have hholding : ({ k with rcvQueue := (popMessage k.rcvQueue).2 } : KCP).Holding :=
      ⟨hk.wnd_lt, (length_popMessage_le k.rcvQueue).trans hk.queue_le, hk.heap⟩
    rw [heq]
    exact (hholding.moveAvailable le_rfl).of_same ⟨rfl, rfl, rfl, rfl⟩

variable {byteCheck : Option (Bytes → UInt32)}

theorem Receiving.step (hk : k.Receiving) {e : KcpEvent} (he : KeepsWindow e) {sent : List Bytes}
    (hstep : k.step byteCheck e = .ok (k', sent)) : k'.Receiving := by
  rcases step_sameReceiver he hstep with
    ⟨len, rfl⟩ | ⟨data, regular, ackNoDelay, clock, rfl⟩ | ⟨-, hsame⟩
  · cases hstep
    exact hk.recv len
  · exact (Receiving.inputAll (a := ⟨k, 0, false, false⟩) hk regular _).of_same
      (step_input_sameReceiver hstep)
  · exact hk.of_same hsame

end

/-! ## Runs -/

variable (byteCheck : Option (Bytes → UInt32))

/-- What a call does as a receiver: the queue, the heap and the next number are in order after it;
the acknowledgement of a segment is queued only if its number is stored when the call returns; and
what was stored before stays so. -/
structure Round (k : KCP) (e : KcpEvent) (k' : KCP) : Prop where
  receiving : k'.Receiving
  queue : ∃ l, k'.rcvQueue = k.leftBy e ++ l
  queued : ∀ data regular ackNoDelay clock, e = .input data regular ackNoDelay clock →
    ∀ pre seg post, k.segments byteCheck data = pre ++ seg :: post →
      (k.handled regular (pre ++ [seg])).acklist = (k.handled regular pre).acklist ∨
        ((k.handled regular (pre ++ [seg])).acklist =
          (k.handled regular pre).acklist ++ [⟨seg.1.sn, seg.1.ts⟩] ∧ k'.Stored seg.1.sn)
  stays : Stays k k'

variable {byteCheck}

theorem handled_append (k : KCP) (regular : Bool) (segs segs' : List (Header × Bytes)) :
    k.handled regular (segs ++ segs') =
      (inputAll regular (inputAll regular ⟨k, 0, false, false⟩ segs) segs').k := by
  rw [handled, inputAll, foldl_append]
  rfl

theorem Receiving.round (hk : k.Receiving) {e : KcpEvent} (he : KeepsWindow e) {sent : List Bytes}
    (hstep : k.step byteCheck e = .ok (k', sent)) : Round byteCheck k e k' := by
  have hreceiving := hk.step he hstep
  obtain ⟨l, hreceives⟩ := step_receives he hstep
  refine ⟨hreceiving, ⟨l, hreceives.queue⟩, ?_, hreceives.stays hreceiving.toHolding⟩
  rintro data regular ackNoDelay clock rfl pre seg post hsegs
  have hpre := Receiving.inputAll (a := ⟨k, 0, false, false⟩) hk regular pre
  obtain ⟨hseg, hqueues⟩ := hpre.inputSegment regular seg.1 seg.2
  have hone : k.handled regular (pre ++ [seg]) =
      (KCP.inputSegment (KCP.inputAll regular ⟨k, 0, false, false⟩ pre) regular seg.1 seg.2).k :=
    handled_append k regular pre [seg]
  rw [hone]
  refine hqueues.imp_right fun hqueued => ⟨hqueued.1, ?_⟩
  -- the segments that follow in the datagram fill the queue
  obtain ⟨_, hpost⟩ := inputAll_receives
    (KCP.inputSegment (KCP.inputAll regular ⟨k, 0, false, false⟩ pre) regular seg.1 seg.2)
      regular post
  have hall : k.handled regular (k.segments byteCheck data) = (KCP.inputAll regular
      (KCP.inputSegment (KCP.inputAll regular ⟨k, 0, false, false⟩ pre) regular seg.1 seg.2)
        post).k := by
    rw [hsegs, handled_append]
    rfl
  have hsame := step_input_sameReceiver hstep
  rw [hall] at hsame
  exact ((hpost.trans hsame.receives).secure hreceiving.toHolding hqueued.2).stored

theorem movedIn_numbers {es : List KcpEvent} (hes : ∀ e ∈ es, KeepsWindow e) :
    (movedIn byteCheck k es).map (·.sn) = numbers k.rcvNxt (movedIn byteCheck k es).length := by
  induction es generalizing k with
  | nil => rfl
  | cons e es ih =>
    rw [movedIn]
    cases hstep : k.step byteCheck e with
    | error p => rfl
    | ok r =>
      obtain ⟨k', sent⟩ := r
      dsimp only
      obtain ⟨l, hreceives⟩ := step_receives (hes e mem_cons_self) hstep
      have hdrop : k'.rcvQueue.drop (k.leftBy e).length = l := by
        rw [hreceives.queue]
        exact drop_left
      rw [hdrop, map_append, hreceives.numbers, ih fun e he => hes e (mem_cons_of_mem _ he),
        hreceives.nxt, length_append, numbers_add]

theorem fresh_receiving (conv : UInt64) {wnd : UInt32} (hwnd : wnd.toNat < 2 ^ 31) :
    ({ newKCP byteCheck conv with rcvWnd := wnd } : KCP).Receiving :=
  ⟨⟨hwnd, Nat.zero_le _, SegmentHeap.newSegmentHeap_ok _ _⟩, fun hnext => absurd hnext not_mem_nil⟩

variable (byteCheck) in
/-- The receiver in every run with a fixed window: each call starts and ends in a state that is in
order, and the segments that were ever moved to the queue are numbered from zero. -/
theorem receiver_invariant (conv : UInt64) (wnd : UInt32) (hwnd : wnd.toNat < 2 ^ 31)
    (es : List KcpEvent) (hes : ∀ e ∈ es, KeepsWindow e) :
    EachRound (step byteCheck)
      (fun k e => k.Receiving ∧ ∀ k' sent, k.step byteCheck e = .ok (k', sent) →
        Round byteCheck k e k')
      { newKCP byteCheck conv with rcvWnd := wnd } es ∧
    (movedIn byteCheck { newKCP byteCheck conv with rcvWnd := wnd } es).map (·.sn) =
      numbers 0 (movedIn byteCheck { newKCP byteCheck conv with rcvWnd := wnd } es).length := by
  have hfresh : ({ newKCP byteCheck conv with rcvWnd := wnd } : KCP).Receiving :=
    fresh_receiving conv hwnd
  refine ⟨?_, movedIn_numbers hes⟩
  generalize ({ newKCP byteCheck conv with rcvWnd := wnd } : KCP) = k at hfresh
  induction es generalizing k with
  | nil => trivial
  | cons e es ih =>
    have he := hes e mem_cons_self
    refine ⟨⟨hfresh, fun k' sent hstep => hfresh.round he hstep⟩, fun k' sent hstep => ?_⟩
    exact ih (fun e he => hes e (mem_cons_of_mem _ he)) k' (hfresh.step he hstep)

/-- A segment comes in and is received. -/
theorem receiver_invariant_one :
    (∀ e ∈
      [KcpEvent.input ({ Segment.ofData [1] with conv := 7, cmd := cmdPush }.wire none) true false
        fun _ => 0,
      .recv 4], KeepsWindow e) ∧
    EachRound (step none)
      (fun k e => k.Receiving ∧ ∀ k' sent, k.step none e = .ok (k', sent) → Round none k e k')
      { newKCP none 7 with rcvWnd := 32 }
      [.input ({ Segment.ofData [1] with conv := 7, cmd := cmdPush }.wire none) true false fun _ =>
        0, .recv 4] := by
  have hes : ∀ e ∈
      [KcpEvent.input ({ Segment.ofData [1] with conv := 7, cmd := cmdPush }.wire none) true false
      fun _ => 0, .recv 4], KeepsWindow e := by
    simp [KeepsWindow]
  exact ⟨hes, (receiver_invariant none 7 32 (by decide) _ hes).1⟩

/-- Push segments `0` and `1` come in after a stray one that is nearly `2 ^ 31` behind: its
acknowledgement is sent when its number is neither before the next one nor in the heap. -/
theorem stray_acknowledged : ∃ k,
    RunsIn (step none) (fun k => k.rcvWnd = 1) { newKCP none 7 with rcvWnd := 1 }
      [.input ({ Segment.ofData [1] with conv := 7, cmd := cmdPush, sn := 0x80000001 }.wire none)
        true false fun _ => 0,
        .input ({ Segment.ofData [2] with conv := 7, cmd := cmdPush, sn := 0 }.wire none) true false
          fun _ => 0,
        .recv 1,
        .input ({ Segment.ofData [3] with conv := 7, cmd := cmdPush, sn := 1 }.wire none) true false
          fun _ => 0] k ∧
    ⟨0x80000001, 0⟩ ∈ k.acklist ∧ ¬ k.Stored 0x80000001 := by
  refine ⟨_, ⟨rfl, _, _, rfl, rfl, _, _, rfl, rfl, _, _, rfl, rfl, _, _, rfl, rfl, rfl⟩, ?_, ?_⟩
  · decide +kernel
  · unfold Stored
    decide +kernel

end KCP

end Halo.Kcp
