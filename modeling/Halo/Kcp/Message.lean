import Halo.Kcp.Moves
import Halo.Kcp.RingBuffer

/-!
# Messages in the receive queue (`protocol/kcp/kcp.go`)

`PeekSize` looks whether the queue has all fragments of its first message, and adds their lengths up
to the fragment number `0`. `Recv` takes the same segments in a loop of its own. The number of
fragments is computed in a byte: a first segment with the fragment number `255` needs `0` segments.

The two functions are stated here on the queue of the code (`RingBuffer`), with the writes to the
buffer of the caller; a slice behind the end of the buffer is a fault.

* `messageCount`: how many segments the two loops take.
* `mergeLoop_eq`: `Recv` takes exactly these, and stays inside a buffer of the size.
* `message_complete_iff`: `PeekSize` waits for all fragments unless the fragment number is `255`.
-/

namespace Halo.Kcp

instance : Inhabited Segment := ⟨.ofData []⟩

/-- `PeekSize`. -/
def peekSize (q : RingBuffer Segment) : Int :=
  match q.peek with
  | none => -1
  | some seg =>
    if seg.frg = 0 then seg.data.length
    else if q.length < (seg.frg + 1).toNat then -1
    else
      ((q.forEach (fun length seg => (length + seg.data.length, decide (seg.frg ≠ 0))) 0 : Nat) :
        Int)

/-- The loop of `Recv` that merges the fragments, into a buffer of which `space` bytes are left: the
bytes that are written, and the queue behind them. A round takes a segment, so the length of the
queue bounds the rounds. -/
def mergeLoop : (fuel : Nat) → RingBuffer Segment → (space : Nat) →
    Except Fault (Bytes × RingBuffer Segment)
  | 0, q, _ => .ok ([], q)
  | fuel + 1, q, space =>
    match q.pop with
    | none => .ok ([], q)
    | some (seg, rest) =>
      if space < seg.data.length then .error .indexOutOfRange
      else if seg.frg = 0 then .ok (seg.data, rest)
      else
        match mergeLoop fuel rest (space - seg.data.length) with
        | .error fault => .error fault
        | .ok (data, rest) => .ok (seg.data ++ data, rest)

/-- `Recv` up to the move of new segments: the return value, the bytes written and the queue. -/
def recvMessage (q : RingBuffer Segment) (len : Nat) :
    Except Fault (Int × Bytes × RingBuffer Segment) :=
  if peekSize q < 0 then .ok (-1, [], q)
  else if (len : Int) < peekSize q then .ok (-2, [], q)
  else
    match mergeLoop (q.length + 1) q len with
    | .error fault => .error fault
    | .ok (data, rest) => .ok (data.length, data, rest)

/-! ## The segments of a message -/

/-- How many segments the first message has: up to the fragment number `0`, or all. -/
def messageCount : List Segment → Nat
  | [] => 0
  | seg :: rest => if seg.frg ≠ 0 then messageCount rest + 1 else 1

/-- The data of the first message. -/
def messageData (queue : List Segment) : Bytes :=
  (queue.take (messageCount queue)).flatMap Segment.data

namespace KCP

theorem length_messageData (queue : List Segment) :
    (messageData queue).length = messageSize queue := by
  induction queue with
  | nil => rfl
  | cons seg rest ih =>
    rw [messageData, messageCount, messageSize]
    split
    · rw [List.take_succ_cons, List.flatMap_cons, List.length_append, ← ih]
      rfl
    · simp

theorem popMessage_eq (queue : List Segment) :
    popMessage queue = (messageData queue, queue.drop (messageCount queue)) := by
  induction queue with
  | nil => rfl
  | cons seg rest ih =>
    rw [popMessage, messageData, messageCount, ih]
    by_cases hfrg : seg.frg = 0
    · simp [hfrg]
    · simp [hfrg, messageData]

end KCP

theorem visitWhile_messageSize (queue : List Segment) (n : Nat) :
    (visitWhile (fun (length : Nat) (seg : Segment) =>
      (length + seg.data.length, decide (seg.frg ≠ 0))) queue n).1 = n + KCP.messageSize queue := by
  induction queue generalizing n with
  | nil => rfl
  | cons seg rest ih =>
    rw [visitWhile, KCP.messageSize]
    by_cases hfrg : seg.frg = 0
    · simp [hfrg]
    · simp only [ne_eq, hfrg, not_false_eq_true, decide_true, if_true, ih]
      omega

variable {q : RingBuffer Segment} {len : Nat}

/-- The queue of the code and the list of the state machine give the same size. -/
theorem peekSize_eq {k : KCP} (h : k.rcvQueue = q.toList) : peekSize q = k.peekSize := by
  rw [peekSize, KCP.peekSize, RingBuffer.peek_eq, h, ← q.length_toList, RingBuffer.forEach_eq,
    visitWhile_messageSize, Nat.zero_add]
  cases q.toList <;> rfl

/-- A size that is not negative is that of the first message. -/
theorem peekSize_nonneg (h : 0 ≤ peekSize q) : peekSize q = KCP.messageSize q.toList := by
  rw [peekSize, RingBuffer.forEach_eq, visitWhile_messageSize, Nat.zero_add,
    RingBuffer.peek_eq] at *
  cases hq : q.toList with
  | nil => rw [hq] at h; cases h
  | cons seg rest =>
    rw [hq] at h
    simp only [List.head?_cons] at h ⊢
    by_cases hfrg : seg.frg = 0
    · simp [hfrg, KCP.messageSize]
    · rw [if_neg hfrg] at h ⊢
      split at h
      · cases h
      · rename_i hlen
        rw [if_neg hlen]

/-- The merging loop takes the segments of the first message, and stays inside of the buffer. The
induction is on the fuel, which covers the queue. -/
theorem mergeLoop_eq {fuel : Nat} {space : Nat} (hfuel : q.length < fuel)
    (hspace : KCP.messageSize q.toList ≤ space) :
    ∃ rest, mergeLoop fuel q space = .ok (messageData q.toList, rest) ∧
      rest.toList = q.toList.drop (messageCount q.toList) := by
  induction fuel generalizing q space with
  | zero => omega
  | succ fuel ih =>
    rw [mergeLoop]
    cases hpop : q.pop with
    | none => exact ⟨q, by simp [RingBuffer.pop_none hpop, messageData, messageCount]⟩
    | some p =>
      obtain ⟨seg, rest⟩ := p
      have hlist := RingBuffer.pop_some hpop
      have hlen : q.length = rest.length + 1 := by
        rw [← q.length_toList, hlist, List.length_cons, rest.length_toList]
      rw [hlist, KCP.messageSize] at hspace
      dsimp only
      rw [if_neg (by omega), hlist, messageData, messageCount]
      by_cases hfrg : seg.frg = 0
      · exact ⟨rest, by simp [hfrg]⟩
      · rw [if_pos hfrg] at hspace
        obtain ⟨rest', hmerge, hrest'⟩ := ih (show rest.length < fuel by omega)
          (show KCP.messageSize rest.toList ≤ space - seg.data.length by omega)
        refine ⟨rest', ?_, ?_⟩
        · rw [if_neg hfrg, hmerge, if_pos hfrg]
          rfl
        · rw [if_pos hfrg, List.drop_succ_cons, hrest']

/-- A buffer that is large enough gets the first message, which leaves the queue. -/
theorem recvMessage_eq (h : 0 ≤ peekSize q) (hlen : peekSize q ≤ len) :
    ∃ rest, recvMessage q len = .ok (peekSize q, messageData q.toList, rest) ∧
      rest.toList = q.toList.drop (messageCount q.toList) := by
  have hsize := peekSize_nonneg h
  obtain ⟨rest, hmerge, hrest⟩ := mergeLoop_eq (Nat.lt_succ_self q.length)
    (show KCP.messageSize q.toList ≤ len by omega)
  refine ⟨rest, ?_, hrest⟩
  rw [recvMessage, if_neg (by omega), if_neg (by omega), hmerge]
  dsimp only
  rw [KCP.length_messageData, hsize]

/-- `Recv` of the state machine: the message of the queue, and new segments behind what is left. -/
theorem KCP.recv_message {k : KCP} (h : 0 ≤ k.peekSize) (hlen : k.peekSize ≤ len) :
    (k.recv len).1 = (messageData k.rcvQueue).length ∧ (k.recv len).2.1 = messageData k.rcvQueue ∧
      ∃ moved, (k.recv len).2.2.rcvQueue = k.rcvQueue.drop (messageCount k.rcvQueue) ++ moved := by
  rw [recv, if_neg (by omega), if_neg (by omega), popMessage_eq]
  dsimp only
  refine ⟨rfl, rfl, ?_⟩
  obtain ⟨moved, hmoved⟩ := moveAvailable_moves k.rcvBuf.segments.length
    { k with rcvQueue := k.rcvQueue.drop (messageCount k.rcvQueue) }
  refine ⟨moved, ?_⟩
  split
  · exact hmoved.queue
  · exact hmoved.queue

/-- What a `Recv` into a buffer of `len` bytes does to the queue `q`: it returns the size that
`PeekSize` gives, writes as many bytes, and takes the segments whose lengths `PeekSize` has added
up. -/
structure TakesMessage (q : RingBuffer Segment) (len : Nat) : Prop where
  size : peekSize q = ((q.toList.take (messageCount q.toList)).map fun seg => seg.data.length).sum
  ring : ∃ rest, recvMessage q len = .ok (peekSize q, messageData q.toList, rest) ∧
    rest.toList = q.toList.drop (messageCount q.toList)
  inside : (messageData q.toList).length ≤ len
  machine : ∀ k : KCP, k.rcvQueue = q.toList →
    (k.recv len).1 = peekSize q ∧ (k.recv len).2.1 = messageData q.toList ∧
      ∃ moved, (k.recv len).2.2.rcvQueue = q.toList.drop (messageCount q.toList) ++ moved

theorem takesMessage (h : 0 ≤ peekSize q) (hlen : peekSize q ≤ len) : TakesMessage q len := by
  have hsize := peekSize_nonneg h
  rw [← KCP.length_messageData] at hsize
  refine ⟨?_, recvMessage_eq h hlen, by omega, fun k hk => ?_⟩
  · rw [hsize, messageData, List.length_flatMap]
  · have hpeek := peekSize_eq hk
    obtain ⟨hret, hdata, hqueue⟩ :=
      KCP.recv_message (k := k) (by omega) (show k.peekSize ≤ len by omega)
    rw [hk] at hret hdata hqueue
    exact ⟨by rw [hret, hsize], hdata, hqueue⟩

/-- `PeekSize` gives a size only for a complete message, and `Recv` then takes that message, unless
the first fragment number is `255` and fewer than `256` segments are there. -/
theorem message_complete_iff (q : RingBuffer Segment) :
    ((0 ≤ peekSize q → ∀ seg, q.peek = some seg → seg.frg.toNat + 1 ≤ q.length) ∧
      ∀ len : Nat, 0 ≤ peekSize q → peekSize q ≤ len → TakesMessage q len) ↔
    ¬ ∃ seg, q.peek = some seg ∧ seg.frg = 255 ∧ q.length < 256 := by
  constructor
  · rintro ⟨hcomplete, -⟩ ⟨seg, hseg, hfrg, hlen⟩
    have hzero : ¬ q.length < (seg.frg + 1).toNat := by
      rw [hfrg]
      exact Nat.not_lt_zero _
    have hne : seg.frg ≠ 0 := by
      rw [hfrg]
      decide
    have hpeek : 0 ≤ peekSize q := by
      rw [peekSize, hseg]
      dsimp only
      rw [if_neg hne, if_neg hzero]
      exact Int.natCast_nonneg _
    have := hcomplete hpeek seg hseg
    rw [hfrg] at this
    have h255 : (255 : UInt8).toNat = 255 := rfl
    omega
  · intro hno
    refine ⟨fun hpeek seg hseg => ?_, fun len h hlen => takesMessage h hlen⟩
    have hpos : 0 < q.length := by
      by_contra hzero
      rw [RingBuffer.peek, if_pos (by omega)] at hseg
      cases hseg
    by_cases hfrg : seg.frg = 0
    · rw [hfrg]
      exact hpos
    · rw [peekSize, hseg] at hpeek
      dsimp only at hpeek
      rw [if_neg hfrg] at hpeek
      split at hpeek
      · cases hpeek
      · rename_i hlen
        have hbyte := seg.frg.toNat_lt
        rw [UInt8.toNat_add, show (1 : UInt8).toNat = 1 from rfl] at hlen
        by_contra hshort
        refine hno ⟨seg, hseg, UInt8.toNat_inj.mp ?_, by omega⟩
        show seg.frg.toNat = 255
        omega

/-- A queue of one segment with the fragment number. -/
def oneFragment (frg : UInt8) : RingBuffer Segment where
  elements := [{ Segment.ofData [1, 2, 3] with frg := frg }]
  head := 0
  length := 1
  head_lt := Nat.one_pos
  length_le := Nat.le_refl 1

/-- One segment with the fragment number `255` is given out as a message of three bytes, though 256
segments belong to it; the fragment number `254` is not. -/
theorem fragment_255_complete :
    peekSize (oneFragment 255) = 3 ∧ (oneFragment 255).length = 1 ∧
      peekSize (oneFragment 254) = -1 := by
  decide +kernel

end Halo.Kcp
