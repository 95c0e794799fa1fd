import Halo.Kcp.Link

/-!
# Delivery between two KCP peers

One direction of a link carries a log: the frames (fragment number and data) of the segments in the
order of their numbers (`Sender`). A segment that is kept, in flight or held by the receiver has its
frame in the log, at its number; so what the receiver moves to its queue, number by number, is a
part of the log from its start (`Receiver`). The log and the frames that are still queued are those
of the accepted buffers, and what has been taken from the receiver's queue are those of the returned
messages (`Messages`, `Streams`).

`Channel` is the invariant of a direction; it gives the order of the messages and of the bytes
(`delivery`).
-/

namespace Halo.Kcp

open List

/-- What a segment carries: the number of its fragment, and the data. -/
abbrev Frame := UInt8 × Bytes

def Segment.frame (seg : Segment) : Frame := (seg.frg, seg.data)

namespace KCP

/-- How many fragments a message has. -/
def fragmentCount (mss : Nat) (buffer : Bytes) : Nat := (buffer.length - 1) / mss + 1

/-- The frames of a message. -/
def frames (mss : Nat) (buffer : Bytes) : List Frame :=
  (fragments mss false (fragmentCount mss buffer) buffer).map Segment.frame

/-- A push segment with its frame in the log, at its number. -/
structure Logged (conv : UInt64) (log : List Frame) (seg : Segment) : Prop where
  conv_eq : seg.conv = conv
  cmd_eq : seg.cmd = cmdPush
  frame_eq : log[seg.sn.toNat]? = some seg.frame

/-- The log and the queue of a sender that has not crashed. -/
structure Alive (conv : UInt64) (log queue : List Frame) (p : Peer) : Prop where
  conv_eq : p.k.conv = conv
  nxt : p.k.sndNxt = .ofNat log.length
  count_eq : p.count = log.length
  buf : ∀ seg ∈ p.k.sndBuf, seg.acked ≠ 1 → Logged conv log seg
  queue_eq : p.k.sndQueue.map Segment.frame = queue

/-- The sender of a direction: all that it has sent is in its log. A flush that panics may have
numbered segments that `count` does not have. -/
structure Sender (byteCheck : Option (Bytes → UInt32)) (conv : UInt64) (log queue : List Frame)
    (p : Peer) : Prop where
  short : ∀ f ∈ log ++ queue, f.2.length < 2 ^ 32
  sent : ∀ d ∈ p.sent, Whole byteCheck (InFlight conv (Logged conv log)) d
  length_lt : log.length < p.count + 2 ^ 16
  alive : p.crashed = false → Alive conv log queue p

/-- The receiver of a direction: what has been taken from its queue and the queue itself are the
start of the log, up to the next number. -/
structure Receiver (log popped : List Frame) (k : KCP) : Prop where
  nxt : k.rcvNxt = .ofNat (popped ++ k.rcvQueue.map Segment.frame).length
  queue : popped ++ k.rcvQueue.map Segment.frame <+: log
  heap : ∀ seg ∈ k.rcvBuf.segments, log[seg.sn.toNat]? = some seg.frame

/-- The frames in message mode. -/
structure Messages (mss : Nat) (accepted received : List Bytes) (all popped : List Frame) :
    Prop where
  all_eq : all = accepted.flatMap (frames mss)
  small : ∀ b ∈ accepted, mss ≠ 0 ∧ fragmentCount mss b ≤ 255
  popped_eq : popped = received.flatMap (frames mss)
  in_order : received <+: accepted

/-- The frames in stream mode. -/
structure Streams (accepted received : List Bytes) (all popped : List Frame) : Prop where
  all_eq : all.flatMap Prod.snd = accepted.flatten
  popped_eq : popped.flatMap Prod.snd = received.flatten

/-- The frames of the accepted buffers and of the returned messages. -/
def Content (k : KCP) (accepted received : List Bytes) (all popped : List Frame) : Prop :=
  (k.stream = 0 → Messages k.mss.toNat accepted received all popped) ∧
    (k.stream ≠ 0 → Streams accepted received all popped)

/-- The invariant of a direction, from `p` to `q`; the settings of the sender are those of `k`. -/
def Channel (byteCheck : Option (Bytes → UInt32)) (k : KCP) (p q : Peer) : Prop :=
  ∃ log queue popped, Sender byteCheck k.conv log queue p ∧ Receiver log popped q.k ∧
    Content k p.accepted q.received (log ++ queue) popped

variable {byteCheck : Option (Bytes → UInt32)} {k k' : KCP}

/-! ## Fragments -/

theorem frames_eq (mss : Nat) (buffer : Bytes) : ∃ rest, frames mss buffer =
    (.ofNat (fragmentCount mss buffer - 1), buffer.take mss) :: rest := ⟨_, rfl⟩

theorem length_fragments (mss : Nat) (stream : Bool) (count : Nat) (buffer : Bytes) :
    (fragments mss stream count buffer).length = count := by
  induction count generalizing buffer with
  | zero => rfl
  | succ count ih => rw [fragments, length_cons, ih]

/-- The pieces of a buffer, put together again. -/
theorem fragments_data (mss : Nat) (stream : Bool) (count : Nat) (buffer : Bytes) :
    (fragments mss stream count buffer).flatMap (·.data) = buffer.take (count * mss) := by
  induction count generalizing buffer with
  | zero => rw [Nat.zero_mul, take_zero]; rfl
  | succ count ih =>
    rw [fragments, flatMap_cons, ih, Nat.succ_mul, Nat.add_comm, take_add]
    rfl

/-- The fragments cover the buffer. -/
theorem length_le_fragmentCount {mss : Nat} (hmss : mss ≠ 0) (buffer : Bytes) :
    buffer.length ≤ fragmentCount mss buffer * mss := by
  have hlt := Nat.lt_mul_div_succ (buffer.length - 1) (Nat.pos_of_ne_zero hmss)
  rw [Nat.mul_comm] at hlt
  unfold fragmentCount
  omega

variable {buffer : Bytes}

/-- The message at the front of a queue that holds its fragments. -/
theorem popMessage_fragments {mss count : Nat} (hcount : count < 256) {queue : List Segment}
    (h : (fragments mss false (count + 1) buffer).map Segment.frame <+: queue.map Segment.frame) :
    popMessage queue = (buffer.take ((count + 1) * mss), queue.drop (count + 1)) := by
  induction count generalizing buffer queue with
  | zero =>
    cases queue with
    | nil => exact absurd (prefix_nil.mp h) (cons_ne_nil _ _)
    | cons seg rest =>
      obtain ⟨hframe, -⟩ := cons_prefix_cons.mp h
      have hfrg : seg.frg = 0 := (congrArg Prod.fst hframe).symm
      have hdata : seg.data = buffer.take mss := (congrArg Prod.snd hframe).symm
      rw [popMessage, if_pos hfrg, hdata, Nat.zero_add, Nat.one_mul]
      rfl
  | succ count ih =>
    cases queue with
    | nil => exact absurd (prefix_nil.mp h) (cons_ne_nil _ _)
    | cons seg rest =>
      obtain ⟨hframe, hrest⟩ := cons_prefix_cons.mp h
      have hfrg : seg.frg = .ofNat (count + 1) := (congrArg Prod.fst hframe).symm
      have hdata : seg.data = buffer.take mss := (congrArg Prod.snd hframe).symm
      have hne : seg.frg ≠ 0 := by
        rw [hfrg]
        intro hzero
        have := congrArg UInt8.toNat hzero
        rw [UInt8.toNat_ofNat_of_lt' hcount] at this
        exact absurd this (Nat.succ_ne_zero count)
      rw [popMessage, if_neg hne, ih (by omega) hrest, hdata, Nat.succ_mul (count + 1),
        Nat.add_comm _ mss, take_add]
      rfl

/-- The message that is taken is at the front of the queue. -/
theorem popMessage_split (queue : List Segment) : ∃ taken, queue = taken ++ (popMessage queue).2 ∧
    (popMessage queue).1 = taken.flatMap (·.data) := by
  induction queue with
  | nil => exact ⟨[], rfl, rfl⟩
  | cons seg rest ih =>
    obtain ⟨taken, hqueue, hdata⟩ := ih
    rw [popMessage]
    split
    · exact ⟨[seg], rfl, by simp⟩
    · refine ⟨seg :: taken, ?_, ?_⟩
      · dsimp only
        rw [cons_append, ← hqueue]
      · rw [flatMap_cons, ← hdata]

/-- `PeekSize` finds a message if as many segments are queued as the first one announces. -/
theorem peekSize_nonneg (k : KCP) : 0 ≤ k.peekSize ↔ ∃ seg rest, k.rcvQueue = seg :: rest ∧
    (seg.frg = 0 ∨ (seg.frg + 1).toNat ≤ k.rcvQueue.length) := by
  unfold peekSize
  cases hqueue : k.rcvQueue with
  | nil => simp
  | cons seg rest =>
    dsimp only
    split
    · rename_i hzero
      exact ⟨fun _ => ⟨seg, rest, rfl, .inl hzero⟩, fun _ => Int.natCast_nonneg _⟩
    split
    · rename_i hne hlt
      constructor
      · intro hneg
        exact absurd hneg (by decide)
      · rintro ⟨seg', rest', heq, hsize⟩
        cases heq
        rcases hsize with hzero | hle
        · exact absurd hzero hne
        · exact absurd hlt (not_lt.mpr hle)
    · rename_i hge
      exact ⟨fun _ => ⟨seg, rest, rfl, .inr (not_lt.mp hge)⟩, fun _ => Int.natCast_nonneg _⟩

/-- What `Send` adds to the queue: the fragments of the message, or the bytes at the end of the
stream. -/
structure Queued (k : KCP) (buffer : Bytes) (queue : List Segment) : Prop where
  message : k.stream = 0 → (k.mss.toNat ≠ 0 ∧ fragmentCount k.mss.toNat buffer ≤ 255) ∧
    queue.map Segment.frame = k.sndQueue.map Segment.frame ++ frames k.mss.toNat buffer
  stream : k.stream ≠ 0 → queue.flatMap (·.data) = k.sndQueue.flatMap (·.data) ++ buffer
  short : (∀ seg ∈ k.sndQueue, seg.data.length < 2 ^ 32) → ∀ seg ∈ queue, seg.data.length < 2 ^ 32

theorem sendFragments_queued {r : Int × KCP} (h : k.sendFragments buffer = .ok r) :
    (r.1 ≠ 0 ∧ k.stream = 0 ∧ r.2 = k) ∨
      (r.1 = 0 ∧ ∃ queue, r.2 = { k with sndQueue := queue } ∧ Queued k buffer queue) := by
  rcases sendFragments_cases h with ⟨rfl, hmode, -⟩ | ⟨rfl, hmss, hsmall⟩
  · exact .inl ⟨(by decide : (-2 : Int) ≠ 0), hmode, rfl⟩
  refine .inr ⟨rfl, _, rfl, fun hmode => ⟨⟨hmss, ?_⟩, ?_⟩, fun hmode => ?_,
    fun hshort seg hseg => ?_⟩
  · exact not_lt.mp fun hlarge => hsmall ⟨hmode, hlarge⟩
  · rw [map_append, hmode]
    rfl
  · rw [flatMap_append, fragments_data]
    exact congrArg _ (take_of_length_le (length_le_fragmentCount hmss buffer))
  · rcases mem_append.mp hseg with hold | hnew
    · exact hshort seg hold
    · exact (fragments_length_le _ _ seg hnew).trans_lt k.mss.toNat_lt

/-- `Send` accepts the buffer, or it changes nothing. -/
theorem send_queued {r : Int × KCP} (h : k.send buffer = .ok r) :
    (r.1 ≠ 0 ∧ r.2 = k) ∨
      (r.1 = 0 ∧ ∃ queue, r.2 = { k with sndQueue := queue } ∧ Queued k buffer queue) := by
  unfold send at h
  split at h
  · cases h
    exact .inl ⟨(by decide : (-1 : Int) ≠ 0), rfl⟩
  split at h
  · rename_i hmode
    cases hext : k.extendLast buffer with
    | error fault =>
      rw [hext] at h
      cases h
    | ok r₁ =>
      rw [hext] at h
      obtain ⟨left, k₁⟩ := r₁
      -- after the last segment has been extended, the rest of the buffer is left
      have hk₁ : ∃ queue, k₁ = { k with sndQueue := queue } ∧
          queue.flatMap (·.data) ++ left = k.sndQueue.flatMap (·.data) ++ buffer ∧
          ((∀ seg ∈ k.sndQueue, seg.data.length < 2 ^ 32) → ∀ seg ∈ queue,
            seg.data.length < 2 ^ 32) := by
        rcases extendLast_cases hext with heq | ⟨queue, last, n, hqueue, hfits, heq⟩
        · cases heq
          exact ⟨k.sndQueue, rfl, rfl, id⟩
        · cases heq
          refine ⟨_, rfl, ?_, fun hshort seg hseg => ?_⟩
          · simp [hqueue, take_append_drop]
          · rcases mem_append.mp hseg with hold | hnew
            · exact hshort seg (hqueue ▸ mem_append_left _ hold)
            · rw [mem_singleton.mp hnew]
              simp only [length_append, length_take]
              have := k.mss.toNat_lt
              omega
      obtain ⟨queue, rfl, hdata, hshort⟩ := hk₁
      dsimp only at h
      split at h
      · rename_i hleft
        cases h
        subst hleft
        rw [append_nil] at hdata
        exact .inr ⟨rfl, queue, rfl, fun hmsg => absurd hmsg hmode, fun _ => hdata, hshort⟩
      · rcases sendFragments_queued h with ⟨-, hmsg, -⟩ | ⟨hcode, queue', hr, hqueued⟩
        · exact absurd hmsg hmode
        · refine .inr ⟨hcode, queue', hr, fun hmsg => absurd hmsg hmode, fun _ => ?_,
            fun hk => hqueued.short (hshort hk)⟩
          rw [hqueued.stream hmode, hdata]
  · rcases sendFragments_queued h with ⟨hcode, -, hr⟩ | haccepted
    · exact .inl ⟨hcode, hr⟩
    · exact .inr haccepted

/-! ## The sender -/

section

variable {conv : UInt64} {log log' queue queue' popped : List Frame} {p q : Peer}

theorem getElem?_of_prefix {i : Nat} {f : Frame} (h : log <+: log') (hf : log[i]? = some f) :
    log'[i]? = some f := by
  obtain ⟨more, rfl⟩ := h
  rw [List.getElem?_append_left (List.getElem?_eq_some_iff.mp hf).1]
  exact hf

variable {seg : Segment} {n : Nat} {e : KcpEvent}

theorem Logged.mono (h : Logged conv log seg) (hlog : log <+: log') : Logged conv log' seg :=
  ⟨h.conv_eq, h.cmd_eq, getElem?_of_prefix hlog h.frame_eq⟩

theorem Logged.same {seg' : Segment} (h : Logged conv log seg) (hsame : seg.Same seg') :
    Logged conv log seg' := by
  refine ⟨hsame.conv.trans h.conv_eq, hsame.cmd.trans h.cmd_eq, ?_⟩
  rw [hsame.sn, h.frame_eq, Segment.frame, Segment.frame, hsame.frg, hsame.data]

/-- The segments that get a number are appended to the log. -/
theorem numbered_logged {segs : List Segment} (hlen : log.length + segs.length ≤ 2 ^ 32) :
    ∀ seg ∈ numbered conv (.ofNat log.length) segs,
      Logged conv (log ++ segs.map Segment.frame) seg := by
  induction segs generalizing log with
  | nil => exact forall_mem_nil _
  | cons first rest ih =>
    rw [length_cons] at hlen
    intro seg hseg
    rcases mem_cons.mp hseg with rfl | hrest
    · refine ⟨rfl, rfl, ?_⟩
      dsimp only
      rw [UInt32.toNat_ofNat_of_lt' (show log.length < 2 ^ 32 by omega), map_cons,
        getElem?_append_right le_rfl, Nat.sub_self]
      rfl
    · have hnext : UInt32.ofNat log.length + 1 = .ofNat (log ++ [first.frame]).length := by
        rw [length_append, UInt32.ofNat_add]
        rfl
      rw [hnext] at hrest
      have hlogged := ih (by rw [length_append, length_singleton]; omega) seg hrest
      rw [append_assoc] at hlogged
      exact hlogged

/-- The offered segments are in the log when the numbers are given. -/
theorem Alive.offers (h : Alive conv log queue p) (hlen : log.length + n ≤ 2 ^ 32)
    (hseg : seg ∈ p.k.offers n) (hacked : seg.acked ≠ 1) :
    Logged conv (log ++ queue.take n) seg := by
  rcases mem_append.mp hseg with hbuf | hnew
  · exact (h.buf seg hbuf hacked).mono (prefix_append _ _)
  · rw [h.conv_eq, h.nxt] at hnew
    have hlen' : log.length + (p.k.sndQueue.take n).length ≤ 2 ^ 32 := by
      rw [length_take]
      omega
    have hlogged := numbered_logged hlen' seg hnew
    rwa [map_take, h.queue_eq] at hlogged

/-- What has been sent and what is sent is in the log. -/
theorem Sender.sends (h : Sender byteCheck conv log queue p) (halive : Alive conv log queue p)
    (hlen : log.length + n ≤ 2 ^ 32) {sent : List Bytes} (hsent : p.k.Sends byteCheck n sent) :
    ∀ d ∈ p.sent ++ sent.map (List.drop p.k.reserved),
      Whole byteCheck (InFlight conv (Logged conv (log ++ queue.take n))) d := by
  intro d hd
  rcases mem_append.mp hd with hold | hnew
  · exact (h.sent d hold).mono fun _ hseg => hseg.imp_right fun hlogged =>
      hlogged.mono (prefix_append _ _)
  · exact hsent.inFlight halive.conv_eq
      (fun s hs hacked seg hsame => (halive.offers hlen hs hacked).same hsame) d hnew

/-- A call that numbers `n` segments and returns. -/
theorem Sender.transmits (h : Sender byteCheck conv log queue p) (hcrashed : p.crashed = false)
    (hcount : p.count < 2 ^ 31) {sent : List Bytes} (hstep : p.k.step byteCheck e = .ok (k', sent))
    (hn : n < 2 ^ 16) (hle : n ≤ p.k.sndQueue.length) (hk' : Transmits p.k n k')
    (hsent : p.k.Sends byteCheck n sent) :
    Sender byteCheck conv (log ++ queue.take n) (queue.drop n) (p.call byteCheck e) := by
  have halive := h.alive hcrashed
  have hlen : log.length + n ≤ 2 ^ 32 := by
    rw [← halive.count_eq]
    omega
  have htake : (log ++ queue.take n).length = log.length + n := by
    rw [← halive.queue_eq, length_append, length_take, length_map, Nat.min_eq_left hle]
  have hnext : p.count + (k'.sndNxt - p.k.sndNxt).toNat = (log ++ queue.take n).length := by
    rw [hk'.nxt, add_sub_cancel_left, UInt32.toNat_ofNat_of_lt' (show n < 2 ^ 32 by omega), htake,
      halive.count_eq]
  rw [Peer.call_ok hcrashed hstep]
  refine ⟨?_, h.sends halive hlen hsent, ?_, fun _ => ⟨?_, ?_, hnext, ?_, ?_⟩⟩
  · rw [append_assoc, take_append_drop]
    exact h.short
  · dsimp only
    rw [hnext]
    omega
  · exact hk'.settings.conv.trans halive.conv_eq
  · dsimp only
    rw [hk'.nxt, halive.nxt, htake, UInt32.ofNat_add]
  · intro seg' hseg' hacked
    obtain ⟨seg, hseg, hunacked, hsame⟩ := hk'.buf seg' hseg' hacked
    exact (halive.offers hlen hseg hunacked).same hsame
  · dsimp only
    rw [hk'.queue, map_drop, halive.queue_eq]

/-- A call that panics. -/
theorem Sender.panics (h : Sender byteCheck conv log queue p) (hcrashed : p.crashed = false)
    (hcount : p.count < 2 ^ 31) {panic : Panic} (hstep : p.k.step byteCheck e = .error panic)
    (hn : n < 2 ^ 16) (hsent : p.k.Sends byteCheck n panic.sent) :
    Sender byteCheck conv (log ++ queue.take n) (queue.drop n) (p.call byteCheck e) := by
  have halive := h.alive hcrashed
  have hlen : log.length + n ≤ 2 ^ 32 := by
    rw [← halive.count_eq]
    omega
  rw [Peer.call_error hcrashed hstep]
  refine ⟨?_, h.sends halive hlen hsent, ?_, fun halive => Bool.noConfusion halive⟩
  · rw [append_assoc, take_append_drop]
    exact h.short
  · rw [length_append, length_take]
    dsimp only
    have := halive.count_eq
    omega

/-! ## The receiver -/

theorem Receiver.mono (h : Receiver log popped k) (hlog : log <+: log') : Receiver log' popped k :=
  ⟨h.nxt, h.queue.trans hlog, fun seg hseg => getElem?_of_prefix hlog (h.heap seg hseg)⟩

/-- Segments of the log, numbered from the end of a part of it, extend the part. -/
theorem logged_prefix (hlen : log.length < 2 ^ 32) {part : List Frame} (hpart : part <+: log)
    {segs : List Segment} (hnumbers : segs.map (·.sn) = numbers (.ofNat part.length) segs.length)
    (hsegs : ∀ seg ∈ segs, log[seg.sn.toNat]? = some seg.frame) :
    part ++ segs.map Segment.frame <+: log := by
  induction segs generalizing part with
  | nil => simpa using hpart
  | cons seg rest ih =>
    rw [map_cons, length_cons, numbers_succ, cons.injEq] at hnumbers
    have hlt : part.length < 2 ^ 32 := hpart.length_le.trans_lt hlen
    have hframe := hsegs seg mem_cons_self
    rw [hnumbers.1, UInt32.toNat_ofNat_of_lt' hlt] at hframe
    have hone : part ++ [seg.frame] <+: log := by
      obtain ⟨more, rfl⟩ := hpart
      rw [getElem?_append_right le_rfl, Nat.sub_self] at hframe
      cases more with
      | nil => cases hframe
      | cons f more =>
        cases hframe
        exact ⟨more, by simp⟩
    have hnext : UInt32.ofNat part.length + 1 = .ofNat (part ++ [seg.frame]).length := by
      rw [length_append, UInt32.ofNat_add]
      rfl
    rw [hnext] at hnumbers
    have hall := ih hone hnumbers.2 fun s hs => hsegs s (mem_cons_of_mem _ hs)
    rwa [append_assoc] at hall

/-- A call that takes frames from the queue and segments of the log from a datagram. -/
theorem Receiver.receives (h : Receiver log popped k) (hlen : log.length < 2 ^ 32)
    {left : List Segment} {popped' : List Frame}
    (hleft : popped' ++ left.map Segment.frame = popped ++ k.rcvQueue.map Segment.frame)
    {segs : List (Header × Bytes)}
    (hsegs : ∀ p ∈ segs, p.1.cmd = cmdPush → log[p.1.sn.toNat]? = some (p.1.frg, p.2))
    {l : List Segment} (hk' : Receives segs { k with rcvQueue := left } l k') :
    Receiver log popped' k' := by
  have hsource : ∀ seg ∈ l ++ k'.rcvBuf.segments, log[seg.sn.toNat]? = some seg.frame := by
    intro seg hseg
    rcases hk'.source seg hseg with hheap | ⟨p, hp, hcmd, rfl⟩
    · exact h.heap seg hheap
    · exact hsegs p hp hcmd
  have hqueue : popped' ++ k'.rcvQueue.map Segment.frame =
      (popped ++ k.rcvQueue.map Segment.frame) ++ l.map Segment.frame := by
    rw [hk'.queue, map_append, ← append_assoc, hleft]
  refine ⟨?_, ?_, fun seg hseg => hsource seg (mem_append_right _ hseg)⟩
  · rw [hqueue, hk'.nxt, length_append, UInt32.ofNat_add, length_map]
    exact congrArg (· + _) h.nxt
  · rw [hqueue]
    refine logged_prefix hlen h.queue ?_ fun seg hseg => hsource seg (mem_append_left _ hseg)
    rw [hk'.numbers, ← h.nxt]

/-! ## Messages and bytes -/

section

variable {mss : Nat} {accepted received : List Bytes} {all : List Frame} {segs : List Segment}

/-- The first fragment of a message announces how many there are. -/
theorem announced {buffer : Bytes} (hsmall : fragmentCount mss buffer ≤ 255) :
    (UInt8.ofNat (fragmentCount mss buffer - 1) + 1).toNat = fragmentCount mss buffer := by
  have hsucc : UInt8.ofNat (fragmentCount mss buffer - 1) + 1 = .ofNat (fragmentCount mss buffer) :=
    (UInt8.ofNat_add ((buffer.length - 1) / mss) 1).symm
  rw [hsucc, UInt8.toNat_ofNat_of_lt' (show _ < 2 ^ 8 by omega)]

variable {seg : Segment} {rest : List Segment}

/-- A queue that is not empty starts with the first fragment of the next message. -/
theorem Messages.front (h : Messages mss accepted received all popped)
    (hqueue : popped ++ segs.map Segment.frame <+: all)
    (hsegs : segs = seg :: rest) : ∃ b bs, accepted = received ++ b :: bs ∧
      segs.map Segment.frame <+: frames mss b ++ bs.flatMap (frames mss) ∧
      seg.frg = .ofNat (fragmentCount mss b - 1) := by
  obtain ⟨tail, htail⟩ := h.in_order
  rw [h.all_eq, h.popped_eq, ← htail, flatMap_append, prefix_append_right_inj] at hqueue
  cases tail with
  | nil =>
    rw [hsegs] at hqueue
    exact absurd (prefix_nil.mp hqueue) (cons_ne_nil _ _)
  | cons b bs =>
    refine ⟨b, bs, htail.symm, by rwa [flatMap_cons] at hqueue, ?_⟩
    obtain ⟨more, hframes⟩ := frames_eq mss b
    rw [flatMap_cons, hframes, hsegs, map_cons, cons_append] at hqueue
    exact congrArg Prod.fst (cons_prefix_cons.mp hqueue).1

/-- The message that `Recv` returns is the next one. -/
theorem Messages.returned (h : Messages mss accepted received all popped)
    (hqueue : popped ++ segs.map Segment.frame <+: all)
    (hsegs : segs = seg :: rest) (hsize : seg.frg = 0 ∨ (seg.frg + 1).toNat ≤ segs.length)
    {taken : List Segment} (htaken : segs = taken ++ (popMessage segs).2) :
    Messages mss accepted (received ++ [(popMessage segs).1]) all
      (popped ++ taken.map Segment.frame) := by
  obtain ⟨b, bs, haccepted, hprefix, hfrg⟩ := h.front hqueue hsegs
  obtain ⟨hmss, hsmall⟩ := h.small b (haccepted ▸ mem_append_right _ mem_cons_self)
  have hannounced := announced hsmall
  rw [← hfrg] at hannounced
  have hwhole : fragmentCount mss b ≤ segs.length := by
    rcases hsize with hzero | hle
    · rw [hzero] at hannounced
      have hone : (0 + 1 : UInt8).toNat = 1 := rfl
      rw [hsegs, length_cons]
      omega
    · omega
  have hlength : (frames mss b).length = fragmentCount mss b := by
    rw [frames, length_map, length_fragments]
  have hfront : frames mss b <+: segs.map Segment.frame :=
    prefix_of_prefix_length_le (prefix_append _ _) hprefix (by rwa [hlength, length_map])
  have hlast : (b.length - 1) / mss < 256 := by
    unfold fragmentCount at hsmall
    omega
  have hpop : popMessage segs =
      (b.take (fragmentCount mss b * mss), segs.drop (fragmentCount mss b)) :=
    popMessage_fragments hlast hfront
  rw [take_of_length_le (length_le_fragmentCount hmss b)] at hpop
  have hframes : taken.map Segment.frame = frames mss b := by
    have hsplit : taken = segs.take (fragmentCount mss b) := by
      rw [hpop] at htaken
      exact append_cancel_right (htaken.symm.trans (take_append_drop _ _).symm)
    rw [hsplit, map_take, ← hlength]
    exact (prefix_iff_eq_take.mp hfront).symm
  rw [hpop, hframes]
  refine ⟨h.all_eq, h.small, ?_, ?_⟩
  · rw [h.popped_eq, flatMap_append]
    simp
  · rw [haccepted]
    exact ⟨bs, by simp⟩

/-- `Recv` takes frames off the front of the queue. -/
theorem Content.returned (h : Content k accepted received all popped)
    (hqueue : popped ++ segs.map Segment.frame <+: all)
    (hsegs : segs = seg :: rest) (hsize : seg.frg = 0 ∨ (seg.frg + 1).toNat ≤ segs.length) :
    ∃ taken, segs = taken ++ (popMessage segs).2 ∧
      Content k accepted (received ++ [(popMessage segs).1]) all
        (popped ++ taken.map Segment.frame) := by
  obtain ⟨taken, htaken, hdata⟩ := popMessage_split segs
  refine ⟨taken, htaken, fun hmode => (h.1 hmode).returned hqueue hsegs hsize htaken,
    fun hmode => ?_⟩
  refine ⟨(h.2 hmode).all_eq, ?_⟩
  rw [flatMap_append, (h.2 hmode).popped_eq, hdata, flatten_append, flatMap_map]
  simp [Segment.frame]

/-- `Send` appends frames. -/
theorem Content.accept {buffer : Bytes} (h : Content k accepted received (log ++ queue) popped)
    (hk' : SameSettings k k') (hqueue : k'.sndQueue.map Segment.frame = queue)
    (hqueued : Queued k' buffer segs) :
    Content k (accepted ++ [buffer]) received (log ++ segs.map Segment.frame) popped := by
  rw [← hqueue] at h
  have hmessage := hqueued.message
  have hstream := hqueued.stream
  rw [hk'.stream] at hmessage hstream
  rw [hk'.mss] at hmessage
  refine ⟨fun hmode => ?_, fun hmode => ?_⟩
  · have hold := h.1 hmode
    obtain ⟨hsmall, hframes⟩ := hmessage hmode
    refine ⟨?_, fun b hb => ?_, hold.popped_eq, hold.in_order.trans (prefix_append _ _)⟩
    · rw [hframes, ← append_assoc, hold.all_eq, flatMap_append]
      simp
    · rcases mem_append.mp hb with hb | hb
      · exact hold.small b hb
      · rw [mem_singleton.mp hb]
        exact hsmall
  · have hold := h.2 hmode
    refine ⟨?_, hold.popped_eq⟩
    have hall := hold.all_eq
    have hbytes := hstream hmode
    simp only [flatMap_append, flatMap_map, Segment.frame, flatten_append] at hall hbytes ⊢
    rw [hbytes, ← append_assoc, hall]
    simp

end

/-! ## One call -/

theorem acceptedBy_of_ne (h : ∀ buffer, e ≠ .send buffer) : k.acceptedBy e = [] := by
  cases e with
  | send buffer => exact absurd rfl (h buffer)
  | _ => rfl

/-- `Send` on the sender. -/
theorem Channel.send (h : Channel byteCheck k p q) (hk : SameSettings k p.k)
    (hcrashed : p.crashed = false) (hcount : p.count < 2 ^ 31) (buffer : Bytes) :
    Channel byteCheck k (p.call byteCheck (.send buffer)) q := by
  obtain ⟨log, queue, popped, hsender, hreceiver, hcontent⟩ := h
  have halive := hsender.alive hcrashed
  cases hsend : p.k.send buffer with
  | error fault =>
    have hstep : p.k.step byteCheck (.send buffer) = .error ⟨fault, []⟩ := by rw [KCP.step, hsend]
    have hpanics := hsender.panics hcrashed hcount hstep (n := 0) (by decide) (forall_mem_nil _)
    rw [take_zero, append_nil, drop_zero] at hpanics
    refine ⟨log, queue, popped, hpanics, hreceiver, ?_⟩
    rw [Peer.call_error hcrashed hstep]
    exact hcontent
  | ok r =>
    obtain ⟨code, k'⟩ := r
    have hstep : p.k.step byteCheck (.send buffer) = .ok (k', []) := by rw [KCP.step, hsend]
    rcases send_queued hsend with ⟨hcode, rfl⟩ | ⟨rfl, segs, rfl, hqueued⟩
    · have hnone : p.k.acceptedBy (.send buffer) = [] := by
        rw [acceptedBy, hsend]
        exact if_neg hcode
      have hidle : Transmits p.k 0 p.k := by
        refine ⟨.refl p.k, (add_zero p.k.sndNxt).symm, rfl, fun seg hseg hacked => ?_⟩
        exact ⟨seg, mem_append_left _ hseg, hacked, .refl seg⟩
      have hsame := hsender.transmits hcrashed hcount hstep (n := 0) (by decide)
        (Nat.zero_le _) hidle (forall_mem_nil _)
      rw [take_zero, append_nil, drop_zero] at hsame
      refine ⟨log, queue, popped, hsame, hreceiver, ?_⟩
      rw [Peer.call_ok hcrashed hstep, hnone, append_nil]
      exact hcontent
    · have hone : p.k.acceptedBy (.send buffer) = [buffer] := by
        rw [acceptedBy, hsend]
        exact if_pos rfl
      have hcontent' := hcontent.accept hk halive.queue_eq hqueued
      refine ⟨log, segs.map Segment.frame, popped, ?_, hreceiver, ?_⟩
      · rw [Peer.call_ok hcrashed hstep]
        have hcount' : p.count + (p.k.sndNxt - p.k.sndNxt).toNat = log.length := by
          rw [sub_self, halive.count_eq]
          rfl
        refine ⟨fun f hf => ?_, ?_, ?_,
          fun _ => ⟨halive.conv_eq, halive.nxt, hcount', halive.buf, rfl⟩⟩
        · rcases mem_append.mp hf with hlog | hnew
          · exact hsender.short f (mem_append_left _ hlog)
          · obtain ⟨seg, hseg, rfl⟩ := mem_map.mp hnew
            refine hqueued.short (fun s hs => ?_) seg hseg
            apply hsender.short s.frame
            rw [← halive.queue_eq]
            exact mem_append_right _ (mem_map_of_mem hs)
        · rw [map_nil, append_nil]
          exact hsender.sent
        · dsimp only
          omega
      · rw [Peer.call_ok hcrashed hstep, hone]
        exact hcontent'

/-- Any call on the sender. -/
theorem Channel.sender (h : Channel byteCheck k p q) (hk : SameSettings k p.k)
    (hwindow : p.k.Window) (hcount : p.count < 2 ^ 31) (he : Running e) :
    Channel byteCheck k (p.call byteCheck e) q := by
  by_cases hcrashed : p.crashed = true
  · rw [Peer.call_crashed hcrashed]
    exact h
  rw [Bool.not_eq_true] at hcrashed
  by_cases hsend : ∃ buffer, e = .send buffer
  · obtain ⟨buffer, rfl⟩ := hsend
    exact h.send hk hcrashed hcount buffer
  have hne : ∀ buffer, e ≠ .send buffer := fun buffer heq => hsend ⟨buffer, heq⟩
  obtain ⟨log, queue, popped, hsender, hreceiver, hcontent⟩ := h
  have hout : Outcome _ _ (p.k.step byteCheck e) := step_transmits hwindow he hne
  have hall (n : Nat) : Content k p.accepted q.received ((log ++ queue.take n) ++ queue.drop n)
      popped := by
    rw [append_assoc, take_append_drop]
    exact hcontent
  have hreceiver' (n : Nat) : Receiver (log ++ queue.take n) popped q.k :=
    hreceiver.mono (prefix_append _ _)
  cases hstep : p.k.step byteCheck e with
  | error panic =>
    rw [hstep] at hout
    obtain ⟨n, hn, -, hsent⟩ := hout
    refine ⟨_, _, popped, hsender.panics hcrashed hcount hstep hn hsent, hreceiver' n, ?_⟩
    rw [Peer.call_error hcrashed hstep]
    exact hall n
  | ok r =>
    rw [hstep] at hout
    obtain ⟨n, hn, hle, hk', hsent⟩ := hout
    refine ⟨_, _, popped, hsender.transmits hcrashed hcount hstep hn hle hk' hsent,
      hreceiver' n, ?_⟩
    rw [Peer.call_ok hcrashed hstep, acceptedBy_of_ne hne, append_nil]
    exact hall n

/-- The push segments of a datagram of the sender are in the log. -/
theorem Sender.segments (h : Sender byteCheck conv log queue p) {d : Bytes} (hd : d ∈ p.sent)
    (hconv : k.conv = conv) :
    ∀ seg ∈ k.segments byteCheck d, seg.1.cmd = cmdPush →
      log[seg.1.sn.toNat]? = some (seg.1.frg, seg.2) := by
  have hreadable (seg : Segment) (hlogged : Logged conv log seg) : Readable conv seg := by
    have hmem : seg.frame ∈ log ++ queue := mem_append_left _ (mem_of_getElem? hlogged.frame_eq)
    exact ⟨hlogged.conv_eq, .inl hlogged.cmd_eq, h.short _ hmem⟩
  intro seg hseg hpush
  obtain ⟨s, hlogged, rfl⟩ := inFlight_segments hreadable (h.sent d hd) hconv seg hseg hpush
  exact hlogged.frame_eq

/-- What a call takes from the queue is what it returns. -/
theorem Content.call {accepted received : List Bytes} {all : List Frame}
    (h : Content k accepted received all popped)
    (hqueue : popped ++ k'.rcvQueue.map Segment.frame <+: all) (e : KcpEvent) :
    ∃ popped', popped' ++ (k'.leftBy e).map Segment.frame =
      popped ++ k'.rcvQueue.map Segment.frame ∧
      Content k accepted (received ++ k'.receivedBy e) all popped' := by
  have hidle (hleft : k'.leftBy e = k'.rcvQueue) (hnone : k'.receivedBy e = []) :
      ∃ popped', popped' ++ (k'.leftBy e).map Segment.frame =
        popped ++ k'.rcvQueue.map Segment.frame ∧
        Content k accepted (received ++ k'.receivedBy e) all popped' := by
    rw [hleft, hnone, append_nil]
    exact ⟨popped, rfl, h⟩
  cases e with
  | recv len =>
    rcases k'.recv_cases len with ⟨hfails, hneg, -⟩ | ⟨htakes, hcode, hmessage, -⟩
    · exact hidle (if_neg hfails) (if_neg (not_le.mpr hneg))
    · obtain ⟨seg, rest, hsegs, hsize⟩ := (peekSize_nonneg k').mp htakes.1
      obtain ⟨taken, htaken, hcontent⟩ := h.returned hqueue hsegs hsize
      have hleft : k'.leftBy (.recv len) = (popMessage k'.rcvQueue).2 := if_pos htakes
      have hone : k'.receivedBy (.recv len) = [(popMessage k'.rcvQueue).1] := by
        rw [receivedBy, hcode, hmessage]
        exact if_pos (Int.natCast_nonneg _)
      refine ⟨popped ++ taken.map Segment.frame, ?_, by rwa [hone]⟩
      rw [hleft, append_assoc, ← map_append, ← htaken]
  | _ => exact hidle rfl rfl

/-- Any call on the receiver; an input is a datagram of the sender. -/
theorem Channel.receiver (h : Channel byteCheck k p q) (hconv : q.k.conv = k.conv)
    (hcount : p.count < 2 ^ 31) (he : Running e)
    (hdata : ∀ d regular ackNoDelay clock, e = .input d regular ackNoDelay clock → d ∈ p.sent) :
    Channel byteCheck k p (q.call byteCheck e) := by
  by_cases hcrashed : q.crashed = true
  · rw [Peer.call_crashed hcrashed]
    exact h
  rw [Bool.not_eq_true] at hcrashed
  obtain ⟨log, queue, popped, hsender, hreceiver, hcontent⟩ := h
  cases hstep : q.k.step byteCheck e with
  | error panic =>
    rw [Peer.call_error hcrashed hstep]
    exact ⟨log, queue, popped, hsender, hreceiver, hcontent⟩
  | ok r =>
    have hlen : log.length < 2 ^ 32 := by
      have := hsender.length_lt
      omega
    have hkeeps : KeepsWindow e := by
      cases e with
      | wndSize _ _ => exact absurd he id
      | _ => trivial
    have hsegs : ∀ seg ∈ q.k.takenBy byteCheck e, seg.1.cmd = cmdPush →
        log[seg.1.sn.toNat]? = some (seg.1.frg, seg.2) := by
      cases e with
      | input d regular ackNoDelay clock =>
        exact hsender.segments (hdata d regular ackNoDelay clock rfl) hconv
      | _ => exact forall_mem_nil _
    obtain ⟨l, hreceives⟩ := step_receives hkeeps hstep
    obtain ⟨popped', hleft, hcontent'⟩ :=
      hcontent.call (hreceiver.queue.trans (prefix_append _ _)) e
    rw [Peer.call_ok hcrashed hstep]
    exact ⟨log, queue, popped', hsender, hreceiver.receives hlen hleft hsegs hreceives, hcontent'⟩

end

end KCP

/-! ## Runs -/

namespace Link

open KCP

variable {byteCheck : Option (Bytes → UInt32)} {k : Side → KCP} {l : Link} {conv : UInt64}

/-- Nothing has been sent. -/
theorem Configured.channel {k k' : KCP} (h : Configured byteCheck conv k)
    (h' : Configured byteCheck conv k') :
    Channel byteCheck k ⟨k, [], 0, [], [], false⟩ ⟨k', [], 0, [], [], false⟩ := by
  obtain ⟨_, _, _, _, _, _, _, _, _, _, _, _, rfl⟩ := h
  obtain ⟨_, _, _, _, _, _, _, _, _, _, _, _, rfl⟩ := h'
  refine ⟨[], [], [], ⟨forall_mem_nil _, forall_mem_nil _, (by decide : 0 < 0 + 2 ^ 16),
    fun _ => ?_⟩,
    ⟨rfl, prefix_rfl, forall_mem_nil _⟩,
    fun _ => ⟨rfl, forall_mem_nil _, rfl, prefix_rfl⟩, fun _ => ⟨rfl, rfl⟩⟩
  exact ⟨rfl, rfl, rfl, forall_mem_nil _, rfl⟩

/-- One step keeps both directions in order. -/
theorem channel_step (h : ∀ s, Channel byteCheck (k s) (l s) (l s.other)) (hl : Settled k l)
    (hconv : ∀ s, (k s).conv = conv) (hcount : ∀ s, (l s).count < 2 ^ 31) (e : LinkEvent)
    (s : Side) : Channel byteCheck (k s) (step byteCheck l e s) (step byteCheck l e s.other) := by
  rcases step_cases byteCheck l e with heq | ⟨s', call, hrunning, hdata, -, heq⟩
  · rw [heq]
    exact h s
  rw [heq]
  by_cases hs : s = s'
  · subst hs
    rw [Function.update_self, Function.update_of_ne s.other_ne]
    exact (h s).sender (hl.settings s) (hl.window s) (hcount s) hrunning
  · obtain rfl : s' = s.other := Side.eq_other hs
    rw [Function.update_of_ne hs, Function.update_self]
    rw [Side.other_other] at hdata
    refine (h s).receiver ?_ (hcount s) hrunning hdata
    rw [(hl.settings s.other).conv, hconv, hconv]

/-- Both directions are in order in every run with fewer than `2 ^ 31` segments each. -/
theorem run_channel (hk : ∀ s, Configured byteCheck conv (k s)) (es : List LinkEvent)
    (hcount : ∀ s, (run byteCheck (start k) es s).count < 2 ^ 31) (s : Side) :
    Channel byteCheck (k s) (run byteCheck (start k) es s)
      (run byteCheck (start k) es s.other) := by
  induction es using List.reverseRecOn generalizing s with
  | nil => exact (hk s).channel (hk s.other)
  | append_singleton es e ih =>
    rw [run_snoc] at hcount ⊢
    have hcount' : ∀ s, (run byteCheck (start k) es s).count < 2 ^ 31 :=
      fun s => (count_mono _ e s).trans_lt (hcount s)
    exact channel_step (ih hcount') (run_settled hk es) (fun s => (hk s).conv_eq) hcount' e s

/-! ## Delivery -/

/-- What one direction delivers: in message mode the messages are returned as they were accepted,
one by one; in stream mode the bytes are. -/
def Delivers (stream : Int32) (p q : Peer) : Prop :=
  (stream = 0 → q.received <+: p.accepted) ∧
    (stream ≠ 0 → q.received.flatten <+: p.accepted.flatten)

theorem delivers_of_channel {k : KCP} {p q : Peer} (h : Channel byteCheck k p q) :
    Delivers k.stream p q := by
  obtain ⟨log, queue, popped, -, hreceiver, hcontent⟩ := h
  refine ⟨fun hmode => (hcontent.1 hmode).in_order, fun hmode => ?_⟩
  have hstreams := hcontent.2 hmode
  rw [← hstreams.all_eq, ← hstreams.popped_eq]
  have hpopped : popped <+: log ++ queue :=
    (prefix_append _ _).trans (hreceiver.queue.trans (prefix_append _ _))
  obtain ⟨more, hmore⟩ := hpopped
  rw [← hmore, flatMap_append]
  exact prefix_append _ _

variable (byteCheck) in
/-- In every run of two peers with equal settings and fewer than `2 ^ 31` segments a direction, each
side receives what the other one has sent, in order and without a gap. -/
theorem delivery (conv : UInt64) (settings : List Setting) (es : List LinkEvent)
    (hcount : ∀ s, (run byteCheck (start fun _ => configure byteCheck conv settings) es s).count <
      2 ^ 31)
    (s : Side) :
    Delivers (configure byteCheck conv settings).stream
      (run byteCheck (start fun _ => configure byteCheck conv settings) es s)
      (run byteCheck (start fun _ => configure byteCheck conv settings) es s.other) :=
  delivers_of_channel (run_channel (fun _ => configure_configured conv settings) es hcount s)

/-- A message of two fragments, which arrive in the wrong order, the first one twice. -/
def reorderedFragments : List LinkEvent :=
  [.send .left [1, 2, 3], .flush .left false fun _ => 0, .deliver .right 1 true false fun _ => 0,
    .deliver .right 0 true false fun _ => 0, .deliver .right 0 true false fun _ => 0,
    .recv .right 8]

theorem delivery_reordered :
    (run none (start fun _ => configure none 7 [.setMtu 30, .noDelay 0 0 0 1]) reorderedFragments
      .right).received = [[1, 2, 3]] ∧
    Delivers (configure none 7 [.setMtu 30, .noDelay 0 0 0 1]).stream
      (run none (start fun _ => configure none 7 [.setMtu 30, .noDelay 0 0 0 1])
        reorderedFragments .left)
      (run none (start fun _ => configure none 7 [.setMtu 30, .noDelay 0 0 0 1])
        reorderedFragments .right) := by
  refine ⟨by decide +kernel, delivery none 7 _ _ (fun s => ?_) .left⟩
  cases s <;> decide +kernel

end Link

end Halo.Kcp
