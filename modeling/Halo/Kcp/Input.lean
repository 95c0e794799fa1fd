import Halo.Kcp.Flush

/-!
# What an input of KCP does

The loop of `Input` is a fold over the segments of the datagram (`inputLoop_eq`), and the datagrams
of a flush are read back as the segments they were made of (`received_flatMap`). `Heard` says what
one segment does to the sender's side, and `input_outcome` what a whole input does.
-/

namespace Halo.Kcp

open List

variable (byteCheck : Option (Bytes → UInt32))

/-- The header that stands before the data of a segment. -/
def Segment.header (seg : Segment) : Header :=
  ⟨seg.conv, seg.cmd, seg.frg, seg.wnd, seg.ts, seg.sn, seg.una, .ofNat seg.data.length,
    match byteCheck with
    | none => 0
    | some hash => if seg.cmd = cmdPush then hash seg.data else 0⟩

namespace KCP

/-- The segments that the loop of `Input` takes from a datagram, and its return value. -/
def received (conv : UInt64) : Nat → Bytes → List (Header × Bytes) × Int
  | 0, _ => ([], 0)
  | fuel + 1, data =>
    if data.length < overhead byteCheck then ([], 0)
    else
      let h := decodeHeader byteCheck data
      let body := data.drop (overhead byteCheck)
      match refused byteCheck conv h body with
      | some code => ([], code)
      | none =>
        let (rest, code) := received conv fuel (body.drop h.length.toNat)
        ((h, body.take h.length.toNat) :: rest, code)

/-- The loop of `Input` over the segments of a datagram. -/
def inputAll (regular : Bool) (a : InputAcc) (segs : List (Header × Bytes)) : InputAcc :=
  segs.foldl (fun a seg => inputSegment a regular seg.1 seg.2) a

/-- The segments of a datagram that a whole input handles. -/
def segments (k : KCP) (data : Bytes) : List (Header × Bytes) :=
  (received byteCheck k.conv data.length data).1

/-- The state after the loop of `Input`. -/
def afterLoop (k : KCP) (regular : Bool) (data : Bytes) : KCP :=
  (inputAll regular ⟨k, 0, false, false⟩ (k.segments byteCheck data)).k

/-- The first unacknowledged number is that of the first segment of the send buffer. -/
def UnaFirst (k : KCP) : Prop := k.sndUna = (k.sndBuf.head?.map (·.sn)).getD k.sndNxt

/-- What acknowledgements do to a segment of the send buffer: nothing, unless one is for its
number. -/
structure Answered (heads : List Header) (s s' : Segment) : Prop where
  conv : s'.conv = s.conv
  cmd : s'.cmd = s.cmd
  frg : s'.frg = s.frg
  sn : s'.sn = s.sn
  data : (s'.acked = s.acked ∧ s'.data = s.data) ∨
    (s'.acked = 1 ∧ s'.data = [] ∧ ∃ h ∈ heads, h.cmd = cmdAck ∧ h.sn = s.sn)

/-- What the segments with the headers do to the side that sends. -/
structure Heard (heads : List Header) (k k' : KCP) : Prop where
  settings : SameSettings k k'
  sndNxt : k'.sndNxt = k.sndNxt
  sndQueue : k'.sndQueue = k.sndQueue
  rmtWnd : k.rmtWnd.toNat < 2 ^ 16 → k'.rmtWnd.toNat < 2 ^ 16
  sndUna : k.UnaFirst → k'.UnaFirst
  sndBuf : ∃ m, (∀ s ∈ k.sndBuf.take m, ∃ h ∈ heads, 0 < itimediff h.una s.sn) ∧
    List.Forall₂ (Answered heads) (k.sndBuf.drop m) k'.sndBuf

/-- The round trip times and the congestion window may differ. -/
def Adjusted (k k' : KCP) : Prop := ∃ srtt rttvar rto cwnd incr, k' = { k with
  rxSrtt := srtt, rxRttvar := rttvar, rxRto := rto, cwnd := cwnd, incr := incr }

/-- The end of a call: nothing more is done, or a flush. -/
def Ends (k : KCP) (r : KCP × List Bytes) : Prop :=
  r = (k, []) ∨ ∃ ackOnly, k.Flushed ackOnly r.1 ∧
    ∀ d ∈ r.2, Datagram byteCheck (k.shape byteCheck (Carried k.conv (k.flushBuf ackOnly))) d

/-- A panic at the end of a call: a flush that is not safe. -/
def Panics (k : KCP) (p : Panic) : Prop :=
  ∃ ackOnly, Unsafe byteCheck (k.shape byteCheck (Carried k.conv (k.flushBuf ackOnly))) p

/-! ## Frames -/

section

variable {byteCheck} {k : KCP}

theorem moveAvailable_eq (fuel : Nat) (k : KCP) : ∃ heap queue nxt,
    moveAvailable fuel k = { k with rcvBuf := heap, rcvQueue := queue, rcvNxt := nxt } := by
  induction fuel generalizing k with
  | zero => exact ⟨_, _, _, rfl⟩
  | succ fuel ih =>
    rw [moveAvailable]
    split
    · exact ⟨_, _, _, rfl⟩
    · split
      · rename_i seg rest _ _
        obtain ⟨heap, queue, nxt, h⟩ := ih
          { k with rcvBuf := rest, rcvQueue := k.rcvQueue ++ [seg], rcvNxt := k.rcvNxt + 1 }
        exact ⟨heap, queue, nxt, h⟩
      · exact ⟨_, _, _, rfl⟩

theorem parseData_eq (k : KCP) (newseg : Segment) : ∃ heap queue nxt,
    (k.parseData newseg).1 = { k with rcvBuf := heap, rcvQueue := queue, rcvNxt := nxt } := by
  unfold parseData
  split
  · exact ⟨_, _, _, rfl⟩
  · dsimp only
    split
    · exact moveAvailable_eq _ k
    · obtain ⟨heap, queue, nxt, h⟩ := moveAvailable_eq
        (k.rcvBuf.push newseg).segments.length { k with rcvBuf := k.rcvBuf.push newseg }
      exact ⟨heap, queue, nxt, h⟩

theorem inputPush_eq (k : KCP) (h : Header) (data : Bytes) : ∃ acks heap queue nxt,
    k.inputPush h data = { k with
      acklist := acks, rcvBuf := heap, rcvQueue := queue, rcvNxt := nxt } := by
  unfold inputPush
  split
  · dsimp only
    split
    · obtain ⟨heap, queue, nxt, hdata⟩ :=
        parseData_eq { k with acklist := k.acklist ++ [⟨h.sn, h.ts⟩] } (pushSegment h data)
      exact ⟨_, heap, queue, nxt, hdata⟩
    · exact ⟨_, _, _, _, rfl⟩
  · exact ⟨_, _, _, _, rfl⟩

variable {α β : Type} {k₁ k₂ : KCP} {heads : List Header} {conv : UInt64}

/-- Two relations between the elements of lists, one after the other. -/
theorem forall₂_trans {γ : Type} {R : α → β → Prop} {S : β → γ → Prop} {T : α → γ → Prop}
    (hT : ∀ {a b c}, R a b → S b c → T a c) {as : List α} {bs : List β} {cs : List γ}
    (h : List.Forall₂ R as bs) (h' : List.Forall₂ S bs cs) : List.Forall₂ T as cs := by
  induction h generalizing cs with
  | nil =>
    cases h'
    exact .nil
  | cons hab _ ih =>
    obtain _ | ⟨hbc, hrest⟩ := h'
    exact .cons (hT hab hbc) (ih hrest)

theorem exists_of_forall₂_left {R : α → β → Prop} {as : List α} {bs : List β}
    (h : List.Forall₂ R as bs) {a : α} (ha : a ∈ as) : ∃ b ∈ bs, R a b := by
  induction h with
  | nil => cases ha
  | cons hab _ ih =>
    rcases mem_cons.mp ha with rfl | ha
    · exact ⟨_, mem_cons_self, hab⟩
    · obtain ⟨b, hb, hR⟩ := ih ha
      exact ⟨b, mem_cons_of_mem _ hb, hR⟩

theorem exists_of_forall₂_right {R : α → β → Prop} {as : List α} {bs : List β}
    (h : List.Forall₂ R as bs) {b : β} (hb : b ∈ bs) : ∃ a ∈ as, R a b :=
  exists_of_forall₂_left (R := flip R) (Forall₂.flip h) hb

/-! ## One segment -/

theorem SameSettings.refl (k : KCP) : SameSettings k k := ⟨rfl, rfl, rfl, rfl, rfl, rfl, rfl, rfl⟩

theorem SameSettings.trans (h₁ : SameSettings k k₁) (h₂ : SameSettings k₁ k₂) : SameSettings k k₂ :=
  ⟨h₂.conv.trans h₁.conv, h₂.mtu.trans h₁.mtu, h₂.mss.trans h₁.mss, h₂.reserved.trans h₁.reserved,
    h₂.stream.trans h₁.stream, h₂.sndWnd.trans h₁.sndWnd, h₂.rcvWnd.trans h₁.rcvWnd,
    h₂.buffer.trans h₁.buffer⟩

theorem Answered.refl (heads : List Header) (s : Segment) : Answered heads s s :=
  ⟨rfl, rfl, rfl, rfl, .inl ⟨rfl, rfl⟩⟩

theorem Answered.mono {heads' : List Header} {s s' : Segment} (h : Answered heads s s')
    (hsub : heads ⊆ heads') : Answered heads' s s' := by
  refine ⟨h.conv, h.cmd, h.frg, h.sn, h.data.imp id ?_⟩
  rintro ⟨hacked, hdata, head, hhead, hack⟩
  exact ⟨hacked, hdata, head, hsub hhead, hack⟩

/-- Freed data stays freed. -/
theorem Answered.trans {s s' s'' : Segment} (h : Answered heads s s')
    (h' : Answered heads s' s'') : Answered heads s s'' := by
  refine ⟨h'.conv.trans h.conv, h'.cmd.trans h.cmd, h'.frg.trans h.frg, h'.sn.trans h.sn, ?_⟩
  rcases h'.data with ⟨hacked', hdata'⟩ | ⟨hacked', hdata', head, hhead, hcmd, hsn⟩
  · rcases h.data with ⟨hacked, hdata⟩ | ⟨hacked, hdata, hack⟩
    · exact .inl ⟨hacked'.trans hacked, hdata'.trans hdata⟩
    · exact .inr ⟨hacked'.trans hacked, hdata'.trans hdata, hack⟩
  · exact .inr ⟨hacked', hdata', head, hhead, hcmd, hsn.trans h.sn⟩

theorem ackSegment_answered {h : Header} (hcmd : h.cmd = cmdAck) (segs : List Segment) :
    List.Forall₂ (Answered [h]) segs (ackSegment h.sn segs) := by
  induction segs with
  | nil => exact .nil
  | cons seg rest ih =>
    rw [ackSegment]
    split
    · rename_i heq
      refine .cons ⟨rfl, rfl, rfl, rfl, .inr ⟨rfl, rfl, h, mem_singleton_self h, hcmd, heq⟩⟩ ?_
      exact forall₂_same.mpr fun s _ => .refl _ s
    · split
      · exact forall₂_same.mpr fun s _ => .refl _ s
      · exact .cons (.refl _ seg) ih

theorem fastackSegments_answered (heads : List Header) (fastresend sn ts : UInt32)
    (segs : List Segment) :
    List.Forall₂ (Answered heads) segs (fastackSegments fastresend sn ts segs).1 := by
  induction segs with
  | nil => exact .nil
  | cons seg rest ih =>
    rw [fastackSegments]
    split
    · exact forall₂_same.mpr fun s _ => .refl _ s
    · dsimp only
      split
      · exact .cons ⟨rfl, rfl, rfl, rfl, .inl ⟨rfl, rfl⟩⟩ ih
      · exact .cons (.refl _ seg) ih

theorem head_sn_of_answered {segs segs' : List Segment}
    (h : List.Forall₂ (Answered heads) segs segs') :
    segs'.head?.map (·.sn) = segs.head?.map (·.sn) := by
  cases h with
  | nil => rfl
  | cons hseg _ => exact congrArg some hseg.sn

theorem shrinkBuf_eq (k : KCP) :
    k.shrinkBuf = { k with sndUna := (k.sndBuf.head?.map (·.sn)).getD k.sndNxt } := by
  unfold shrinkBuf
  cases hbuf : k.sndBuf with
  | nil => rfl
  | cons seg rest => rfl

/-- `Input` takes the cumulative acknowledgement of each segment. -/
theorem heard_una (k : KCP) (regular : Bool) (h : Header) :
    Heard [h] k
      (((if regular then { k with rmtWnd := h.wnd.toUInt32 } else k).parseUna
        h.una).1.shrinkBuf) := by
  have hrmt : h.wnd.toUInt32.toNat < 2 ^ 16 := h.wnd.toNat_lt
  have htake (s : Segment)
      (hs : s ∈ k.sndBuf.take (k.sndBuf.takeWhile fun seg => 0 < itimediff h.una seg.sn).length) :
      ∃ h' ∈ [h], 0 < itimediff h'.una s.sn := by
    rw [← prefix_iff_eq_take.mp (List.takeWhile_prefix _)] at hs
    exact ⟨h, mem_singleton_self h, by simpa using mem_takeWhile_imp hs⟩
  rw [shrinkBuf_eq]
  cases regular with
  | false =>
    exact ⟨⟨rfl, rfl, rfl, rfl, rfl, rfl, rfl, rfl⟩, rfl, rfl, id, fun _ => rfl, _, htake,
      forall₂_same.mpr fun s _ => .refl _ s⟩
  | true =>
    exact ⟨⟨rfl, rfl, rfl, rfl, rfl, rfl, rfl, rfl⟩, rfl, rfl, fun _ => hrmt, fun _ => rfl,
      _, htake, forall₂_same.mpr fun s _ => .refl _ s⟩

/-- What follows leaves the sender's side but for acknowledgements of single segments. -/
theorem Heard.then (h : Heard heads k k₁)
    (hsettings : SameSettings k₁ k₂) (hnxt : k₂.sndNxt = k₁.sndNxt)
    (hqueue : k₂.sndQueue = k₁.sndQueue) (hrmt : k₂.rmtWnd = k₁.rmtWnd)
    (huna : k₂.sndUna = k₁.sndUna) (hbuf : List.Forall₂ (Answered heads) k₁.sndBuf k₂.sndBuf) :
    Heard heads k k₂ := by
  obtain ⟨m, hremoved, hkept⟩ := h.sndBuf
  refine ⟨h.settings.trans hsettings, hnxt.trans h.sndNxt, hqueue.trans h.sndQueue, ?_, ?_, m,
    hremoved, ?_⟩
  · rw [hrmt]
    exact h.rmtWnd
  · intro hfirst
    rw [UnaFirst, huna, head_sn_of_answered hbuf, hnxt]
    exact h.sndUna hfirst
  · exact forall₂_trans (fun h h' => h.trans h') hkept hbuf

theorem parseAck_answered {h : Header} (hcmd : h.cmd = cmdAck) (k : KCP) : ∃ sndBuf,
    k.parseAck h.sn = { k with sndBuf := sndBuf } ∧
      List.Forall₂ (Answered [h]) k.sndBuf sndBuf := by
  unfold parseAck
  split
  · exact ⟨k.sndBuf, rfl, forall₂_same.mpr fun s _ => .refl _ s⟩
  · exact ⟨_, rfl, ackSegment_answered hcmd k.sndBuf⟩

theorem parseFastack_answered (heads : List Header) (k : KCP) (sn ts : UInt32) : ∃ sndBuf,
    (k.parseFastack sn ts).1 = { k with sndBuf := sndBuf } ∧
      List.Forall₂ (Answered heads) k.sndBuf sndBuf := by
  unfold parseFastack
  split
  · exact ⟨k.sndBuf, rfl, forall₂_same.mpr fun s _ => .refl _ s⟩
  · exact ⟨_, rfl, fastackSegments_answered heads _ sn ts k.sndBuf⟩

/-- What a segment does to the side that sends. -/
theorem inputSegment_heard (a : InputAcc) (regular : Bool) (h : Header) (data : Bytes) :
    Heard [h] a.k (inputSegment a regular h data).k := by
  have huna := heard_una a.k regular h
  unfold inputSegment
  dsimp only
  generalize ((if regular then { a.k with rmtWnd := h.wnd.toUInt32 } else a.k).parseUna
    h.una).1.shrinkBuf = k at huna ⊢
  split
  · rename_i hcmd
    obtain ⟨buf, hack, hbuf⟩ := parseAck_answered hcmd k
    dsimp only
    rw [hack]
    obtain ⟨buf', hfast, hbuf'⟩ :=
      parseFastack_answered [h] { k with sndBuf := buf } h.sn h.ts
    rw [hfast]
    exact huna.then ⟨rfl, rfl, rfl, rfl, rfl, rfl, rfl, rfl⟩ rfl rfl rfl rfl
      (forall₂_trans (fun h h' => h.trans h') hbuf hbuf')
  · have hself (k : KCP) : List.Forall₂ (Answered [h]) k.sndBuf k.sndBuf :=
      forall₂_same.mpr fun s _ => .refl _ s
    split
    · dsimp only
      obtain ⟨acks, heap, queue, nxt, hpush⟩ := inputPush_eq k h data
      rw [hpush]
      exact huna.then ⟨rfl, rfl, rfl, rfl, rfl, rfl, rfl, rfl⟩ rfl rfl rfl rfl (hself _)
    · split
      · exact huna.then ⟨rfl, rfl, rfl, rfl, rfl, rfl, rfl, rfl⟩ rfl rfl rfl rfl (hself _)
      · exact huna

/-! ## The loop -/

theorem Heard.refl (k : KCP) : Heard [] k k :=
  ⟨.refl k, rfl, rfl, id, id, 0, by simp, by simpa using forall₂_same.mpr fun s _ => .refl _ s⟩

theorem Heard.trans {heads' : List Header} (h : Heard heads k k₁)
    (h' : Heard heads' k₁ k₂) : Heard (heads ++ heads') k k₂ := by
  obtain ⟨m, hremoved, hkept⟩ := h.sndBuf
  obtain ⟨m', hremoved', hkept'⟩ := h'.sndBuf
  refine ⟨h.settings.trans h'.settings, h'.sndNxt.trans h.sndNxt, h'.sndQueue.trans h.sndQueue,
    h'.rmtWnd ∘ h.rmtWnd, h'.sndUna ∘ h.sndUna, m + m', fun s hs => ?_, ?_⟩
  · rw [take_add] at hs
    rcases mem_append.mp hs with hs | hs
    · obtain ⟨head, hhead, hlt⟩ := hremoved s hs
      exact ⟨head, mem_append_left _ hhead, hlt⟩
    · -- a segment removed later still has its number
      obtain ⟨s₁, hs₁, hans⟩ := exists_of_forall₂_left (forall₂_take m' hkept) hs
      obtain ⟨head, hhead, hlt⟩ := hremoved' s₁ hs₁
      exact ⟨head, mem_append_right _ hhead, hans.sn ▸ hlt⟩
  · rw [← drop_drop]
    refine forall₂_trans (fun {a b c} (hab : Answered heads a b) (hbc : Answered heads' b c) =>
      (hab.mono (subset_append_left _ _)).trans (hbc.mono (subset_append_right _ _)))
      (forall₂_drop m' hkept) hkept'

theorem inputAll_heard (regular : Bool) (segs : List (Header × Bytes)) (a : InputAcc) :
    Heard (segs.map (·.1)) a.k (inputAll regular a segs).k := by
  induction segs generalizing a with
  | nil => exact .refl a.k
  | cons seg rest ih =>
    exact (inputSegment_heard a regular seg.1 seg.2).trans (ih (inputSegment a regular seg.1 seg.2))

/-- The loop of `Input` handles the segments one after the other. -/
theorem inputLoop_eq (regular : Bool) (fuel : Nat) (a : InputAcc) (data : Bytes) :
    inputLoop byteCheck regular fuel a data =
      (inputAll regular a (received byteCheck a.k.conv fuel data).1,
        (received byteCheck a.k.conv fuel data).2) := by
  induction fuel generalizing a data with
  | zero => rfl
  | succ fuel ih =>
    rw [inputLoop, received]
    split
    · rfl
    · dsimp only
      cases hrefused : refused byteCheck a.k.conv (decodeHeader byteCheck data)
          (data.drop (overhead byteCheck)) with
      | some code => rfl
      | none =>
        dsimp only
        have hconv := (inputSegment_heard a regular (decodeHeader byteCheck data)
          ((data.drop (overhead byteCheck)).take
            (decodeHeader byteCheck data).length.toNat)).settings.conv
        rw [ih, hconv]
        rfl

theorem overhead_pos : 0 < overhead byteCheck := by
  unfold overhead ikcpOverhead
  omega

/-- A round consumes a header: as many rounds as there are bytes are enough. -/
theorem received_fuel (conv : UInt64) {m n : Nat} {data : Bytes} (h : data.length ≤ m)
    (h' : data.length ≤ n) : received byteCheck conv m data = received byteCheck conv n data := by
  have hover : 0 < overhead byteCheck := overhead_pos
  induction m generalizing n data with
  | zero =>
    cases n with
    | zero => rfl
    | succ n =>
      rw [received, received, if_pos (by omega)]
  | succ m ih =>
    cases n with
    | zero => rw [received, received, if_pos (by omega)]
    | succ n =>
      rw [received, received]
      split
      · rfl
      · rename_i hlong
        dsimp only
        cases refused byteCheck conv (decodeHeader byteCheck data)
          (data.drop (overhead byteCheck)) with
        | some code => rfl
        | none =>
          dsimp only
          rw [ih (n := n) (by simp only [length_drop]; omega)
            (by simp only [length_drop]; omega)]

/-! ## Reading back what was written -/

/-- A segment that an instance with the number `conv` takes. -/
structure Readable (conv : UInt64) (seg : Segment) : Prop where
  conv_eq : seg.conv = conv
  cmd_mem : seg.cmd = cmdPush ∨ seg.cmd = cmdAck ∨ seg.cmd = cmdWask ∨ seg.cmd = cmdWins
  length_lt : seg.data.length < 2 ^ 32

theorem not_refused {seg : Segment} (h : Readable conv seg) (rest : Bytes) :
    refused byteCheck conv (seg.header byteCheck) (seg.data ++ rest) = none := by
  have hlen : (seg.header byteCheck).length.toNat = seg.data.length :=
    UInt32.toNat_ofNat_of_lt' h.length_lt
  have hcmd : (seg.header byteCheck).cmd = seg.cmd := rfl
  unfold refused
  rw [if_neg (by rw [not_not]; exact h.conv_eq), hlen, hcmd,
    if_neg (by rw [length_append]; omega), if_neg]
  · cases byteCheck with
    | none => rfl
    | some hash =>
      dsimp only
      rw [if_neg]
      rintro ⟨hpush, hne⟩
      apply hne
      simp [Segment.header, hpush]
  · rintro ⟨hpush, hack, hwask, hwins⟩
    rcases h.cmd_mem with h | h | h | h
    · exact hpush h
    · exact hack h
    · exact hwask h
    · exact hwins h

theorem received_wire {seg : Segment} (h : Readable conv seg) (fuel : Nat) (rest : Bytes) :
    received byteCheck conv (fuel + 1) (seg.wire byteCheck ++ rest) =
      ((seg.header byteCheck, seg.data) :: (received byteCheck conv fuel rest).1,
        (received byteCheck conv fuel rest).2) := by
  have hsplit : seg.wire byteCheck ++ rest = seg.encode byteCheck ++ (seg.data ++ rest) := by
    rw [Segment.wire, append_assoc]
  have hhead : decodeHeader byteCheck (seg.encode byteCheck ++ (seg.data ++ rest)) =
      seg.header byteCheck := decodeHeader_encode byteCheck seg _
  have hbody : (seg.encode byteCheck ++ (seg.data ++ rest)).drop (overhead byteCheck) =
      seg.data ++ rest := drop_left' (length_encode byteCheck seg)
  have hlen : (seg.header byteCheck).length.toNat = seg.data.length :=
    UInt32.toNat_ofNat_of_lt' h.length_lt
  rw [received, hsplit, if_neg (by simp), hhead, hbody]
  dsimp only
  rw [not_refused h rest]
  dsimp only
  rw [hlen, take_left, drop_left]

/-- The segments of a datagram are read back, and nothing is left. -/
theorem received_flatMap {segs : List Segment} (h : ∀ seg ∈ segs, Readable conv seg)
    {fuel : Nat} (hfuel : (segs.flatMap (Segment.wire byteCheck)).length ≤ fuel) :
    received byteCheck conv fuel (segs.flatMap (Segment.wire byteCheck)) =
      (segs.map fun seg => (seg.header byteCheck, seg.data), 0) := by
  induction segs generalizing fuel with
  | nil =>
    rw [received_fuel (n := 0) conv hfuel (Nat.zero_le _)]
    rfl
  | cons seg rest ih =>
    rw [flatMap_cons, length_append, length_wire] at hfuel
    have hover : 0 < overhead byteCheck := overhead_pos
    obtain ⟨fuel, rfl⟩ : ∃ n, fuel = n + 1 := ⟨fuel - 1, by omega⟩
    rw [flatMap_cons, received_wire (h seg mem_cons_self),
      ih (fun s hs => h s (mem_cons_of_mem _ hs)) (by omega)]
    rfl

/-! ## The end of an input -/

theorem Sound.mss_ne_zero (h : k.Sound byteCheck) : k.mss ≠ 0 := by
  intro hzero
  have hmss := h.mss_eq
  have hroom := h.room
  rw [hzero, UInt32.toNat_zero] at hmss
  omega

theorem Adjusted.refl (k : KCP) : Adjusted k k := ⟨_, _, _, _, _, rfl⟩

theorem Adjusted.trans (h : Adjusted k k₁) (h' : Adjusted k₁ k₂) : Adjusted k k₂ := by
  obtain ⟨_, _, _, _, _, rfl⟩ := h
  obtain ⟨_, _, _, _, _, rfl⟩ := h'
  exact ⟨_, _, _, _, _, rfl⟩

theorem updateAck_adjusted (k : KCP) (rtt : Int32) : Adjusted k (k.updateAck rtt) := by
  unfold updateAck
  dsimp only
  split <;> exact ⟨_, _, _, _, _, rfl⟩

theorem avoidCongestion_outcome (k : KCP) :
    Outcome (Adjusted k) (fun p => k.mss = 0 ∧ p.sent = []) k.avoidCongestion := by
  have hle : k.mss ≤ if k.incr < k.mss then k.mss else k.incr := by
    split
    · exact UInt32.le_refl _
    · rename_i hnot
      exact UInt32.not_lt.mp hnot
  unfold avoidCongestion
  generalize (if k.incr < k.mss then k.mss else k.incr) = incr at hle
  dsimp only
  split
  · rename_i hzero
    rw [hzero] at hle
    exact ⟨UInt32.le_zero_iff.mp hle, rfl⟩
  · split <;> exact ⟨_, _, _, _, _, rfl⟩

/-- The congestion window is adjusted, or the maximum segment size is zero. -/
theorem growCwnd_outcome (k : KCP) (oldUna : UInt32) :
    Outcome (Adjusted k) (fun p => k.mss = 0 ∧ p.sent = []) (k.growCwnd oldUna) := by
  have hraise : Outcome (Adjusted k) (fun p => k.mss = 0 ∧ p.sent = []) k.raiseCwnd := by
    unfold raiseCwnd
    split
    · exact ⟨_, _, _, _, _, rfl⟩
    · exact k.avoidCongestion_outcome
  unfold growCwnd
  split
  · refine hraise.bind fun k₁ h₁ => ?_
    split
    · exact h₁.trans ⟨_, _, _, _, _, rfl⟩
    · exact h₁
  · exact .refl k

theorem updateRtt_adjusted (a : InputAcc) (regular : Bool) (current : UInt32) :
    Adjusted a.k (a.updateRtt regular current) := by
  unfold InputAcc.updateRtt
  split
  · exact updateAck_adjusted _ _
  · exact .refl _

theorem flushAfterInput_outcome (k : KCP) (flushSegments ackNoDelay : Bool) (clock : Nat → UInt32) :
    Outcome (k.Ends byteCheck) (k.Panics byteCheck)
      (k.flushAfterInput byteCheck flushSegments ackNoDelay clock) := by
  have hflush (ackOnly : Bool) : Outcome (k.Ends byteCheck) (k.Panics byteCheck)
      ((k.flush byteCheck ackOnly clock).map fun r => (r.1, r.2.1)) :=
    ((flush_outcome k ackOnly clock).map fun r hr => .inr ⟨ackOnly, hr⟩).mono (fun _ => id)
      fun p hp => ⟨ackOnly, hp.toUnsafe⟩
  unfold flushAfterInput
  split
  · exact hflush false
  · split
    · exact hflush true
    · exact .inl rfl

/-- What an input does: the loop, an adjustment, and perhaps a flush. -/
theorem input_outcome (k : KCP) (data : Bytes) (regular ackNoDelay : Bool) (clock : Nat → UInt32) :
    Outcome
      (fun r => r.1 = (if data.length < overhead byteCheck then -1
          else (received byteCheck k.conv data.length data).2) ∧
        ∃ k₁, Adjusted (k.afterLoop byteCheck regular data) k₁ ∧ k₁.Ends byteCheck r.2)
      (fun p => ∃ k₁, Adjusted (k.afterLoop byteCheck regular data) k₁ ∧ k₁.Panics byteCheck p)
      (k.input byteCheck data regular ackNoDelay clock) := by
  unfold input
  split
  · rename_i hshort
    refine ⟨rfl, k, ?_, .inl rfl⟩
    have hnone : received byteCheck k.conv data.length data = ([], 0) := by
      rw [received_fuel (n := data.length + 1) k.conv le_rfl (Nat.le_succ _), received,
        if_pos hshort]
    rw [afterLoop, segments, hnone]
    exact .refl k
  rw [inputLoop_eq]
  dsimp only
  split
  · exact ⟨rfl, _, .refl _, .inl rfl⟩
  rename_i hcode
  rw [not_not] at hcode
  have hrtt :=
    updateRtt_adjusted (inputAll regular ⟨k, 0, false, false⟩ (k.segments byteCheck data)) regular
    (clock 0)
  have hgrow := (growCwnd_outcome _ k.sndUna).mono (fun k₁ h₁ => hrtt.trans h₁) fun p hp =>
    (⟨_, hrtt, true, fun hs => hs.mss_ne_zero hp.1, by simp [hp.2]⟩ :
      ∃ k₁, Adjusted (k.afterLoop byteCheck regular data) k₁ ∧ k₁.Panics byteCheck p)
  refine hgrow.bind fun k₁ h₁ => ?_
  exact (((flushAfterInput_outcome k₁ _ _ _).mono (fun _ => id) fun p hp => ⟨k₁, h₁, hp⟩).bind
    fun r hr =>
    ⟨hcode.symm, k₁, h₁, hr⟩)

/-! ## Calls that return -/

theorem step_input {data : Bytes} {regular ackNoDelay : Bool} {clock : Nat → UInt32}
    {r : KCP × List Bytes} (h : k.step byteCheck (.input data regular ackNoDelay clock) = .ok r) :
    ∃ k₁, Adjusted (k.afterLoop byteCheck regular data) k₁ ∧ k₁.Ends byteCheck r := by
  have hout : Outcome _ _ (k.input byteCheck data regular ackNoDelay clock) :=
    input_outcome k data regular ackNoDelay clock
  rw [step] at h
  cases hr : k.input byteCheck data regular ackNoDelay clock with
  | error p =>
    rw [hr] at h
    cases h
  | ok r' =>
    rw [hr] at h hout
    cases h
    exact hout.2

theorem step_flush {ackOnly : Bool} {clock : Nat → UInt32} {r : KCP × List Bytes}
    (h : k.step byteCheck (.flush ackOnly clock) = .ok r) : k.Flushed ackOnly r.1 ∧
      ∀ d ∈ r.2, Datagram byteCheck
        (k.shape byteCheck (Carried k.conv (k.flushBuf ackOnly))) d := by
  have hout : Outcome _ _ (k.flush byteCheck ackOnly clock) := flush_outcome k ackOnly clock
  rw [step] at h
  cases hr : k.flush byteCheck ackOnly clock with
  | error p =>
    rw [hr] at h
    cases h
  | ok r' =>
    rw [hr] at h hout
    cases h
    exact hout

end

end KCP

end Halo.Kcp
