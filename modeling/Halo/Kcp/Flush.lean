import Halo.Kcp.Kcp

/-!
# What a flush of KCP sends

Every datagram that a flush passes to the output consists of the reserved bytes and whole segments:
control segments, or segments of the send buffer, all with one window. This holds also for the
datagrams of a flush that panics. A flush panics only when the settings disagree or a segment is
longer than the maximum segment size (`Sound` fails), and then with an index out of range; else
every datagram has a segment in it and is no longer than the mtu.

* `Outcome`: a statement about a computation that may panic, with one property of its results and
  one of its panics.
* `Writes k P ackOnly`: the segments that a flush may write have the property `P`.
  `flush_outcome_of`: the datagrams of a flush are made of such segments, and what the flush changes
  (`Flushed`).
* `flush_outcome`: the segments are `Carried`.
-/

namespace Halo.Kcp

open List

/-- The results have the one property, the panics the other. -/
def Outcome {α : Type} (good : α → Prop) (bad : Panic → Prop) : Except Panic α → Prop
  | .ok a => good a
  | .error p => bad p

section

variable {α β : Type} {good : α → Prop} {good' : β → Prop} {bad : Panic → Prop}

theorem Outcome.bind {x : Except Panic α} {f : α → Except Panic β} (h : Outcome good bad x)
    (hf : ∀ a, good a → Outcome good' bad (f a)) : Outcome good' bad (x >>= f) := by
  cases x with
  | error p => exact h
  | ok a => exact hf a h

theorem Outcome.map {x : Except Panic α} {f : α → β} (h : Outcome good bad x)
    (hf : ∀ a, good a → good' (f a)) : Outcome good' bad (x.map f) := by
  cases x with
  | error p => exact h
  | ok a => exact hf a h

theorem Outcome.mono {bad' : Panic → Prop} {good₂ : α → Prop} {x : Except Panic α}
    (h : Outcome good bad x) (hgood : ∀ a, good a → good₂ a) (hbad : ∀ p, bad p → bad' p) :
    Outcome good₂ bad' x := by
  cases x with
  | error p => exact hbad p h
  | ok a => exact hgood a h

end

variable (byteCheck : Option (Bytes → UInt32))

/-! ## Datagrams -/

/-- The bytes of whole segments, each with the property `P`. -/
def Whole (P : Segment → Prop) (bytes : Bytes) : Prop :=
  ∃ segs : List Segment, bytes = segs.flatMap (Segment.wire byteCheck) ∧ ∀ seg ∈ segs, P seg

/-- What the datagrams of a flush are held to: a property of their segments, the length of the
buffer, the number of reserved bytes, and whether the flush is safe. -/
structure Shape where
  P : Segment → Prop
  cap : Nat
  reserved : Nat
  safe : Prop

/-- A datagram: the reserved bytes and whole segments; at least one segment if the flush is safe. -/
structure Datagram (F : Shape) (d : Bytes) : Prop where
  le_cap : d.length ≤ F.cap
  reserved_le : F.reserved ≤ d.length
  nonempty : F.safe → F.reserved < d.length
  whole : Whole byteCheck F.P (d.drop F.reserved)

/-- A panic of a flush: it is not safe, and its datagrams are in order. -/
structure Unsafe (F : Shape) (p : Panic) : Prop where
  not_safe : ¬ F.safe
  sent : ∀ d ∈ p.sent, Datagram byteCheck F d

/-- A write beyond the buffer of a flush. -/
structure OutOfRange (F : Shape) (p : Panic) : Prop extends Unsafe byteCheck F p where
  fault : p.fault = .indexOutOfRange

/-- The buffer is filled with whole segments up to the index of `ptr`, and the datagrams passed to
the output are in order. -/
structure Writer.Ok (F : Shape) (w : Writer) : Prop where
  length_eq : w.buffer.length = F.cap
  reserved_le : F.reserved ≤ w.size
  size_le : w.size ≤ F.cap
  whole : Whole byteCheck F.P ((w.buffer.take w.size).drop F.reserved)
  sent : ∀ d ∈ w.sent, Datagram byteCheck F d

/-- The settings that a flush looks at are those of the shape. -/
structure Shape.Of (F : Shape) (k : KCP) : Prop where
  reserved_eq : k.reserved = F.reserved
  mtu_eq : F.safe → k.mtu.toNat = F.cap
  room : F.safe → F.reserved + overhead byteCheck ≤ F.cap

section

variable {byteCheck} {P : Segment → Prop} {F : Shape}

theorem whole_nil : Whole byteCheck P [] := ⟨[], rfl, by simp⟩

theorem Whole.append {p q : Bytes} (hp : Whole byteCheck P p) (hq : Whole byteCheck P q) :
    Whole byteCheck P (p ++ q) := by
  obtain ⟨ps, rfl, hps⟩ := hp
  obtain ⟨qs, rfl, hqs⟩ := hq
  refine ⟨ps ++ qs, flatMap_append.symm, fun seg hseg => ?_⟩
  rcases mem_append.mp hseg with h | h
  · exact hps seg h
  · exact hqs seg h

theorem Whole.mono {Q : Segment → Prop} {bytes : Bytes} (h : Whole byteCheck P bytes)
    (hPQ : ∀ seg, P seg → Q seg) : Whole byteCheck Q bytes := by
  obtain ⟨segs, heq, hsegs⟩ := h
  exact ⟨segs, heq, fun seg hseg => hPQ seg (hsegs seg hseg)⟩

theorem whole_wire {seg : Segment} (h : P seg) : Whole byteCheck P (seg.wire byteCheck) :=
  ⟨[seg], by simp, by simpa using h⟩

namespace Writer

variable {k : KCP} {w : Writer}

/-- What the buffer is filled with is a datagram. -/
theorem Ok.datagram (h : w.Ok byteCheck F) (hfull : F.safe → F.reserved < w.size) :
    Datagram byteCheck F (w.buffer.take w.size) := by
  have hlen : (w.buffer.take w.size).length = w.size := by
    rw [length_take, h.length_eq, Nat.min_eq_left h.size_le]
  refine ⟨hlen.trans_le h.size_le, h.reserved_le.trans_eq hlen.symm, fun hs => ?_, h.whole⟩
  rw [hlen]
  exact hfull hs

/-- The output gets a datagram. -/
theorem Ok.sent_append (h : w.Ok byteCheck F) (hfull : F.safe → F.reserved < w.size) :
    ∀ d ∈ w.sent ++ [w.buffer.take w.size], Datagram byteCheck F d := by
  intro d hd
  rcases mem_append.mp hd with hold | hnew
  · exact h.sent d hold
  · rw [mem_singleton.mp hnew]
    exact h.datagram hfull

theorem Ok.flushBuffer (h : w.Ok byteCheck F) (hk : F.Of byteCheck k) :
    (w.flushBuffer k).Ok byteCheck F := by
  unfold Writer.flushBuffer
  split
  · rename_i hlt
    rw [hk.reserved_eq] at hlt
    exact ⟨h.length_eq, h.reserved_le, h.size_le, h.whole, h.sent_append fun _ => hlt⟩
  · exact h

theorem start_outcome (hk : F.Of byteCheck k) (hlen : k.buffer.length = F.cap) :
    Outcome (Ok byteCheck F) (OutOfRange byteCheck F) (start k) := by
  have hreserved := hk.reserved_eq
  unfold start
  split
  · rename_i hlt
    refine ⟨⟨fun hs => ?_, by simp⟩, rfl⟩
    have := hk.room hs
    omega
  · rename_i hle
    refine ⟨hlen, hreserved.ge, by dsimp only; omega, ?_, by simp⟩
    rw [drop_eq_nil_of_le (by simp [hreserved])]
    exact whole_nil

theorem Ok.makeSpace (h : w.Ok byteCheck F) (hk : F.Of byteCheck k) {space : Nat}
    (hspace : F.safe → F.reserved + space ≤ F.cap) : (w.makeSpace k space).Ok byteCheck F := by
  unfold Writer.makeSpace
  split
  · rename_i hlt
    rw [hk.reserved_eq]
    have hsize := h.reserved_le
    have hcap := h.size_le
    refine ⟨h.length_eq, le_rfl, hsize.trans hcap, ?_, h.sent_append fun hs => ?_⟩
    · rw [drop_eq_nil_of_le (by simp)]
      exact whole_nil
    · -- a segment that fits is not refused by an empty buffer
      have := hspace hs
      have := hk.mtu_eq hs
      omega
  · exact h

/-- After `makeSpace` there is room. -/
theorem makeSpace_room (hk : F.Of byteCheck k) (w : Writer) {space : Nat} (hs : F.safe)
    (hspace : F.reserved + space ≤ F.cap) : (w.makeSpace k space).size + space ≤ F.cap := by
  unfold makeSpace
  split
  · rw [hk.reserved_eq]
    exact hspace
  · have := hk.mtu_eq hs
    omega

/-- A write of whole segments. -/
theorem Ok.put (h : w.Ok byteCheck F) {bytes : Bytes} (hw : Whole byteCheck F.P bytes)
    (hfit : F.safe → w.size + bytes.length ≤ F.cap) :
    Outcome (Ok byteCheck F) (OutOfRange byteCheck F) (w.put bytes) := by
  have hlen := h.length_eq
  have hsize := h.size_le
  have htake : (w.buffer.take w.size).length = w.size := by
    rw [length_take, hlen, Nat.min_eq_left hsize]
  unfold Writer.put
  split
  · rename_i hlt
    exact ⟨⟨fun hs => by have := hfit hs; omega, h.sent⟩, rfl⟩
  · refine ⟨?_, h.reserved_le.trans (Nat.le_add_right _ _), ?_, ?_, h.sent⟩
    · simp only [length_append, length_drop, htake]
      omega
    · dsimp only
      omega
    · dsimp only
      have hfilled : (w.buffer.take w.size ++ bytes ++ w.buffer.drop (w.size + bytes.length)).take
          (w.size + bytes.length) = w.buffer.take w.size ++ bytes := by
        apply take_left'
        simp [htake]
      rw [hfilled, drop_append_of_le_length (htake.symm ▸ h.reserved_le)]
      exact h.whole.append hw

/-- Two writes are one, up to the place of a panic. -/
theorem put_append {p q : Bytes} (hsize : w.size ≤ w.buffer.length) :
    (w.put p >>= fun w => w.put q) = w.put (p ++ q) := by
  have htake : (w.buffer.take w.size).length = w.size := by
    rw [length_take, Nat.min_eq_left hsize]
  by_cases hp : w.buffer.length < w.size + p.length
  · have hpq : w.buffer.length < w.size + (p ++ q).length := by
      rw [length_append]
      omega
    rw [put, put, if_pos hp, if_pos hpq]
    rfl
  have hfirst : w.put p = .ok ⟨w.buffer.take w.size ++ p ++ w.buffer.drop (w.size + p.length),
      w.size + p.length, w.sent⟩ := if_neg hp
  have hlen : (w.buffer.take w.size ++ p ++ w.buffer.drop (w.size + p.length)).length =
      w.buffer.length := by
    simp only [length_append, length_drop, htake]
    omega
  have hfilled : (w.buffer.take w.size ++ p ++ w.buffer.drop (w.size + p.length)).take
      (w.size + p.length) = w.buffer.take w.size ++ p := by
    apply take_left'
    simp [htake]
  have hrest : (w.buffer.take w.size ++ p ++ w.buffer.drop (w.size + p.length)).drop
      (w.size + p.length + q.length) = w.buffer.drop (w.size + p.length + q.length) := by
    rw [← drop_drop, drop_left' (by simp [htake]), drop_drop]
  rw [hfirst]
  show Writer.put q _ = _
  rw [Writer.put, Writer.put, hlen, length_append, ← Nat.add_assoc]
  dsimp only
  rw [hfilled, hrest]
  simp only [append_assoc]

/-- A segment is written whole. -/
theorem Ok.write (h : w.Ok byteCheck F) (seg : Segment) (hP : F.P seg)
    (hfit : F.safe → w.size + (overhead byteCheck + seg.data.length) ≤ F.cap) :
    Outcome (Ok byteCheck F) (OutOfRange byteCheck F)
      (w.encode byteCheck seg >>= fun w => w.put seg.data) := by
  have hput : (w.encode byteCheck seg >>= fun w => w.put seg.data) = w.put (seg.wire byteCheck) :=
    put_append (by rw [h.length_eq]; exact h.size_le)
  rw [hput]
  exact h.put (whole_wire hP) (by rwa [length_wire])

/-- A segment without data is written whole. -/
theorem Ok.encode (h : w.Ok byteCheck F) (seg : Segment) (hP : F.P seg) (hdata : seg.data = [])
    (hfit : F.safe → w.size + overhead byteCheck ≤ F.cap) :
    Outcome (Ok byteCheck F) (OutOfRange byteCheck F) (w.encode byteCheck seg) := by
  have hwire : seg.encode byteCheck = seg.wire byteCheck := by
    rw [Segment.wire, hdata, append_nil]
  rw [Writer.encode, hwire]
  refine h.put (whole_wire hP) ?_
  rw [length_wire, hdata]
  exact hfit

end Writer

end

/-! ## Segments and settings -/

/-- The parts of a segment that a transmission does not change. -/
structure Segment.Same (a b : Segment) : Prop where
  conv : b.conv = a.conv
  cmd : b.cmd = a.cmd
  frg : b.frg = a.frg
  sn : b.sn = a.sn
  acked : b.acked = a.acked
  data : b.data = a.data

theorem Segment.Same.refl (a : Segment) : a.Same a := ⟨rfl, rfl, rfl, rfl, rfl, rfl⟩

/-- A segment of a flush: one without data, or one of the send buffer that is not acknowledged. -/
def Carried (conv : UInt64) (sndBuf : List Segment) (seg : Segment) : Prop :=
  (seg.conv = conv ∧ (seg.cmd = cmdAck ∨ seg.cmd = cmdWask ∨ seg.cmd = cmdWins) ∧ seg.data = []) ∨
    ∃ s ∈ sndBuf, s.acked ≠ 1 ∧ s.Same seg

/-- The segments as they enter the send buffer, with the numbers from `sn` on. -/
def numbered (conv : UInt64) : UInt32 → List Segment → List Segment
  | _, [] => []
  | sn, seg :: rest =>
    { seg with conv := conv, cmd := cmdPush, sn := sn } :: numbered conv (sn + 1) rest

/-- How many segments of the queue get a number, from `sn` on, before the limit. -/
def sendCount (limit : UInt32) : UInt32 → List Segment → Nat
  | _, [] => 0
  | sn, _ :: rest => if 0 ≤ itimediff sn limit then 0 else sendCount limit (sn + 1) rest + 1

namespace KCP

/-- How many segments a flush moves to the send buffer. -/
def newCount (k : KCP) (ackOnly : Bool) : Nat :=
  if ackOnly then 0 else sendCount (k.sndUna + k.sendWindow) k.sndNxt k.sndQueue

/-- The send buffer when a flush transmits. -/
def flushBuf (k : KCP) (ackOnly : Bool) : List Segment :=
  k.sndBuf ++ numbered k.conv k.sndNxt (k.sndQueue.take (k.newCount ackOnly))

/-- The settings agree, and every segment fits. -/
structure Sound (k : KCP) : Prop where
  room : overhead byteCheck + k.reserved < k.mtu.toNat
  mss_eq : k.mss.toNat = k.mtu.toNat - overhead byteCheck - k.reserved
  buffer_eq : k.buffer.length = k.mtu.toNat
  queue_fits : ∀ seg ∈ k.sndQueue, seg.data.length ≤ k.mss.toNat
  buf_fits : ∀ seg ∈ k.sndBuf, seg.data.length ≤ k.mss.toNat

/-- The settings are the same. -/
structure SameSettings (k k' : KCP) : Prop where
  conv : k'.conv = k.conv
  mtu : k'.mtu = k.mtu
  mss : k'.mss = k.mss
  reserved : k'.reserved = k.reserved
  stream : k'.stream = k.stream
  sndWnd : k'.sndWnd = k.sndWnd
  rcvWnd : k'.rcvWnd = k.rcvWnd
  buffer : k'.buffer.length = k.buffer.length

/-- What a flush changes: segments go from the queue to the send buffer and get their numbers. -/
structure Flushed (k : KCP) (ackOnly : Bool) (k' : KCP) : Prop where
  settings : SameSettings k k'
  rcvNxt : k'.rcvNxt = k.rcvNxt
  rcvQueue : k'.rcvQueue = k.rcvQueue
  rcvBuf : k'.rcvBuf = k.rcvBuf
  acklist : k'.acklist = []
  rmtWnd : k'.rmtWnd = k.rmtWnd
  sndUna : k'.sndUna = k.sndUna
  sndNxt : k'.sndNxt = k.sndNxt + .ofNat (k.newCount ackOnly)
  sndQueue : k'.sndQueue = k.sndQueue.drop (k.newCount ackOnly)
  sndBuf : List.Forall₂ Segment.Same (k.flushBuf ackOnly) k'.sndBuf

/-- The shape of the datagrams of a flush. -/
def shape (k : KCP) (P : Segment → Prop) : Shape :=
  ⟨P, k.buffer.length, k.reserved, k.Sound byteCheck⟩

/-- What the segment variable and the writer are after the control segments. -/
structure AfterControl (k : KCP) (F : Shape) (r : Segment × Writer) : Prop where
  conv_eq : r.1.conv = k.conv
  wnd_eq : r.1.wnd = k.wndUnused
  data_eq : r.1.data = []
  writer : r.2.Ok byteCheck F

/-- A segment of the send buffer may be transmitted with the window `wnd`: it fits, and it has the
property. -/
structure Sendable (F : Shape) (wnd : UInt16) (seg : Segment) : Prop where
  fits : F.safe → F.reserved + (overhead byteCheck + seg.data.length) ≤ F.cap
  has : seg.acked ≠ 1 → ∀ seg', seg.Same seg' → seg'.wnd = wnd → F.P seg'

section

variable {byteCheck} {k : KCP} {F : Shape}

/-! ## Control segments -/

/-- Every control segment of the instance has the property. -/
def TakesControl (P : Segment → Prop) (k : KCP) : Prop :=
  ∀ seg : Segment, seg.conv = k.conv → seg.wnd = k.wndUnused →
    (seg.cmd = cmdAck ∨ seg.cmd = cmdWask ∨ seg.cmd = cmdWins) → seg.data = [] → P seg

variable {k₀ : KCP}

/-- A control segment, after `makeSpace`. -/
theorem control_outcome (hk : F.Of byteCheck k) (hP : TakesControl F.P k₀) {r : Segment × Writer}
    (hr : AfterControl byteCheck k₀ F r)
    (hcmd : r.1.cmd = cmdAck ∨ r.1.cmd = cmdWask ∨ r.1.cmd = cmdWins) :
    Outcome (Writer.Ok byteCheck F) (OutOfRange byteCheck F)
      ((r.2.makeSpace k (overhead byteCheck)).encode byteCheck r.1) :=
  (hr.writer.makeSpace hk hk.room).encode r.1 (hP r.1 hr.conv_eq hr.wnd_eq hcmd hr.data_eq)
    hr.data_eq fun hs => Writer.makeSpace_room hk r.2 hs (hk.room hs)

theorem flushAcks_outcome (hk : F.Of byteCheck k) (hP : TakesControl F.P k₀) (acks : List AckItem)
    (seg : Segment) (w : Writer) (hcmd : seg.cmd = cmdAck)
    (hr : AfterControl byteCheck k₀ F (seg, w)) :
    Outcome (AfterControl byteCheck k₀ F) (OutOfRange byteCheck F)
      (k.flushAcks byteCheck acks seg w) := by
  induction acks generalizing seg w with
  | nil => exact hr
  | cons ack rest ih =>
    rw [flushAcks]
    dsimp only
    split
    · have hack : AfterControl byteCheck k₀ F ({ seg with sn := ack.sn, ts := ack.ts }, w) :=
        { hr with }
      refine (control_outcome hk hP hack (.inl hcmd)).bind fun w' hw' => ?_
      exact ih _ w' hcmd { hr with writer := hw' }
    · exact ih seg _ hcmd { hr with writer := hr.writer.makeSpace hk hk.room }

theorem flushProbe_outcome (hk : F.Of byteCheck k) (hP : TakesControl F.P k₀) (bit : UInt32)
    {cmd : UInt8} (hcmd : cmd = cmdWask ∨ cmd = cmdWins) {r : Segment × Writer}
    (hr : AfterControl byteCheck k₀ F r) :
    Outcome (AfterControl byteCheck k₀ F) (OutOfRange byteCheck F)
      (k.flushProbe byteCheck bit cmd r.1 r.2) := by
  unfold flushProbe
  split
  · have hprobe : AfterControl byteCheck k₀ F ({ r.1 with cmd := cmd }, r.2) :=
      { hr with }
    refine (control_outcome hk hP hprobe (.inr hcmd)).bind fun w' hw' => ?_
    exact { hr with writer := hw' }
  · exact hr

/-! ## The transmission loop -/

/-- A transmission changes the timers of a segment only. -/
theorem reschedule_same (k : KCP) (current now : UInt32) (wnd : UInt16) (una xmit : UInt32)
    (seg : Segment) (why : Resend) : seg.Same { k.reschedule current seg why with
      xmit := xmit, ts := now, wnd := wnd, una := una } := by
  cases why <;> exact ⟨rfl, rfl, rfl, rfl, rfl, rfl⟩

variable {wnd : UInt16} {una resent : UInt32} {newSegsCount : Nat}

theorem transmitSegment_outcome (hk : F.Of byteCheck k) {now : UInt32} {seg : Segment}
    {t : Transmit} (hseg : Sendable byteCheck F wnd seg) (hw : t.w.Ok byteCheck F) :
    Outcome (fun r => seg.Same r.1 ∧ r.2.w.Ok byteCheck F) (OutOfRange byteCheck F)
      (k.transmitSegment byteCheck wnd una resent newSegsCount now seg t) := by
  unfold transmitSegment
  split
  · exact ⟨.refl seg, hw⟩
  rename_i hacked
  split
  · exact ⟨.refl seg, hw⟩
  rename_i why _
  have hsame := k.reschedule_same t.current now wnd una (seg.xmit + 1) seg why
  have hwrite := (hw.makeSpace hk hseg.fits).write _ (hseg.has hacked _ hsame rfl) fun hs => by
    rw [hsame.data]
    exact Writer.makeSpace_room hk t.w hs (hseg.fits hs)
  rw [← hsame.data] at hwrite
  show Outcome _ _
    (_ >>= fun w => Writer.put _ w >>= fun w => Except.ok (_, Transmit.mk w _ _ _ _ _))
  rw [← bind_assoc]
  exact hwrite.bind fun w hw' => ⟨hsame, hw'⟩

theorem transmit_outcome (hk : F.Of byteCheck k) (clock : Nat → UInt32) (n : Nat)
    (segs : List Segment) (t : Transmit) (hsegs : ∀ seg ∈ segs, Sendable byteCheck F wnd seg)
    (hw : t.w.Ok byteCheck F) :
    Outcome (fun r => List.Forall₂ Segment.Same segs r.1 ∧ r.2.w.Ok byteCheck F)
      (OutOfRange byteCheck F)
      (k.transmit byteCheck wnd una resent newSegsCount clock n segs t) := by
  induction segs generalizing n t with
  | nil => exact ⟨.nil, hw⟩
  | cons seg rest ih =>
    rw [transmit]
    refine (transmitSegment_outcome hk (hsegs seg mem_cons_self) hw).bind fun r hr => ?_
    refine (ih (n + 1) r.2 (fun s hs => hsegs s (mem_cons_of_mem _ hs)) hr.2).bind fun r' hr' => ?_
    exact ⟨.cons hr.1 hr'.1, hr'.2⟩

/-! ## New segments -/

theorem moveNew_eq (cwnd : UInt32) (k : KCP) :
    moveNew cwnd k k.sndQueue =
      ({ k with
        sndQueue := k.sndQueue.drop (sendCount (k.sndUna + cwnd) k.sndNxt k.sndQueue)
        sndBuf := k.sndBuf ++
          numbered k.conv k.sndNxt
            (k.sndQueue.take (sendCount (k.sndUna + cwnd) k.sndNxt k.sndQueue))
        sndNxt := k.sndNxt + .ofNat (sendCount (k.sndUna + cwnd) k.sndNxt k.sndQueue) },
      sendCount (k.sndUna + cwnd) k.sndNxt k.sndQueue) := by
  generalize hq : k.sndQueue = queue
  induction queue generalizing k with
  | nil =>
    cases k
    subst hq
    simp [moveNew, sendCount, numbered]
  | cons seg rest ih =>
    rw [moveNew, sendCount]
    split
    · cases k
      subst hq
      simp [numbered]
    · dsimp only
      rw [ih]
      · simp [numbered, UInt32.add_assoc, UInt32.add_comm]
      · rfl

theorem probeWindow_eq (k : KCP) (current : UInt32) : ∃ wait ts probe,
    k.probeWindow current = { k with probeWait := wait, tsProbe := ts, probe := probe } := by
  unfold probeWindow
  split
  · split
    · exact ⟨_, _, _, rfl⟩
    · split
      · exact ⟨_, _, _, rfl⟩
      · exact ⟨_, _, _, rfl⟩
  · exact ⟨_, _, _, rfl⟩

theorem updateCwnd_eq (k : KCP) (resent cwnd : UInt32) (change lostSegs : Nat) :
    ∃ ssthresh cwnd' incr, k.updateCwnd resent cwnd change lostSegs =
      { k with ssthresh := ssthresh, cwnd := cwnd', incr := incr } := by
  unfold updateCwnd
  split
  · dsimp only
    split <;> split <;> split <;> exact ⟨_, _, _, rfl⟩
  · exact ⟨_, _, _, rfl⟩

/-! ## The flush -/

theorem length_le_of_numbered {conv : UInt64} {n : Nat} {sn : UInt32} {segs : List Segment}
    (h : ∀ seg ∈ segs, seg.data.length ≤ n) :
    ∀ seg ∈ numbered conv sn segs, seg.data.length ≤ n := by
  induction segs generalizing sn with
  | nil => simp [numbered]
  | cons seg rest ih =>
    intro s hs
    rcases mem_cons.mp hs with rfl | hs
    · exact h seg mem_cons_self
    · exact ih (fun s hs => h s (mem_cons_of_mem _ hs)) s hs

/-- Every segment that a safe flush transmits fits. -/
theorem Sound.flushBuf_fits (h : k.Sound byteCheck) (ackOnly : Bool) :
    ∀ seg ∈ k.flushBuf ackOnly, seg.data.length ≤ k.mss.toNat := by
  intro seg hseg
  rcases mem_append.mp hseg with hbuf | hnew
  · exact h.buf_fits seg hbuf
  · exact length_le_of_numbered (fun s hs => h.queue_fits s (mem_of_mem_take hs)) seg hnew

theorem shape_of (P : Segment → Prop) : (k.shape byteCheck P).Of byteCheck k where
  reserved_eq := rfl
  mtu_eq h := h.buffer_eq.symm
  room h := by
    show k.reserved + overhead byteCheck ≤ k.buffer.length
    rw [h.buffer_eq]
    have := h.room
    omega

theorem flushRest_outcome (hk : F.Of byteCheck k) (hlen : k.buffer.length = F.cap)
    (hP : TakesControl F.P k)
    (hsegs : ∀ seg ∈ k.flushBuf false, Sendable byteCheck F k.wndUnused seg) (clock : Nat → UInt32)
    {r : Segment × Writer} (hr : AfterControl byteCheck k F r) :
    Outcome (fun r => k.Flushed false r.1 ∧ ∀ d ∈ r.2.1, Datagram byteCheck F d)
      (OutOfRange byteCheck F)
      (({ k with acklist := [] } : KCP).flushRest byteCheck clock r.1 r.2) := by
  obtain ⟨wait, ts, probe, hprobe⟩ := ({ k with acklist := [] } : KCP).probeWindow_eq (clock 0)
  rw [flushRest, hprobe]
  dsimp only
  have hk₁ : F.Of byteCheck { k with
      acklist := [], probeWait := wait, tsProbe := ts, probe := probe } :=
    ⟨hk.reserved_eq, hk.mtu_eq, hk.room⟩
  refine (flushProbe_outcome hk₁ hP 1 (.inl rfl) hr).bind fun r₁ hr₁ => ?_
  refine (flushProbe_outcome hk₁ hP 2 (.inr rfl) hr₁).bind fun r₂ hr₂ => ?_
  have hmove := moveNew_eq k.sendWindow { k with
    acklist := [], probeWait := wait, tsProbe := ts, probe := 0 }
  dsimp only at hmove
  erw [hmove]
  rw [hr₂.wnd_eq]
  refine (transmit_outcome (k := { k with
    acklist := [], probeWait := wait, tsProbe := ts, probe := 0
    sndQueue := _, sndBuf := _, sndNxt := _ })
    ⟨hk.reserved_eq, hk.mtu_eq, hk.room⟩ clock 0 (k.flushBuf false) _ hsegs
    hr₂.writer).bind fun r₃ hr₃ => ?_
  obtain ⟨ssthresh, cwnd', incr, hcwnd⟩ := updateCwnd_eq _ _ _ _ _
  dsimp only
  rw [hcwnd]
  have hw := hr₃.2.flushBuffer (k := k) hk
  refine ⟨⟨⟨rfl, rfl, rfl, rfl, rfl, rfl, rfl, ?_⟩, rfl, rfl, rfl, rfl, rfl, rfl, rfl, rfl, hr₃.1⟩,
    hw.sent⟩
  exact hw.length_eq.trans hlen.symm

/-- The segments that a flush may write have the property `P`. -/
structure Writes (k : KCP) (P : Segment → Prop) (ackOnly : Bool) : Prop where
  control : TakesControl P k
  data : ∀ s ∈ k.flushBuf ackOnly, s.acked ≠ 1 → ∀ seg, s.Same seg → seg.wnd = k.wndUnused → P seg

/-- A flush without a panic changes what `Flushed` says, and all datagrams are in order; a panic
means that the flush is not safe. -/
theorem flush_outcome_of {P : Segment → Prop} {ackOnly : Bool} (hP : k.Writes P ackOnly)
    (clock : Nat → UInt32) :
    Outcome (fun r => k.Flushed ackOnly r.1 ∧ ∀ d ∈ r.2.1,
      Datagram byteCheck (k.shape byteCheck P) d)
      (OutOfRange byteCheck (k.shape byteCheck P)) (k.flush byteCheck ackOnly clock) := by
  have hk : (k.shape byteCheck P).Of byteCheck k := shape_of _
  have hsegs : ∀ seg ∈ k.flushBuf ackOnly,
      Sendable byteCheck (k.shape byteCheck P) k.wndUnused seg := by
    refine fun seg hseg => ⟨fun hs => ?_, hP.data seg hseg⟩
    show k.reserved + (overhead byteCheck + seg.data.length) ≤ k.buffer.length
    have hfits := hs.flushBuf_fits ackOnly seg hseg
    rw [hs.mss_eq] at hfits
    rw [hs.buffer_eq]
    have := hs.room
    omega
  rw [flush]
  refine (Writer.start_outcome hk rfl).bind fun w hw => ?_
  refine (flushAcks_outcome hk hP.control k.acklist _ w rfl ⟨rfl, rfl, rfl, hw⟩).bind fun r hr => ?_
  dsimp only
  cases ackOnly with
  | false => exact flushRest_outcome hk rfl hP.control hsegs clock hr
  | true =>
    have hend := hr.writer.flushBuffer (k := k) hk
    refine ⟨⟨⟨rfl, rfl, rfl, rfl, rfl, rfl, rfl, hend.length_eq⟩, rfl, rfl, rfl, rfl, rfl, rfl,
      ?_, rfl, ?_⟩, hend.sent⟩
    · simp [newCount]
    · simp [flushBuf, newCount, numbered, forall₂_same, Segment.Same.refl]

/-- The datagrams of a flush consist of control segments and of segments of the send buffer. -/
theorem flush_outcome (k : KCP) (ackOnly : Bool) (clock : Nat → UInt32) :
    Outcome (fun r => k.Flushed ackOnly r.1 ∧
        ∀ d ∈ r.2.1, Datagram byteCheck (k.shape byteCheck (Carried k.conv (k.flushBuf ackOnly))) d)
      (OutOfRange byteCheck (k.shape byteCheck (Carried k.conv (k.flushBuf ackOnly))))
      (k.flush byteCheck ackOnly clock) :=
  flush_outcome_of ⟨fun _ hconv _ hcmd hdata => .inl ⟨hconv, hcmd, hdata⟩,
    fun s hs hacked _ hsame _ => .inr ⟨s, hs, hacked, hsame⟩⟩ clock

end

end KCP

end Halo.Kcp
