import Halo.Base.Trace
import Halo.Kcp.Segment

/-!
# The KCP state machine (`protocol/kcp/kcp.go`)

`KCP` with `Send`, `Recv`, `Input`, `flush` and the settings, as they stand in the source. A
function that can panic returns `Except Fault`, or `Except Panic` when it may have sent datagrams
before. Ring buffers are lists; statistics are left out. The clock is an oracle: `clock n` is the
`n`-th reading of a call, any numbers at all.

A flush writes segments to the buffer of the instance and passes the filled part of it to the output
(`Writer`): `makeSpace` does that when the next segment does not fit, `flushBuffer` at the end.
-/

namespace Halo.Kcp

/-- `mtuLimit`: the size of a pooled buffer. -/
def mtuLimit : Nat := 1500

/-- `ackItem`. -/
structure AckItem where
  sn : UInt32
  ts : UInt32
  deriving DecidableEq

/-- `KCP`. -/
structure KCP where
  conv : UInt64
  mtu : UInt32
  mss : UInt32
  state : UInt32
  sndUna : UInt32
  sndNxt : UInt32
  rcvNxt : UInt32
  ssthresh : UInt32
  rxRttvar : Int32
  rxSrtt : Int32
  rxRto : UInt32
  rxMinrto : UInt32
  sndWnd : UInt32
  rcvWnd : UInt32
  rmtWnd : UInt32
  cwnd : UInt32
  probe : UInt32
  interval : UInt32
  nodelay : UInt32
  tsProbe : UInt32
  probeWait : UInt32
  deadLink : UInt32
  incr : UInt32
  fastresend : Int32
  nocwnd : Int32
  stream : Int32
  sndQueue : List Segment
  rcvQueue : List Segment
  sndBuf : List Segment
  rcvBuf : SegmentHeap
  acklist : List AckItem
  buffer : Bytes
  reserved : Nat

variable (byteCheck : Option (Bytes → UInt32))

namespace KCP

/-- `NewKCP`. -/
def newKCP (conv : UInt64) : KCP where
  conv := conv
  mtu := 1400
  mss := 1400 - .ofNat (overhead byteCheck)
  state := 0
  sndUna := 0
  sndNxt := 0
  rcvNxt := 0
  ssthresh := 2
  rxRttvar := 0
  rxSrtt := 0
  rxRto := 200
  rxMinrto := 100
  sndWnd := 32
  rcvWnd := 32
  rmtWnd := 32
  cwnd := 0
  probe := 0
  interval := 100
  nodelay := 0
  tsProbe := 0
  probeWait := 0
  deadLink := 20
  incr := 0
  fastresend := 0
  nocwnd := 0
  stream := 0
  sndQueue := []
  rcvQueue := []
  sndBuf := []
  rcvBuf := .newSegmentHeap
  acklist := []
  buffer := List.replicate 1400 0
  reserved := 0

/-! ## Settings -/

/-- `ReserveBytes`. -/
def reserveBytes (k : KCP) (n : Int) : Bool × KCP :=
  if n < 0 ∨ (k.mtu.toNat : Int) - overhead byteCheck ≤ n then (false, k)
  else
    (true, { k with
      reserved := n.toNat
      mss := k.mtu - .ofNat (overhead byteCheck) - .ofNat n.toNat })

/-- `SetMtu`. -/
def setMtu (k : KCP) (mtu : Int) : Int × KCP :=
  if mtu ≤ overhead byteCheck ∨ mtu - overhead byteCheck ≤ k.reserved then (-1, k)
  else
    (0, { k with
      mtu := .ofNat mtu.toNat
      mss := .ofNat mtu.toNat - .ofNat (overhead byteCheck) - .ofNat k.reserved
      buffer := List.replicate mtu.toNat 0 })

/-- `NoDelay`. -/
def noDelay (k : KCP) (nodelay interval resend nc : Int) : KCP :=
  let k :=
    if 0 ≤ nodelay then
      { k with nodelay := .ofInt nodelay, rxMinrto := if nodelay ≠ 0 then 30 else 100 }
    else k
  let k :=
    if 0 ≤ interval then
      { k with
        interval := .ofInt
          (if interval > 5000 then 5000 else if interval < 10 then 10 else interval) }
    else k
  let k := if 0 ≤ resend then { k with fastresend := .ofInt resend } else k
  if 0 ≤ nc then { k with nocwnd := .ofInt nc } else k

/-- `WndSize`. -/
def wndSize (k : KCP) (sndwnd rcvwnd : Int) : KCP :=
  let k := if 0 < sndwnd then { k with sndWnd := .ofInt sndwnd } else k
  if 0 < rcvwnd then { k with rcvWnd := .ofInt rcvwnd } else k

/-- `ReleaseTX`. -/
def releaseTX (k : KCP) : KCP := { k with sndQueue := [], sndBuf := [] }

/-! ## Receiving from the queue -/

/-- The lengths that the loop of `PeekSize` adds up: to the end of the first message. -/
def messageSize : List Segment → Nat
  | [] => 0
  | seg :: rest => seg.data.length + if seg.frg ≠ 0 then messageSize rest else 0

/-- `PeekSize`; `seg.frg + 1` is a byte. -/
def peekSize (k : KCP) : Int :=
  match k.rcvQueue with
  | [] => -1
  | seg :: _ =>
    if seg.frg = 0 then seg.data.length
    else if k.rcvQueue.length < (seg.frg + 1).toNat then -1
    else messageSize k.rcvQueue

/-- The loop that merges the fragments of a message: the data and the queue after it. -/
def popMessage : List Segment → Bytes × List Segment
  | [] => ([], [])
  | seg :: rest =>
    if seg.frg = 0 then (seg.data, rest)
    else (seg.data ++ (popMessage rest).1, (popMessage rest).2)

/-- The loop that moves segments from the heap to the queue. A round without a move is the last
one, so the heap's size bounds the rounds. -/
def moveAvailable : Nat → KCP → KCP
  | 0, k => k
  | fuel + 1, k =>
    match k.rcvBuf.pop with
    | none => k
    | some (seg, rest) =>
      if seg.sn = k.rcvNxt ∧ k.rcvQueue.length < k.rcvWnd.toNat then
        moveAvailable fuel
          { k with rcvBuf := rest, rcvQueue := k.rcvQueue ++ [seg], rcvNxt := k.rcvNxt + 1 }
      else { k with rcvBuf := rest.push seg }

/-- `Recv` into a buffer of `len` bytes: the return value, and the bytes written if it is not
negative. -/
def recv (k : KCP) (len : Nat) : Int × Bytes × KCP :=
  if k.peekSize < 0 then (-1, [], k)
  else if (len : Int) < k.peekSize then (-2, [], k)
  else
    let fastRecover := k.rcvWnd.toNat ≤ k.rcvQueue.length
    let (data, queue) := popMessage k.rcvQueue
    let k := { k with rcvQueue := queue }
    let k := moveAvailable k.rcvBuf.segments.length k
    let k :=
      if k.rcvQueue.length < k.rcvWnd.toNat ∧ fastRecover then { k with probe := k.probe ||| 2 }
      else k
    (data.length, data, k)

/-! ## Sending to the queue -/

/-- The part of `Send` that extends the last segment in stream mode: the rest of the buffer. The
capacity of a segment's data is that of a pooled buffer. -/
def extendLast (k : KCP) (buffer : Bytes) : Except Fault (Bytes × KCP) :=
  match k.sndQueue.getLast? with
  | none => .ok (buffer, k)
  | some seg =>
    if seg.data.length < k.mss.toNat then
      let capacity := k.mss.toNat - seg.data.length
      let extend := if buffer.length < capacity then buffer.length else capacity
      if mtuLimit < seg.data.length + extend then .error .indexOutOfRange
      else
        .ok (buffer.drop extend, { k with
          sndQueue := k.sndQueue.dropLast ++
            [{ seg with data := seg.data ++ buffer.take extend }] })
    else .ok (buffer, k)

/-- The fragments of a buffer: pieces of `mss` bytes, numbered down to `0` in message mode. -/
def fragments (mss : Nat) (stream : Bool) : Nat → Bytes → List Segment
  | 0, _ => []
  | count + 1, buffer =>
    { Segment.ofData (buffer.take mss) with frg := if stream then 0 else .ofNat count } ::
      fragments mss stream count (buffer.drop mss)

/-- The part of `Send` after the last segment has been extended. -/
def sendFragments (k : KCP) (buffer : Bytes) : Except Fault (Int × KCP) :=
  if k.mss.toNat = 0 then .error .divideByZero
  else
    let count := (buffer.length - 1) / k.mss.toNat + 1
    if k.stream = 0 ∧ 255 < count then .ok (-2, k)
    else
      .ok (0, { k with
        sndQueue := k.sndQueue ++ fragments k.mss.toNat (k.stream ≠ 0) count buffer })

/-- `Send`. -/
def send (k : KCP) (buffer : Bytes) : Except Fault (Int × KCP) :=
  if buffer = [] then .ok (-1, k)
  else if k.stream ≠ 0 then
    match k.extendLast buffer with
    | .error fault => .error fault
    | .ok (buffer, k) => if buffer = [] then .ok (0, k) else k.sendFragments buffer
  else k.sendFragments buffer

end KCP

/-! ## The buffer of a flush -/

/-- A panic, and the datagrams that the call has passed to the output before it. -/
structure Panic where
  fault : Fault
  sent : List Bytes
  deriving DecidableEq

/-- Where a flush writes: the buffer, the index of `ptr` in it, and the datagrams passed to the
output. -/
structure Writer where
  buffer : Bytes
  size : Nat
  sent : List Bytes

namespace Writer

/-- `ptr := buffer[kcp.reserved:]`. -/
def start (k : KCP) : Except Panic Writer :=
  if k.buffer.length < k.reserved then .error ⟨.indexOutOfRange, []⟩
  else .ok ⟨k.buffer, k.reserved, []⟩

/-- `makeSpace`. -/
def makeSpace (k : KCP) (space : Nat) (w : Writer) : Writer :=
  if k.mtu.toNat < w.size + space then ⟨w.buffer, k.reserved, w.sent ++ [w.buffer.take w.size]⟩
  else w

/-- `flushBuffer`. -/
def flushBuffer (k : KCP) (w : Writer) : Writer :=
  if k.reserved < w.size then { w with sent := w.sent ++ [w.buffer.take w.size] } else w

/-- A copy to `ptr`, and `ptr = ptr[len:]`; the copy ends where the buffer does. -/
def put (data : Bytes) (w : Writer) : Except Panic Writer :=
  if w.buffer.length < w.size + data.length then .error ⟨.indexOutOfRange, w.sent⟩
  else
    .ok ⟨w.buffer.take w.size ++ data ++ w.buffer.drop (w.size + data.length), w.size + data.length,
      w.sent⟩

/-- `ptr = seg.encode(ptr)`. -/
def encode (seg : Segment) (w : Writer) : Except Panic Writer := w.put (seg.encode byteCheck)

end Writer

namespace KCP

/-! ## Flushing -/

/-- `wnd_unused`. -/
def wndUnused (k : KCP) : UInt16 :=
  if k.rcvQueue.length < k.rcvWnd.toNat then .ofNat (k.rcvWnd.toNat - k.rcvQueue.length) else 0

/-- The loop that flushes the acknowledgements; the segment variable keeps its last values. -/
def flushAcks (k : KCP) : List AckItem → Segment → Writer → Except Panic (Segment × Writer)
  | [], seg, w => .ok (seg, w)
  | ack :: rest, seg, w =>
    let w := w.makeSpace k (overhead byteCheck)
    if 0 ≤ itimediff ack.sn k.rcvNxt ∨ rest = [] then do
      let seg := { seg with sn := ack.sn, ts := ack.ts }
      let w ← w.encode byteCheck seg
      flushAcks k rest seg w
    else flushAcks k rest seg w

/-- The timer of the window probe. -/
def probeWindow (k : KCP) (current : UInt32) : KCP :=
  if k.rmtWnd = 0 then
    if k.probeWait = 0 then { k with probeWait := 7000, tsProbe := current + 7000 }
    else if 0 ≤ itimediff current k.tsProbe then
      let wait := if k.probeWait < 7000 then 7000 else k.probeWait
      let wait := wait + wait / 2
      let wait := if 120000 < wait then 120000 else wait
      { k with probeWait := wait, tsProbe := current + wait, probe := k.probe ||| 1 }
    else k
  else { k with tsProbe := 0, probeWait := 0 }

/-- One window probing command, if its bit of `probe` is set. -/
def flushProbe (k : KCP) (bit : UInt32) (cmd : UInt8) (seg : Segment) (w : Writer) :
    Except Panic (Segment × Writer) :=
  if k.probe &&& bit ≠ 0 then do
    let seg := { seg with cmd := cmd }
    let w ← (w.makeSpace k (overhead byteCheck)).encode byteCheck seg
    .ok (seg, w)
  else .ok (seg, w)

/-- The window of a flush. -/
def sendWindow (k : KCP) : UInt32 :=
  let cwnd := min k.sndWnd k.rmtWnd
  if k.nocwnd = 0 then min k.cwnd cwnd else cwnd

/-- The loop that moves segments from the queue to the send buffer, with its count. -/
def moveNew (cwnd : UInt32) (k : KCP) : List Segment → KCP × Nat
  | [] => (k, 0)
  | newseg :: rest =>
    if 0 ≤ itimediff k.sndNxt (k.sndUna + cwnd) then (k, 0)
    else
      let newseg := { newseg with conv := k.conv, cmd := cmdPush, sn := k.sndNxt }
      let (k, n) := moveNew cwnd { k with
        sndQueue := rest, sndBuf := k.sndBuf ++ [newseg], sndNxt := k.sndNxt + 1 } rest
      (k, n + 1)

/-- Why a segment is transmitted. -/
inductive Resend where
  | initial
  | fast
  | early
  | timeout
  deriving DecidableEq

/-- Whether and why a segment is transmitted. -/
def needsend (resent : UInt32) (newSegsCount : Nat) (current : UInt32) (seg : Segment) :
    Option Resend :=
  if seg.xmit = 0 then some .initial
  else if resent ≤ seg.fastack ∧ seg.fastack ≠ 0xffffffff then some .fast
  else if 0 < seg.fastack ∧ seg.fastack ≠ 0xffffffff ∧ newSegsCount = 0 then some .early
  else if 0 ≤ itimediff current seg.resendts then some .timeout
  else none

/-- The timers of a segment that is transmitted. -/
def reschedule (k : KCP) (current : UInt32) (seg : Segment) : Resend → Segment
  | .initial => { seg with rto := k.rxRto, resendts := current + k.rxRto }
  | .fast | .early =>
    { seg with fastack := 0xffffffff, rto := k.rxRto, resendts := current + k.rxRto }
  | .timeout =>
    let rto := seg.rto + if k.nodelay = 0 then k.rxRto else k.rxRto / 2
    { seg with rto := rto, fastack := 0, resendts := current + rto }

/-- What the transmission loop carries: the writer, the clock, the counts of fast and early
retransmissions and of timeouts, the nearest timer, and the state of the link. -/
structure Transmit where
  w : Writer
  current : UInt32
  change : Nat
  lostSegs : Nat
  minrto : Int32
  state : UInt32

/-- The nearest timer after a segment has been visited. -/
def nearest (minrto : Int32) (current : UInt32) (seg : Segment) : Int32 :=
  let rto := itimediff seg.resendts current
  if 0 < rto ∧ rto < minrto then rto else minrto

/-- One round of the transmission loop; `now` is the clock after the decision. -/
def transmitSegment (k : KCP) (wnd : UInt16) (una : UInt32) (resent : UInt32) (newSegsCount : Nat)
    (now : UInt32) (seg : Segment) (t : Transmit) : Except Panic (Segment × Transmit) :=
  if seg.acked = 1 then .ok (seg, t)
  else
    match needsend resent newSegsCount t.current seg with
    | none => .ok (seg, { t with minrto := nearest t.minrto t.current seg })
    | some why => do
      let seg := { k.reschedule t.current seg why with
        xmit := seg.xmit + 1, ts := now, wnd := wnd, una := una }
      let w ← (t.w.makeSpace k (overhead byteCheck + seg.data.length)).encode byteCheck seg
      let w ← w.put seg.data
      .ok (seg,
        { w := w
          current := now
          change := t.change + if why = .fast ∨ why = .early then 1 else 0
          lostSegs := t.lostSegs + if why = .timeout then 1 else 0
          minrto := nearest t.minrto now seg
          state := if k.deadLink ≤ seg.xmit then 0xffffffff else t.state })

/-- The transmission loop over the send buffer; the round of the `n`-th segment reads the clock at
`n + 2`. -/
def transmit (k : KCP) (wnd : UInt16) (una : UInt32) (resent : UInt32) (newSegsCount : Nat)
    (clock : Nat → UInt32) : Nat → List Segment → Transmit → Except Panic (List Segment × Transmit)
  | _, [], t => .ok ([], t)
  | n, seg :: rest, t => do
    let (seg, t) ← k.transmitSegment byteCheck wnd una resent newSegsCount (clock (n + 2)) seg t
    let (rest, t) ← transmit k wnd una resent newSegsCount clock (n + 1) rest t
    .ok (seg :: rest, t)

/-- The congestion window at the end of a flush. -/
def updateCwnd (k : KCP) (resent cwnd : UInt32) (change lostSegs : Nat) : KCP :=
  if k.nocwnd = 0 then
    let k :=
      if 0 < change then
        let ssthresh := max ((k.sndNxt - k.sndUna) / 2) 2
        { k with
          ssthresh := ssthresh, cwnd := ssthresh + resent, incr := (ssthresh + resent) * k.mss }
      else k
    let k :=
      if 0 < lostSegs then { k with ssthresh := max (cwnd / 2) 2, cwnd := 1, incr := k.mss } else k
    if k.cwnd < 1 then { k with cwnd := 1, incr := k.mss } else k
  else k

/-- The part of a flush after the acknowledgements, when there is more than acknowledgements. -/
def flushRest (k : KCP) (clock : Nat → UInt32) (seg : Segment) (w : Writer) :
    Except Panic (KCP × List Bytes × UInt32) := do
  let k := k.probeWindow (clock 0)
  let (seg, w) ← k.flushProbe byteCheck 1 cmdWask seg w
  let (seg, w) ← k.flushProbe byteCheck 2 cmdWins seg w
  let k := { k with probe := 0 }
  let cwnd := k.sendWindow
  let (k, newSegsCount) := moveNew cwnd k k.sndQueue
  let resent := if k.fastresend ≤ 0 then 0xffffffff else k.fastresend.toUInt32
  let (sndBuf, t) ← k.transmit byteCheck seg.wnd seg.una resent newSegsCount clock 0 k.sndBuf
    ⟨w, clock 1, 0, 0, k.interval.toInt32, k.state⟩
  let w := t.w.flushBuffer k
  let k := { k with sndBuf := sndBuf, state := t.state, buffer := w.buffer }
  .ok (k.updateCwnd resent cwnd t.change t.lostSegs, w.sent, t.minrto.toUInt32)

/-- `flush`: the state, the datagrams passed to the output, and the return value. -/
def flush (k : KCP) (ackOnly : Bool) (clock : Nat → UInt32) :
    Except Panic (KCP × List Bytes × UInt32) := do
  let seg := { Segment.ofData [] with
    conv := k.conv, cmd := cmdAck, wnd := k.wndUnused, una := k.rcvNxt }
  let w ← Writer.start k
  let (seg, w) ← k.flushAcks byteCheck k.acklist seg w
  let k := { k with acklist := [] }
  if ackOnly then
    let w := w.flushBuffer k
    .ok ({ k with buffer := w.buffer }, w.sent, k.interval)
  else k.flushRest byteCheck clock seg w

/-! ## Input -/

/-- `update_ack`. -/
def updateAck (k : KCP) (rtt : Int32) : KCP :=
  let k :=
    if k.rxSrtt = 0 then { k with rxSrtt := rtt, rxRttvar := rtt >>> 1 }
    else
      let delta := rtt - k.rxSrtt
      let srtt := k.rxSrtt + (delta >>> 3)
      let delta := if delta < 0 then -delta else delta
      let shift : Int32 := if rtt < srtt - k.rxRttvar then 5 else 2
      { k with rxSrtt := srtt, rxRttvar := k.rxRttvar + ((delta - k.rxRttvar) >>> shift) }
  let rto : UInt32 := k.rxSrtt.toUInt32 + max k.interval (k.rxRttvar.toUInt32 <<< (2 : UInt32))
  { k with rxRto := min (max k.rxMinrto rto) 60000 }

/-- `shrink_buf`. -/
def shrinkBuf (k : KCP) : KCP :=
  match k.sndBuf with
  | seg :: _ => { k with sndUna := seg.sn }
  | [] => { k with sndUna := k.sndNxt }

/-- The loop of `parse_ack`: the segment with the number is marked and its data freed. -/
def ackSegment (sn : UInt32) : List Segment → List Segment
  | [] => []
  | seg :: rest =>
    if sn = seg.sn then { seg with acked := 1, data := [] } :: rest
    else if itimediff sn seg.sn < 0 then seg :: rest
    else seg :: ackSegment sn rest

/-- `parse_ack`. -/
def parseAck (k : KCP) (sn : UInt32) : KCP :=
  if itimediff sn k.sndUna < 0 ∨ 0 ≤ itimediff sn k.sndNxt then k
  else { k with sndBuf := ackSegment sn k.sndBuf }

/-- The loop of `parse_fastack`, and whether a segment has reached the threshold. -/
def fastackSegments (fastresend : UInt32) (sn ts : UInt32) : List Segment → List Segment × Bool
  | [] => ([], false)
  | seg :: rest =>
    if itimediff sn seg.sn < 0 then (seg :: rest, false)
    else
      let (rest, should) := fastackSegments fastresend sn ts rest
      if sn ≠ seg.sn ∧ itimediff seg.ts ts ≤ 0 ∧ seg.fastack ≠ 0xffffffff then
        ({ seg with fastack := seg.fastack + 1 } :: rest,
          should || fastresend ≤ seg.fastack + 1)
      else (seg :: rest, should)

/-- `parse_fastack`. -/
def parseFastack (k : KCP) (sn ts : UInt32) : KCP × Bool :=
  if itimediff sn k.sndUna < 0 ∨ 0 ≤ itimediff sn k.sndNxt then (k, false)
  else
    let (sndBuf, should) := fastackSegments k.fastresend.toUInt32 sn ts k.sndBuf
    ({ k with sndBuf := sndBuf }, should)

/-- `parse_una`, and whether it has removed segments. -/
def parseUna (k : KCP) (una : UInt32) : KCP × Bool :=
  let acked := k.sndBuf.takeWhile fun seg => 0 < itimediff una seg.sn
  ({ k with sndBuf := k.sndBuf.drop acked.length }, 0 < acked.length)

/-- `parse_data`, and whether the data is repeated. -/
def parseData (k : KCP) (newseg : Segment) : KCP × Bool :=
  if 0 ≤ itimediff newseg.sn (k.rcvNxt + k.rcvWnd) ∨ itimediff newseg.sn k.rcvNxt < 0 then (k, true)
  else
    let repeated := k.rcvBuf.has newseg.sn
    let k := if repeated then k else { k with rcvBuf := k.rcvBuf.push newseg }
    (moveAvailable k.rcvBuf.segments.length k, repeated)

/-- What the loop of `Input` carries. -/
structure InputAcc where
  k : KCP
  latest : UInt32
  updateRTT : Bool
  flushSegments : Bool

/-- The segment of a push header and its data. -/
def pushSegment (h : Header) (data : Bytes) : Segment :=
  { Segment.ofData data with
    conv := h.conv, cmd := h.cmd, frg := h.frg, wnd := h.wnd, ts := h.ts, sn := h.sn, una := h.una }

/-- A push segment in `Input`. -/
def inputPush (k : KCP) (h : Header) (data : Bytes) : KCP :=
  if itimediff h.sn (k.rcvNxt + k.rcvWnd) < 0 then
    let k := { k with acklist := k.acklist ++ [⟨h.sn, h.ts⟩] }
    if 0 ≤ itimediff h.sn k.rcvNxt then (k.parseData (pushSegment h data)).1 else k
  else k

/-- A valid segment in `Input`. -/
def inputSegment (a : InputAcc) (regular : Bool) (h : Header) (data : Bytes) : InputAcc :=
  let k := if regular then { a.k with rmtWnd := h.wnd.toUInt32 } else a.k
  let (k, removed) := k.parseUna h.una
  let k := k.shrinkBuf
  let flushSegments := a.flushSegments || removed
  if h.cmd = cmdAck then
    let (k, should) := (k.parseAck h.sn).parseFastack h.sn h.ts
    ⟨k, h.ts, true, flushSegments || should⟩
  else if h.cmd = cmdPush then ⟨k.inputPush h data, a.latest, a.updateRTT, flushSegments⟩
  else if h.cmd = cmdWask then
    ⟨{ k with probe := k.probe ||| 2 }, a.latest, a.updateRTT, flushSegments⟩
  else ⟨k, a.latest, a.updateRTT, flushSegments⟩

/-- The return value of `Input` for a segment that is refused, if it is: `data` is what follows its
header. -/
def refused (conv : UInt64) (h : Header) (data : Bytes) : Option Int :=
  if h.conv ≠ conv then some (-1)
  else if data.length < h.length.toNat then some (-2)
  else if h.cmd ≠ cmdPush ∧ h.cmd ≠ cmdAck ∧ h.cmd ≠ cmdWask ∧ h.cmd ≠ cmdWins then some (-3)
  else
    match byteCheck with
    | none => none
    | some hash =>
      if h.cmd = cmdPush ∧ h.hash ≠ hash (data.take h.length.toNat) then some (-4) else none

/-- The loop of `Input` over the segments of a datagram, and its return value (`0` at the end of the
datagram). A round consumes a header, so the length of the datagram bounds the rounds. -/
def inputLoop (regular : Bool) : Nat → InputAcc → Bytes → InputAcc × Int
  | 0, a, _ => (a, 0)
  | fuel + 1, a, data =>
    if data.length < overhead byteCheck then (a, 0)
    else
      let h := decodeHeader byteCheck data
      let body := data.drop (overhead byteCheck)
      match refused byteCheck a.k.conv h body with
      | some code => (a, code)
      | none =>
        inputLoop regular fuel (inputSegment a regular h (body.take h.length.toNat))
          (body.drop h.length.toNat)

/-- The round trip time after the loop of `Input`. -/
def InputAcc.updateRtt (a : InputAcc) (regular : Bool) (current : UInt32) : KCP :=
  if a.updateRTT ∧ regular ∧ 0 ≤ itimediff current a.latest then
    a.k.updateAck (itimediff current a.latest)
  else a.k

/-- The growth of the congestion window in congestion avoidance. -/
def avoidCongestion (k : KCP) : Except Panic KCP :=
  let incr := if k.incr < k.mss then k.mss else k.incr
  if incr = 0 then .error ⟨.divideByZero, []⟩
  else
    let incr := incr + ((k.mss * k.mss) / incr + k.mss / 16)
    if (k.cwnd + 1) * k.mss ≤ incr then
      .ok { k with
        incr := incr
        cwnd := if 0 < k.mss then (incr + k.mss - 1) / k.mss else incr + k.mss - 1 }
    else .ok { k with incr := incr }

/-- The growth of the congestion window: a slow start below the threshold. -/
def raiseCwnd (k : KCP) : Except Panic KCP :=
  if k.cwnd < k.ssthresh then .ok { k with cwnd := k.cwnd + 1, incr := k.incr + k.mss }
  else k.avoidCongestion

/-- The congestion window after an input. -/
def growCwnd (k : KCP) (oldUna : UInt32) : Except Panic KCP :=
  if k.nocwnd = 0 ∧ 0 < itimediff k.sndUna oldUna ∧ k.cwnd < k.rmtWnd then do
    let k ← k.raiseCwnd
    if k.rmtWnd < k.cwnd then .ok { k with cwnd := k.rmtWnd, incr := k.rmtWnd * k.mss } else .ok k
  else .ok k

/-- The flush at the end of `Input`, if there is a reason for one. -/
def flushAfterInput (k : KCP) (flushSegments ackNoDelay : Bool) (clock : Nat → UInt32) :
    Except Panic (KCP × List Bytes) :=
  if flushSegments then (k.flush byteCheck false clock).map fun r => (r.1, r.2.1)
  else if (k.mtu / .ofNat (overhead byteCheck)).toNat ≤ k.acklist.length ∨
      (ackNoDelay ∧ 0 < k.acklist.length) then
    (k.flush byteCheck true clock).map fun r => (r.1, r.2.1)
  else .ok (k, [])

/-- `Input`: the return value, the state and the datagrams of its flush. The clock is read once for
the round trip time, then by the flush. -/
def input (k : KCP) (data : Bytes) (regular ackNoDelay : Bool) (clock : Nat → UInt32) :
    Except Panic (Int × KCP × List Bytes) :=
  if data.length < overhead byteCheck then .ok (-1, k, [])
  else
    match inputLoop byteCheck regular data.length ⟨k, 0, false, false⟩ data with
    | (a, code) =>
      if code ≠ 0 then .ok (code, a.k, [])
      else do
        let k' ← (a.updateRtt regular (clock 0)).growCwnd k.sndUna
        let (k', sent) ← k'.flushAfterInput byteCheck a.flushSegments ackNoDelay fun n =>
          clock (n + 1)
        .ok (0, k', sent)

end KCP

/-! ## Steps -/

/-- A call on a KCP instance. -/
inductive KcpEvent where
  | send (buffer : Bytes)
  | recv (len : Nat)
  | input (data : Bytes) (regular ackNoDelay : Bool) (clock : Nat → UInt32)
  | flush (ackOnly : Bool) (clock : Nat → UInt32)
  | setMtu (mtu : Int)
  | reserveBytes (n : Int)
  | wndSize (sndwnd rcvwnd : Int)
  | noDelay (nodelay interval resend nc : Int)
  | setStream (stream : Int32)
  | releaseTX

namespace KCP

/-- A call and the datagrams it passes to the output. -/
def step (k : KCP) : KcpEvent → Except Panic (KCP × List Bytes)
  | .send buffer =>
    match k.send buffer with
    | .error fault => .error ⟨fault, []⟩
    | .ok (_, k) => .ok (k, [])
  | .recv len => .ok ((k.recv len).2.2, [])
  | .input data regular ackNoDelay clock =>
    (k.input byteCheck data regular ackNoDelay clock).map fun r => (r.2.1, r.2.2)
  | .flush ackOnly clock => (k.flush byteCheck ackOnly clock).map fun r => (r.1, r.2.1)
  | .setMtu mtu => .ok ((k.setMtu byteCheck mtu).2, [])
  | .reserveBytes n => .ok ((k.reserveBytes byteCheck n).2, [])
  | .wndSize sndwnd rcvwnd => .ok (k.wndSize sndwnd rcvwnd, [])
  | .noDelay nodelay interval resend nc => .ok (k.noDelay nodelay interval resend nc, [])
  | .setStream stream => .ok ({ k with stream := stream }, [])
  | .releaseTX => .ok (k.releaseTX, [])

end KCP

end Halo.Kcp
