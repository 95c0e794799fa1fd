import Halo.Base.Serial
import Halo.Base.Trace
import Halo.Protocol.Tcp
import Halo.Tcp.Buffer

/-!
# TCP connections (`protocol/tcp/tcp.go`, `protocol/tcp/conn.go`)

A connection is the record `Conn`; its functions pass it on. What a function asks of the stack (a
segment for the output queue, a place among the connections to accept, its removal) is a `Request`,
and the connection collects the requests of the running call in the order in which they are made.
The time is a number of nanoseconds, and `none` is the zero time. Sends of a wake-up to the waiting
calls are left out.

`Read` and `Write` are rounds of their loops: a round ends with a result or waits for the next one.
-/

namespace Halo.Tcp

/-- `state`. -/
inductive State where
  | closed | synSent | synReceived | established | finWait1 | finWait2 | closeWait
      | closing | lastAck
  | timeWait
  deriving DecidableEq

/-- `Addr`. -/
structure Addr where
  ip : Ipv4Addr
  port : UInt16
  deriving DecidableEq

/-- The errors of the calls. -/
inductive Err where
  /-- `net.ErrClosed`. -/
  | errClosed
  /-- `ErrTimeout`. -/
  | timeout
  /-- `os.ErrDeadlineExceeded`. -/
  | deadlineExceeded
  /-- `io.EOF`. -/
  | eof
  /-- An error of `errors.New`. -/
  | text (message : String)
  deriving DecidableEq

/-- `mss`. -/
def mss : Nat := 1200

/-- `sendBufferSize`. -/
def sendBufferSize : Nat := 16 * 1024

/-- `receiveBufferSize`. -/
def receiveBufferSize : Nat := 16 * 1024

/-- `time.Microsecond`. -/
def microsecond : Int := 1000

/-- `time.Millisecond`. -/
def millisecond : Int := 1000 * microsecond

/-- `time.Second`. -/
def second : Int := 1000 * millisecond

/-- `handshakeTimeout`. -/
def handshakeTimeout : Int := 5 * second

/-- `userTimeout`. -/
def userTimeout : Int := 120 * second

/-- `closeTimeout`. -/
def closeTimeout : Int := 30 * second

/-- `timeWaitDuration`. -/
def timeWaitDuration : Int := 240 * second

/-- `now.Before(t)`. -/
def before (now : Int) : Option Int → Bool
  | none => false
  | some t => now < t

/-- `now.Sub(t)`; the distance from the zero time is the largest duration. -/
def since (now : Int) : Option Int → Int
  | none => 2 ^ 63 - 1
  | some t => now - t

/-- `seqLess`. -/
def seqLess (a b : UInt32) : Bool := (a - b).toInt32 < 0

/-- `outbound`, without the connection. -/
structure Outbound where
  packet : TcpPkt
  endSeq : UInt32
  track : Bool
  deriving DecidableEq

/-- What a connection asks of its stack. -/
inductive Request where
  /-- `queue` of a segment of the connection. -/
  | queue (out : Outbound)
  /-- `reset`, with the segment that it queues; unless the stack is closed. -/
  | reset (packet : TcpPkt)
  /-- From the incomplete connections of the listener to those that can be accepted. -/
  | complete
  /-- Removal from the lists of the listener, from `conns` and from `ports`; with the state
  before. -/
  | remove (state : State)
  deriving DecidableEq

/-- `Conn`. -/
structure Conn where
  localAddr : Addr
  remoteAddr : Addr
  rd : Option Int
  wd : Option Int
  err : Option Err
  appClosed : Bool
  writeClosed : Bool
  listener : Option Nat
  state : State
  iss : UInt32
  irs : UInt32
  sndUna : UInt32
  sndNxt : UInt32
  rcvNxt : UInt32
  wlSeq : UInt32
  wlAck : UInt32
  peerWindow : UInt32
  peerMss : Nat
  tx : ByteBuffer
  rx : ByteBuffer
  inflight : Nat
  finSent : Bool
  recvFin : Bool
  finSeq : UInt32
  handshakeEnd : Option Int
  closeEnd : Option Int
  timeWaitEnd : Option Int
  progress : Option Int
  retransmitAt : Option Int
  sentAt : Option Int
  probeAt : Option Int
  rto : Int
  srtt : Int
  rttvar : Int
  probeInterval : Int
  rttValid : Bool
  pending : Option Outbound
  pendingAt : Option Int
  /-- The requests of the running call. -/
  requests : List Request
  deriving DecidableEq

/-- The error of `BuildTcpPkt`; it does not depend on the checksum. -/
def buildError (p : TcpPkt) (addr : Ipv4AddrPair) : Option String :=
  match buildTcpPkt false p addr with
  | .error e => some e
  | .ok _ => none

/-- The segment that `reset` queues as an answer to `p`. -/
def resetPkt (localAddr remoteAddr : Addr) (p : TcpPkt) : TcpPkt :=
  let reset : TcpPkt :=
    { payload := [], srcPort := localAddr.port, dstPort := remoteAddr.port, seqNum := 0, ackNum := 0
      flags := tcpFlagsRst, window := 0, mss := 0 }
  if p.Has tcpFlagsAck then { reset with seqNum := p.ackNum }
  else
    { reset with
      flags := reset.flags ||| tcpFlagsAck
      ackNum := p.seqNum + .ofNat p.payload.length + (if p.Has tcpFlagsSyn then 1 else 0) +
        (if p.Has tcpFlagsFin then 1 else 0) }

namespace Conn

/-- One more request. -/
def ask (c : Conn) (r : Request) : Conn := { c with requests := c.requests ++ [r] }

/-- `newConn`; the first sequence number depends on the secret of the stack and on the clock. -/
def new (localAddr remoteAddr : Addr) (iss : UInt32) (now : Int) : Conn where
  localAddr := localAddr
  remoteAddr := remoteAddr
  rd := none
  wd := none
  err := none
  appClosed := false
  writeClosed := false
  listener := none
  state := .closed
  iss := iss
  irs := 0
  sndUna := iss
  sndNxt := iss
  rcvNxt := 0
  wlSeq := 0
  wlAck := 0
  peerWindow := 0
  peerMss := 536
  tx := .new sendBufferSize
  rx := .new receiveBufferSize
  inflight := 0
  finSent := false
  recvFin := false
  finSeq := 0
  handshakeEnd := some (now + handshakeTimeout)
  closeEnd := none
  timeWaitEnd := none
  progress := none
  retransmitAt := none
  sentAt := none
  probeAt := none
  rto := second
  srtt := 0
  rttvar := 0
  probeInterval := 0
  rttValid := false
  pending := none
  pendingAt := none
  requests := []

/-- `fail`. -/
def fail (c : Conn) (err : Option Err) (reset : Bool) : Conn :=
  if c.state = .closed then c
  else
    let asked :=
      if reset ∧ c.state ≠ .synSent ∧ c.state ≠ .timeWait then
        -- a segment with the flag ACK makes a reset with the number `sndNxt`
        c.ask (.reset (resetPkt c.localAddr c.remoteAddr
          { payload := [], srcPort := 0, dstPort := 0, seqNum := 0, ackNum := c.sndNxt
            flags := tcpFlagsAck, window := 0, mss := 0 }))
      else c
    { asked.ask (.remove c.state) with state := .closed, err := err, pending := none, tx := .empty }

/-- The segment of `emit`. -/
def segment (c : Conn) (flags : UInt8) (seq : UInt32) (data : Bytes) : TcpPkt where
  payload := data
  srcPort := c.localAddr.port
  dstPort := c.remoteAddr.port
  seqNum := seq
  ackNum := c.rcvNxt
  flags := flags
  window := .ofNat c.rx.room
  mss := if flags &&& tcpFlagsSyn ≠ 0 then .ofNat mss else 0

/-- The `outbound` of `emit`. -/
def outbound (c : Conn) (flags : UInt8) (seq : UInt32) (data : Bytes) (track : Bool) :
    Outbound where
  packet := c.segment flags seq data
  endSeq := seq + .ofNat data.length + (if flags &&& tcpFlagsSyn ≠ 0 then 1 else 0) +
    (if flags &&& tcpFlagsFin ≠ 0 then 1 else 0)
  track := track

/-- `emit`. -/
def emit (c : Conn) (flags : UInt8) (seq : UInt32) (data : Bytes) (track : Bool) : Conn :=
  match buildError (c.segment flags seq data) ⟨c.localAddr.ip, c.remoteAddr.ip⟩ with
  | some e => c.fail (some (.text e)) false
  | none => c.ask (.queue (c.outbound flags seq data track))

/-- `ack`. -/
def ack (c : Conn) : Conn := c.emit tcpFlagsAck c.sndNxt [] false

/-- `enterTimeWait`. -/
def enterTimeWait (c : Conn) (now : Int) : Conn :=
  { c with
    state := .timeWait, timeWaitEnd := some (now + timeWaitDuration)
    pending := none, tx := .empty }

/-- `c.tx.peek(n)`, with a check that the queue has so many bytes, which the source does not
make. -/
def peekTx (c : Conn) (n : Nat) : Except Fault Bytes :=
  if c.tx.size < n then .error .overrun else .ok (c.tx.peek n)

/-- `pump`. -/
def pump (c : Conn) (now : Int) : Except Fault Conn :=
  if c.state ≠ .established ∧ c.state ≠ .closeWait then .ok c
  else if c.inflight ≠ 0 then .ok c
  else if c.peerWindow = 0 then
    if (c.tx.size ≠ 0 ∨ c.writeClosed) ∧ c.probeAt.isNone then
      .ok { c with probeInterval := c.rto, probeAt := some (now + c.rto) }
    else .ok c
  else if c.tx.size ≠ 0 then do
    let n := min (min (min c.tx.size c.peerMss) mss) c.peerWindow.toNat
    let data ← c.peekTx n
    let sent : Conn := { c with
      inflight := n, sndNxt := c.sndNxt + .ofNat n, sentAt := some now, rttValid := true
      retransmitAt := some (now + c.rto) }
    .ok (sent.emit (tcpFlagsAck ||| tcpFlagsPsh) c.sndNxt data true)
  else if c.writeClosed ∧ ¬ c.finSent then
    let sent : Conn := { c with
      finSent := true, finSeq := c.sndNxt, sndNxt := c.sndNxt + 1
      state := if c.state = .closeWait then .lastAck else .finWait1
      retransmitAt := some (now + c.rto) }
    .ok (sent.emit (tcpFlagsFin ||| tcpFlagsAck) c.sndNxt [] true)
  else .ok c

/-! ## `input` -/

/-- `input` in the state `synSent`. -/
def inputSynSent (c : Conn) (p : TcpPkt) : Conn :=
  if p.Has tcpFlagsAck ∧ p.ackNum ≠ c.sndNxt then
    if p.Has tcpFlagsRst then c else c.ask (.reset (resetPkt c.localAddr c.remoteAddr p))
  else if p.Has tcpFlagsRst then
    if p.Has tcpFlagsAck then c.fail (some (.text "tcp: connection refused")) false else c
  else if p.flags &&& (tcpFlagsSyn ||| tcpFlagsAck ||| tcpFlagsFin) ≠
    tcpFlagsSyn ||| tcpFlagsAck then c
  else
    ack { c with
      sndUna := p.ackNum, irs := p.seqNum, rcvNxt := p.seqNum + 1
      peerMss := if p.mss ≠ 0 then p.mss.toNat else c.peerMss
      peerWindow := p.window.toUInt32, wlSeq := p.seqNum, wlAck := p.ackNum
      state := .established, pending := none }

/-- `input` in the state `timeWait`. -/
def inputTimeWait (c : Conn) (p : TcpPkt) (now : Int) : Conn :=
  if p.Has tcpFlagsRst then c
  else if p.Has tcpFlagsFin ∧ p.seqNum + .ofNat p.payload.length + 1 = c.rcvNxt then
    ack { c with timeWaitEnd := some (now + timeWaitDuration) }
  else if ¬ p.Has tcpFlagsAck ∨ p.payload ≠ [] then c.ack
  else c

/-- `offset`: how far the segment starts behind the next number to receive. -/
def offset (c : Conn) (p : TcpPkt) : Int := (p.seqNum - c.rcvNxt).toInt32.toInt

/-- `segLen`. -/
def segLen (p : TcpPkt) : Nat :=
  p.payload.length + (if p.Has tcpFlagsSyn then 1 else 0) + (if p.Has tcpFlagsFin then 1 else 0)

/-- `acceptable`. -/
def Acceptable (c : Conn) (p : TcpPkt) : Prop :=
  (segLen p = 0 ∧ c.offset p = 0) ∨
    (0 < c.rx.room ∧ c.offset p < c.rx.room ∧
      ((segLen p = 0 ∧ 0 ≤ c.offset p) ∨ (0 < segLen p ∧ 0 < c.offset p + segLen p)))

instance (c : Conn) (p : TcpPkt) : Decidable (c.Acceptable p) :=
  inferInstanceAs (Decidable ((_ ∧ _) ∨ (_ ∧ _ ∧ ((_ ∧ _) ∨ (_ ∧ _)))))

/-- The end of the handshake of an accepted connection. -/
def establish (c : Conn) (p : TcpPkt) : Conn :=
  ask { c with state := .established, sndUna := p.ackNum, pending := none } .complete

/-- The window of the peer. -/
def updateWindow (c : Conn) (p : TcpPkt) (now : Int) : Conn :=
  if ¬ seqLess p.ackNum c.sndUna ∧
      (seqLess c.wlSeq p.seqNum ∨ (c.wlSeq = p.seqNum ∧ ¬ seqLess p.ackNum c.wlAck)) then
    { c with
      peerWindow := p.window.toUInt32, wlSeq := p.seqNum, wlAck := p.ackNum
      probeAt := if 0 < p.window then none else c.probeAt
      retransmitAt :=
        if 0 < p.window ∧ c.peerWindow = 0 ∧ 0 < c.inflight then some now else c.retransmitAt }
  else c

/-- The measurement of the round trip. -/
def updateRtt (c : Conn) (now : Int) : Conn :=
  if c.rttValid then
    let rtt := max (since now c.sentAt) microsecond
    let rttvar := if c.srtt = 0 then rtt.tdiv 2 else (3 * c.rttvar + |c.srtt - rtt|).tdiv 4
    let srtt := if c.srtt = 0 then rtt else (7 * c.srtt + rtt).tdiv 8
    { c with
      srtt := srtt, rttvar := rttvar
      rto := min (max (srtt + max (20 * millisecond) (4 * rttvar)) second) (60 * second)
      rttValid := false }
  else c

/-- The bytes that an acknowledgement of `n` numbers takes out of the send queue. -/
def consume (c : Conn) (n : Nat) (now : Int) : Except Fault Conn :=
  if 0 < c.inflight then do
    let consumed := min n c.inflight
    let tx ← c.tx.discard consumed
    .ok (updateRtt { c with tx := tx, inflight := c.inflight - consumed } now)
  else .ok c

/-- The state after the acknowledgement of the FIN. -/
def finAcknowledged (c : Conn) (now : Int) : Conn :=
  match c.state with
  | .finWait1 => { c with state := .finWait2 }
  | .closing => c.enterTimeWait now
  | .lastAck => c.fail none false
  | _ => c

/-- An acknowledgement. -/
def acknowledge (c : Conn) (p : TcpPkt) (now : Int) : Except Fault Conn :=
  if seqLess c.sndUna p.ackNum then do
    let c ← c.consume (p.ackNum - c.sndUna).toNat now
    let c := { c with
      sndUna := p.ackNum, progress := some now, retransmitAt := some (now + c.rto)
      pending := none }
    .ok (if c.finSent ∧ p.ackNum = c.finSeq + 1 then c.finAcknowledged now else c)
  else .ok c

/-- The payload without the bytes that are already there, for a segment at the offset. -/
def trimmed (p : TcpPkt) (offset : Int) : Bytes :=
  if offset < 0 then p.payload.drop (-offset).toNat else p.payload

/-- The offset of what is left. -/
def trimmedOffset (p : TcpPkt) (offset : Int) : Int :=
  if offset < 0 then offset + (min (-offset).toNat p.payload.length : Nat) else offset

/-- The data of a segment; `offset` is the one of its arrival. -/
def receive (c : Conn) (p : TcpPkt) (offset : Int) : Except Fault Conn :=
  if trimmedOffset p offset = 0 ∧ trimmed p offset ≠ [] ∧ ¬ c.recvFin then
    if c.appClosed then .ok (c.fail (some (.text "tcp: data received after close")) true)
    else do
      let (n, rx) ← c.rx.write (trimmed p offset)
      .ok { c with rx := rx, rcvNxt := c.rcvNxt + .ofNat n }
  else .ok c

/-- The state after the FIN of the peer. -/
def finReceived (c : Conn) (now : Int) : Conn :=
  match c.state with
  | .established => { c with state := .closeWait }
  | .finWait1 => { c with state := .closing }
  | .finWait2 => c.enterTimeWait now
  | _ => c

/-- The FIN of a segment; `window` and `receiveRight` are those of its arrival. -/
def receiveFin (c : Conn) (p : TcpPkt) (window : Nat) (receiveRight : UInt32) (now : Int) : Conn :=
  let finSeq := p.seqNum + .ofNat p.payload.length
  if p.Has tcpFlagsFin ∧ ¬ c.recvFin ∧ finSeq = c.rcvNxt ∧ 0 < window ∧
      seqLess finSeq receiveRight then
    finReceived { c with recvFin := true, rcvNxt := c.rcvNxt + 1 } now
  else c

/-- The answer to data or a FIN, and the next segment. -/
def respond (c : Conn) (p : TcpPkt) (now : Int) : Except Fault Conn :=
  (if p.payload ≠ [] ∨ p.Has tcpFlagsFin then c.ack else c).pump now

/-- `input` of an acceptable segment with an acknowledgement that is not ahead. -/
def inputAcceptable (c : Conn) (p : TcpPkt) (now : Int) : Except Fault Conn := do
  let window := c.rx.room
  let receiveRight := c.rcvNxt + .ofNat window
  let offset := c.offset p
  let c := if c.state = .synReceived then c.establish p else c
  let c ← (c.updateWindow p now).acknowledge p now
  -- a connection that has failed here is one where the source returns
  if c.state = .closed then .ok c
  else
    let c ← c.receive p offset
    if c.state = .closed then .ok c
    else (c.receiveFin p window receiveRight now).respond p now

/-- `input`. -/
def input (c : Conn) (p : TcpPkt) (now : Int) : Except Fault Conn :=
  if c.state = .synSent then .ok (c.inputSynSent p)
  else if c.state = .synReceived ∧
      p.flags &&& (tcpFlagsSyn ||| tcpFlagsAck ||| tcpFlagsRst) = tcpFlagsSyn ∧
        p.seqNum = c.irs then
    .ok (c.emit (tcpFlagsSyn ||| tcpFlagsAck) c.iss [] true)
  else if c.state = .timeWait then .ok (c.inputTimeWait p now)
  else if p.flags &&& (tcpFlagsSyn ||| tcpFlagsAck ||| tcpFlagsRst) = tcpFlagsSyn ||| tcpFlagsAck ∧
      p.seqNum = c.irs ∧ p.ackNum = c.iss + 1 then
    .ok c.ack
  else if p.Has tcpFlagsRst then
    if p.seqNum = c.rcvNxt then .ok (c.fail (some (.text "tcp: connection reset by peer")) false)
    else if c.Acceptable p then .ok c.ack
    else .ok c
  else if ¬ c.Acceptable p ∨ p.Has tcpFlagsSyn then .ok c.ack
  else if ¬ p.Has tcpFlagsAck then .ok c
  else if seqLess c.sndNxt p.ackNum then .ok c.ack
  else if c.state = .synReceived ∧ (p.ackNum ≠ c.sndNxt ∨ p.seqNum ≠ c.rcvNxt) then .ok c
  else c.inputAcceptable p now

/-! ## `tick` -/

/-- The timeouts that end a connection. -/
def Expired (c : Conn) (now : Int) : Prop :=
  ((c.state = .synSent ∨ c.state = .synReceived) ∧ before now c.handshakeEnd = false) ∨
    ((c.state ≠ .synSent ∧ c.state ≠ .synReceived) ∧
      ((c.closeEnd.isSome ∧ before now c.closeEnd = false) ∨
        (c.tx.size ≠ 0 ∧ c.progress.isSome ∧ userTimeout ≤ since now c.progress)))

instance (c : Conn) (now : Int) : Decidable (c.Expired now) :=
  inferInstanceAs (Decidable ((_ ∧ _) ∨ (_ ∧ _)))

/-- The segment that the output has refused goes into the queue again. -/
def requeue (c : Conn) (out : Outbound) (now : Int) : Conn :=
  let c := { c with pending := none, pendingAt := some (now + 100 * millisecond) }
  if seqLess c.sndUna out.endSeq then c.ask (.queue out) else c

/-- The probe of a closed window. -/
def probe (c : Conn) (now : Int) : Except Fault Conn := do
  let c := if c.probeAt.isNone then { c with probeInterval := c.rto, probeAt := some (now + c.rto) }
    else c
  if before now c.probeAt then .ok c
  else
    let c := { c with rttValid := false }
    let c ←
      if c.tx.size ≠ 0 then do
        let c := if c.inflight = 0 then { c with inflight := 1, sndNxt := c.sndNxt + 1 } else c
        let data ← c.peekTx 1
        pure (c.emit tcpFlagsAck c.sndUna data true)
      else pure (c.emit tcpFlagsAck (c.sndNxt - 1) [0] false)
    let interval := min (c.probeInterval * 2) (60 * second)
    .ok { c with probeInterval := interval, probeAt := some (now + interval) }

/-- The repetition of what is not acknowledged. -/
def retransmit (c : Conn) (now : Int) : Except Fault Conn :=
  if c.sndUna ≠ c.sndNxt ∧ before now c.retransmitAt = false then do
    let rto := min (c.rto * 2) (60 * second)
    let c := { c with rttValid := false, rto := rto, retransmitAt := some (now + rto) }
    if c.inflight ≠ 0 then
      let data ← c.peekTx c.inflight
      .ok (c.emit (tcpFlagsAck ||| tcpFlagsPsh) c.sndUna data true)
    else if c.finSent then .ok (c.emit (tcpFlagsAck ||| tcpFlagsFin) c.finSeq [] true)
    else .ok c
  else .ok c

/-- `tick` of a connection that is past its handshake. -/
def tickConnected (c : Conn) (now : Int) : Except Fault Conn :=
  if c.peerWindow = 0 ∧ (c.tx.size ≠ 0 ∨ (c.writeClosed ∧ ¬ c.finSent)) then c.probe now
  else do
    let c ← c.retransmit now
    c.pump now

/-- `tick`. -/
def tick (c : Conn) (now : Int) : Except Fault Conn :=
  if c.state = .closed then .ok c
  else if c.state = .timeWait then
    .ok (if before now c.timeWaitEnd then c else c.fail none false)
  else if c.Expired now then .ok (c.fail (some .timeout) true)
  else
    match c.pending with
    | some out =>
      if before now c.pendingAt then
        if c.state = .synSent ∨ c.state = .synReceived then .ok c else c.tickConnected now
      else .ok (c.requeue out now)
    | none => if c.state = .synSent ∨ c.state = .synReceived then .ok c else c.tickConnected now

/-! ## The calls of the application -/

/-- What a round of `Read` or `Write` ends with. -/
inductive Reply (α : Type) where
  | returns (result : α) (err : Option Err)
  | waits (result : α)
  deriving DecidableEq

/-- A round of `Read` into a slice of `n` bytes; the result is what it copied. -/
def read (c : Conn) (n : Nat) (now : Int) : Except Fault (Reply Bytes × Conn) :=
  if c.appClosed then .ok (.returns [] (some .errClosed), c)
  else if c.rd.isSome ∧ before now c.rd = false then .ok (.returns [] (some .deadlineExceeded), c)
  else if n = 0 then .ok (.returns [] none, c)
  else if 0 < c.rx.size then do
    let (data, rx) ← c.rx.read n
    let c := { c with rx := rx }
    .ok (.returns data none, if c.state ≠ .closed ∧ c.state ≠ .timeWait then c.ack else c)
  else if c.err.isSome then .ok (.returns [] c.err, c)
  else if c.recvFin then .ok (.returns [] (some .eof), c)
  else if c.state = .closed then .ok (.returns [] (some .errClosed), c)
  else .ok (.waits [], c)

/-- A round of `Write`, where `p` is what is left of the data; the result is what it took. -/
def write (c : Conn) (p : Bytes) (now : Int) : Except Fault (Reply Bytes × Conn) :=
  if c.appClosed ∨ c.writeClosed then .ok (.returns [] (some .errClosed), c)
  else if c.err.isSome then .ok (.returns [] c.err, c)
  else if c.state ≠ .established ∧ c.state ≠ .closeWait then .ok (.returns [] (some .errClosed), c)
  else if c.wd.isSome ∧ before now c.wd = false then .ok (.returns [] (some .deadlineExceeded), c)
  else if p = [] then .ok (.returns [] none, c)
  else do
    let c := if c.tx.size = 0 then { c with progress := some now } else c
    let (n, tx) ← c.tx.write p
    let c ← pump { c with tx := tx } now
    .ok (if n = p.length then .returns p none else .waits (p.take n), c)

/-- `CloseWrite`. -/
def closeWrite (c : Conn) (now : Int) : Except Fault (Option Err × Conn) :=
  if c.appClosed ∨ c.state = .closed then .ok (some .errClosed, c)
  else if ¬ c.writeClosed then
    (pump { c with writeClosed := true, closeEnd := some (now + closeTimeout) } now).map (none, ·)
  else .ok (none, c)

/-- `Close`. -/
def close (c : Conn) (now : Int) : Except Fault (Option Err × Conn) :=
  if c.appClosed then .ok (some .errClosed, c)
  else
    let c := { c with appClosed := true, writeClosed := true }
    if c.rx.size ≠ 0 then .ok (none, c.fail (some .errClosed) true)
    else if c.state ≠ .closed ∧ c.state ≠ .timeWait then
      (pump { c with closeEnd := some (now + closeTimeout) } now).map (none, ·)
    else .ok (none, c)

/-- `SetDeadline`, `SetReadDeadline` and `SetWriteDeadline`: the read and the write deadline, each
set or left. -/
def setDeadlines (c : Conn) (rd wd : Option (Option Int)) : Option Err × Conn :=
  if c.appClosed ∨ c.state = .closed then (some .errClosed, c)
  else (none, { c with rd := rd.getD c.rd, wd := wd.getD c.wd })

/-! ## The output queue -/

/-- The test of `run` before a segment is sent. -/
def Sendable (c : Conn) (out : Outbound) : Prop :=
  c.state ≠ .closed ∧ (out.track → seqLess c.sndUna out.endSeq)

instance (c : Conn) (out : Outbound) : Decidable (c.Sendable out) :=
  inferInstanceAs (Decidable (_ ∧ _))

/-- What `run` does with a segment that the output has refused. -/
def unsent (c : Conn) (out : Outbound) : Conn :=
  if out.track ∧ c.state ≠ .closed ∧ seqLess c.sndUna out.endSeq then
    { c with pending := some out } else c

/-- The connection of `Dial`. -/
def dial (localAddr remoteAddr : Addr) (iss : UInt32) (now : Int) : Conn :=
  emit { new localAddr remoteAddr iss now with state := .synSent, sndNxt := iss + 1 }
    tcpFlagsSyn iss [] true

/-- The connection that `Input` creates for a SYN to a listener. -/
def accept (localAddr remoteAddr : Addr) (iss : UInt32) (listener : Nat) (p : TcpPkt)
    (now : Int) : Conn :=
  emit { new localAddr remoteAddr iss now with
    listener := some listener, state := .synReceived, irs := p.seqNum, rcvNxt := p.seqNum + 1
    peerMss := if p.mss ≠ 0 then p.mss.toNat else 536
    peerWindow := p.window.toUInt32, wlSeq := p.seqNum, wlAck := p.ackNum, sndNxt := iss + 1 }
    (tcpFlagsSyn ||| tcpFlagsAck) iss [] true

end Conn

end Halo.Tcp
