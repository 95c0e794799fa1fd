import Halo.Base.BinHeap
import Halo.Base.Fields
import Halo.Base.Serial
import Halo.Kcp.Enet

/-!
# KCP segments (`protocol/kcp/kcp.go`)

A segment on the wire is a header and its data. The header has 28 bytes, little endian, and four
more bytes with a hash of the data when the byte check is on; `byteCheck` is the hash function of
the mode, `none` when the check is off. `SegmentHeap` keeps the segments that arrived out of order.

* `decodeHeader_encode`: the fields of a header are read back.
* `SegmentHeap.push_perm`, `SegmentHeap.pop_perm`: what the heap holds.
-/

namespace Halo.Kcp

/-- `IKCP_CMD_PUSH`. -/
def cmdPush : UInt8 := 81

/-- `IKCP_CMD_ACK`. -/
def cmdAck : UInt8 := 82

/-- `IKCP_CMD_WASK`. -/
def cmdWask : UInt8 := 83

/-- `IKCP_CMD_WINS`. -/
def cmdWins : UInt8 := 84

/-- `_itimediff`: the signed distance of two wrapping numbers. -/
def itimediff (later earlier : UInt32) : Int32 := (later - earlier).toInt32

theorem itimediff_nonneg {a b : UInt32} : 0 ≤ itimediff a b ↔ (a - b).toNat < 2 ^ 31 :=
  toInt32_nonneg

theorem itimediff_neg {a b : UInt32} : itimediff a b < 0 ↔ 2 ^ 31 ≤ (a - b).toNat := toInt32_neg

theorem itimediff_pos {a b : UInt32} :
    0 < itimediff a b ↔ 0 < (a - b).toNat ∧ (a - b).toNat < 2 ^ 31 :=
  toInt32_pos

/-- `segment`; freed data is empty. -/
structure Segment where
  conv : UInt64
  cmd : UInt8
  frg : UInt8
  wnd : UInt16
  ts : UInt32
  sn : UInt32
  una : UInt32
  rto : UInt32
  xmit : UInt32
  resendts : UInt32
  fastack : UInt32
  acked : UInt32
  data : Bytes
  deriving DecidableEq

/-- The zero value, with data (`newSegment`). -/
def Segment.ofData (data : Bytes) : Segment := ⟨0, 0, 0, 0, 0, 0, 0, 0, 0, 0, 0, 0, data⟩

/-- `IKCP_OVERHEAD`, by whether the byte check is on. -/
def ikcpOverhead (byteCheckModeEnable : Bool) : Nat := 28 + if byteCheckModeEnable then 4 else 0

variable (byteCheck : Option (Bytes → UInt32))

/-- `IKCP_OVERHEAD`. -/
def overhead : Nat := ikcpOverhead byteCheck.isSome

/-- The bytes of the hash in a header: the hash of the data of a push segment, else zero. -/
def hashBytes (cmd : UInt8) (data : Bytes) : Bytes :=
  match byteCheck with
  | none => []
  | some hash => leBytes 4 (if cmd = cmdPush then (hash data).toNat else 0)

/-- The header that `segment.encode` writes. -/
def Segment.encode (seg : Segment) : Bytes :=
  leBytes 8 seg.conv.toNat ++ [seg.cmd, seg.frg] ++ leBytes 2 seg.wnd.toNat ++
    leBytes 4 seg.ts.toNat ++ leBytes 4 seg.sn.toNat ++ leBytes 4 seg.una.toNat ++
    leBytes 4 seg.data.length ++ hashBytes byteCheck seg.cmd seg.data

/-- A segment on the wire. -/
def Segment.wire (seg : Segment) : Bytes := seg.encode byteCheck ++ seg.data

/-- The little-endian number of `w` bytes from index `i`. -/
def leAt (data : Bytes) (i w : Nat) : Nat := ofLe ((data.drop i).take w)

/-- The fields of a header, as `KCP.Input` reads them. -/
structure Header where
  conv : UInt64
  cmd : UInt8
  frg : UInt8
  wnd : UInt16
  ts : UInt32
  sn : UInt32
  una : UInt32
  length : UInt32
  hash : UInt32
  deriving DecidableEq

/-- The reads of `KCP.Input` in a header; the hash is read when the check is on. -/
def decodeHeader (data : Bytes) : Header :=
  ⟨le64 data, byteAt data 8, byteAt data 9, .ofNat (leAt data 10 2), .ofNat (leAt data 12 4),
    .ofNat (leAt data 16 4), .ofNat (leAt data 20 4), .ofNat (leAt data 24 4),
    if byteCheck.isSome then .ofNat (leAt data 28 4) else 0⟩

/-! ## Headers -/

theorem length_hashBytes (cmd : UInt8) (data : Bytes) :
    (hashBytes byteCheck cmd data).length = if byteCheck.isSome then 4 else 0 := by
  unfold hashBytes
  cases byteCheck <;> simp

@[simp] theorem length_encode (seg : Segment) :
    (seg.encode byteCheck).length = overhead byteCheck := by
  simp only [Segment.encode, List.length_append, List.length_cons, List.length_nil, length_leBytes,
    length_hashBytes, overhead, ikcpOverhead]

@[simp] theorem length_wire (seg : Segment) :
    (seg.wire byteCheck).length = overhead byteCheck + seg.data.length := by
  simp [Segment.wire]

/-- The fields of a header are read back. -/
theorem decodeHeader_encode (seg : Segment) (rest : Bytes) :
    decodeHeader byteCheck (seg.encode byteCheck ++ rest) =
      ⟨seg.conv, seg.cmd, seg.frg, seg.wnd, seg.ts, seg.sn, seg.una, .ofNat seg.data.length,
        match byteCheck with
        | none => 0
        | some hash => if seg.cmd = cmdPush then hash seg.data else 0⟩ := by
  -- each field is the number that stands at its index
  have hconv : leAt (seg.encode byteCheck ++ rest) 0 8 = seg.conv.toNat % 256 ^ 8 :=
    ofLe_leBytes 8 _
  have hwnd : leAt (seg.encode byteCheck ++ rest) 10 2 = seg.wnd.toNat % 256 ^ 2 := ofLe_leBytes 2 _
  have hts : leAt (seg.encode byteCheck ++ rest) 12 4 = seg.ts.toNat % 256 ^ 4 := ofLe_leBytes 4 _
  have hsn : leAt (seg.encode byteCheck ++ rest) 16 4 = seg.sn.toNat % 256 ^ 4 := ofLe_leBytes 4 _
  have huna : leAt (seg.encode byteCheck ++ rest) 20 4 = seg.una.toNat % 256 ^ 4 := ofLe_leBytes 4 _
  have hlen : leAt (seg.encode byteCheck ++ rest) 24 4 = seg.data.length % 256 ^ 4 :=
    ofLe_leBytes 4 _
  have hcmd : byteAt (seg.encode byteCheck ++ rest) 8 = seg.cmd := rfl
  have hfrg : byteAt (seg.encode byteCheck ++ rest) 9 = seg.frg := rfl
  have hconv' : le64 (seg.encode byteCheck ++ rest) = seg.conv := by
    rw [le64, ← List.drop_zero (l := seg.encode byteCheck ++ rest)]
    exact (congrArg UInt64.ofNat hconv).trans (by simp)
  have h32 (x : UInt32) : UInt32.ofNat (x.toNat % 256 ^ 4) = x := by simp
  have h16 : UInt16.ofNat (seg.wnd.toNat % 256 ^ 2) = seg.wnd := by simp
  have hlen' : UInt32.ofNat (seg.data.length % 256 ^ 4) = .ofNat seg.data.length := by
    apply UInt32.toNat_inj.mp
    simp
  rw [decodeHeader, hconv', hcmd, hfrg, hwnd, hts, hsn, huna, hlen, h16, h32, h32, h32, hlen']
  cases byteCheck with
  | none => rfl
  | some hash =>
    have hhash : leAt (seg.encode (some hash) ++ rest) 28 4 =
        (if seg.cmd = cmdPush then (hash seg.data).toNat else 0) % 256 ^ 4 := ofLe_leBytes 4 _
    rw [hhash]
    by_cases hpush : seg.cmd = cmdPush
    · simp [hpush]
    · simp [hpush]

/-! ## The segments out of order -/

/-- `segmentHeap`: the array of a heap ordered by sequence number, and the numbers in it. -/
structure SegmentHeap where
  segments : List Segment
  marks : Finset UInt32

namespace SegmentHeap

/-- `less`: an earlier sequence number. -/
def less (a b : Segment) : Bool := 0 < itimediff b.sn a.sn

/-- `newSegmentHeap`. -/
def newSegmentHeap : SegmentHeap := ⟨[], ∅⟩

/-- `Push`. -/
def push (h : SegmentHeap) (seg : Segment) : SegmentHeap :=
  ⟨BinHeap.push less h.segments seg, insert seg.sn h.marks⟩

/-- `Pop`. -/
def pop (h : SegmentHeap) : Option (Segment × SegmentHeap) :=
  (BinHeap.pop less h.segments).map fun (result, rest) => (result, ⟨rest, h.marks.erase result.sn⟩)

/-- `Has`. -/
def has (h : SegmentHeap) (sn : UInt32) : Bool := sn ∈ h.marks

theorem push_perm (h : SegmentHeap) (seg : Segment) :
    (h.push seg).segments.Perm (seg :: h.segments) :=
  BinHeap.push_perm h.segments seg

theorem pop_perm {h h' : SegmentHeap} {seg : Segment} (hpop : h.pop = some (seg, h')) :
    (seg :: h'.segments).Perm h.segments := by
  unfold pop at hpop
  obtain ⟨⟨x, rest⟩, hx, heq⟩ := Option.map_eq_some_iff.mp hpop
  cases heq
  exact BinHeap.pop_perm hx

end SegmentHeap

end Halo.Kcp
