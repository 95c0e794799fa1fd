import Halo.Base.Bytes
import Halo.Base.Trace

/-!
# The byte queues of a TCP connection (`protocol/tcp/buffer.go`)

`byteBuffer` is a queue of bytes in a slice that is used in a circle. The bounds of `head` and
`size` are fields of the structure; the empty slice, which a closed connection has, is one of its
values. There the remainder by the length of the slice is a division by zero, which `write` and
`discard` report.

`contents` is the queue as a list.

* `write_eq`: `write` appends as many bytes as there is room for.
* `peek_eq`, `discard_eq`, `read_eq`: the bytes at the front.
* `runs_as_bounded_fifo`: every run of calls on a slice that is not empty.
-/

namespace Halo.Tcp

open List

/-- A run-time fault. -/
inductive Fault where
  /-- The remainder by the length of an empty slice. -/
  | divideByZero
  /-- More bytes are taken from a queue than it has. The source goes on, with a negative size. -/
  | overrun
  deriving DecidableEq

/-- `copy(dst[i:], src)`. -/
def copyAt (dst : Bytes) (i : Nat) (src : Bytes) : Bytes :=
  dst.take i ++ src.take (dst.length - i) ++ dst.drop (i + src.length)

/-- `byteBuffer`. -/
structure ByteBuffer where
  data : Bytes
  head : Nat
  size : Nat
  head_lt : 0 < data.length → head < data.length
  size_le : size ≤ data.length
  deriving DecidableEq

theorem length_copyAt {dst : Bytes} {i : Nat} (h : i ≤ dst.length) (src : Bytes) :
    (copyAt dst i src).length = dst.length := by
  simp only [copyAt, length_append, length_take, length_drop]
  omega

theorem getElem?_copyAt {dst src : Bytes} {i : Nat} (h : i + src.length ≤ dst.length) (k : Nat) :
    (copyAt dst i src)[k]? = if i ≤ k ∧ k < i + src.length then src[k - i]? else dst[k]? := by
  have htake : src.take (dst.length - i) = src := take_of_length_le (by omega)
  rw [copyAt, htake]
  by_cases hlow : k < i
  · rw [if_neg (by omega), append_assoc, getElem?_append_left (by simp; omega),
      getElem?_take_of_lt hlow]
  by_cases hhigh : k < i + src.length
  · rw [if_pos (by omega), getElem?_append_left (by simp; omega),
      getElem?_append_right (by simp; omega), length_take, Nat.min_eq_left (by omega)]
  · rw [if_neg (by omega), getElem?_append_right (by simp; omega), getElem?_drop]
    congr 1
    simp only [length_append, length_take]
    omega

/-- The copy to the place behind a first part. -/
theorem copyAt_append {a c src : Bytes} (h : src.length ≤ c.length) :
    copyAt (a ++ c) a.length src = a ++ src ++ c.drop src.length := by
  rw [copyAt, take_left, take_of_length_le (by simp; omega), drop_append,
    drop_of_length_le (by omega), nil_append, Nat.add_sub_cancel_left]

/-- An index that passes the end of a circle at most once. -/
theorem mod_eq_ite {i k n : Nat} (hi : i < n) (hk : k ≤ n) :
    (i + k) % n = if i + k < n then i + k else i + k - n := by
  split
  · exact Nat.mod_eq_of_lt ‹_›
  · rw [Nat.mod_eq_sub_mod (by omega), Nat.mod_eq_of_lt (by omega)]

namespace ByteBuffer

/-- `byteBuffer{data: make([]byte, n)}`. -/
def new (n : Nat) : ByteBuffer where
  data := .replicate n 0
  head := 0
  size := 0
  head_lt := id
  size_le := Nat.zero_le _

/-- `byteBuffer{}`. -/
def empty : ByteBuffer := new 0

/-- The free room. -/
def room (b : ByteBuffer) : Nat := b.data.length - b.size

/-- The slice after `write` of `n` bytes of `p`. -/
def stored (b : ByteBuffer) (p : Bytes) (n : Nat) : Bytes :=
  let tail := (b.head + b.size) % b.data.length
  let first := min n (b.data.length - tail)
  copyAt (copyAt b.data tail (p.take first)) 0 ((p.take n).drop first)

variable {b : ByteBuffer}

theorem length_stored (h : 0 < b.data.length) (p : Bytes) (n : Nat) :
    (b.stored p n).length = b.data.length := by
  rw [stored, length_copyAt (Nat.zero_le _), length_copyAt (Nat.le_of_lt (Nat.mod_lt _ h))]

/-- `write`; the result is the number of bytes that it took. -/
def write (b : ByteBuffer) (p : Bytes) : Except Fault (Nat × ByteBuffer) :=
  if h : b.data.length = 0 then .error .divideByZero
  else
    let n := min p.length b.room
    .ok (n, {
      data := b.stored p n
      head := b.head
      size := b.size + n
      head_lt := by
        rw [length_stored (Nat.pos_of_ne_zero h)]
        exact b.head_lt
      size_le := by
        have := b.size_le
        rw [length_stored (Nat.pos_of_ne_zero h)]
        unfold n room
        omega })

/-- `peek`. -/
def peek (b : ByteBuffer) (n : Nat) : Bytes :=
  let n := min n b.size
  let first := min n (b.data.length - b.head)
  (b.data.drop b.head).take first ++ b.data.take (n - first)

/-- `discard`. -/
def discard (b : ByteBuffer) (n : Nat) : Except Fault ByteBuffer :=
  if b.data.length = 0 then .error .divideByZero
  else if b.size < n then .error .overrun
  else .ok {
    data := b.data
    head := (b.head + n) % b.data.length
    size := b.size - n
    head_lt := Nat.mod_lt _
    size_le := Nat.le_trans (Nat.sub_le _ _) b.size_le }

/-- `read` into a slice of `n` bytes; the result is what it copied. -/
def read (b : ByteBuffer) (n : Nat) : Except Fault (Bytes × ByteBuffer) :=
  (b.discard (min n b.size)).map (b.peek n, ·)

/-! ## The queue -/

/-- The queue, from the front. -/
def contents (b : ByteBuffer) : Bytes := (b.data.rotate b.head).take b.size

@[simp] theorem length_contents (b : ByteBuffer) : b.contents.length = b.size := by
  simp [contents, b.size_le]

@[simp] theorem contents_new (n : Nat) : (new n).contents = [] := rfl

@[simp] theorem size_new (n : Nat) : (new n).size = 0 := rfl

@[simp] theorem length_data_new (n : Nat) : (new n).data.length = n := length_replicate

theorem getElem?_contents {b : ByteBuffer} {k : Nat} (hk : k < b.size) :
    b.contents[k]? = b.data[(b.head + k) % b.data.length]? := by
  have := b.size_le
  rw [contents, getElem?_take_of_lt hk, getElem?_rotate (by omega), Nat.add_comm]

theorem peek_eq (b : ByteBuffer) (n : Nat) : b.peek n = b.contents.take n := by
  have hsize := b.size_le
  rcases Nat.eq_zero_or_pos b.data.length with h | h
  · have hnil : b.data = [] := length_eq_zero_iff.mp h
    simp [peek, contents, hnil]
  · have hhead := b.head_lt h
    rw [contents, take_take, rotate_eq_drop_append_take (Nat.le_of_lt hhead), take_append,
      length_drop, peek]
    congr 1
    · rcases Nat.le_total (min n b.size) (b.data.length - b.head) with hle | hle
      · rw [Nat.min_eq_left hle]
      · rw [Nat.min_eq_right hle, take_of_length_le (by simp), take_of_length_le (by simp; omega)]
    · rw [take_take]
      congr 1
      omega

theorem length_peek_le (b : ByteBuffer) (n : Nat) : (b.peek n).length ≤ n := by
  rw [peek_eq]
  exact length_take_le _ _

theorem discard_eq {n : Nat} (h : 0 < b.data.length) (hn : n ≤ b.size) :
    ∃ b', b.discard n = .ok b' ∧ b'.contents = b.contents.drop n ∧ b'.data.length = b.data.length ∧
      b'.size = b.size - n := by
  have hsize := b.size_le
  unfold discard
  rw [if_neg (Nat.ne_of_gt h), if_neg (Nat.not_lt.mpr hn)]
  refine ⟨_, rfl, ext_getElem? fun k => ?_, rfl, rfl⟩
  by_cases hk : k < b.size - n
  · rw [getElem?_contents hk, getElem?_drop, getElem?_contents (by omega), Nat.mod_add_mod,
      Nat.add_assoc]
  · rw [getElem?_eq_none (by simpa using hk), getElem?_eq_none (by simp; omega)]

theorem read_eq (h : 0 < b.data.length) (n : Nat) :
    ∃ b', b.read n = .ok (b.contents.take n, b') ∧ b'.contents = b.contents.drop n ∧
      b'.data.length = b.data.length ∧ b'.size = b.size - n := by
  obtain ⟨b', heq, hcontents, hlen, hsize⟩ := discard_eq h (Nat.min_le_right n b.size)
  refine ⟨b', by rw [read, heq, peek_eq]; rfl, ?_, hlen, by omega⟩
  rw [hcontents]
  rcases Nat.le_total n b.size with hn | hn
  · rw [Nat.min_eq_left hn]
  · rw [Nat.min_eq_right hn, drop_of_length_le (by simp), drop_of_length_le (by simpa using hn)]

/-- The cells that `write` of `n` bytes changes are the next ones after the queue. -/
theorem getElem?_stored {b : ByteBuffer} {p : Bytes} {n k : Nat} (h : 0 < b.data.length)
    (hn : n ≤ p.length) (hroom : b.size + n ≤ b.data.length) (hk : k < b.size + n) :
    (b.stored p n)[(b.head + k) % b.data.length]? =
      if k < b.size then b.data[(b.head + k) % b.data.length]? else p[k - b.size]? := by
  have hhead := b.head_lt h
  have htail := mod_eq_ite hhead b.size_le
  have htailLt := Nat.mod_lt (b.head + b.size) h
  have hindex := mod_eq_ite hhead (show k ≤ b.data.length by omega)
  unfold stored
  generalize (b.head + b.size) % b.data.length = tail at htail htailLt ⊢
  generalize (b.head + k) % b.data.length = i at hindex ⊢
  dsimp only
  generalize hfirst : min n (b.data.length - tail) = first
  have hlenFirst : (p.take first).length = first := by
    rw [length_take]
    omega
  have hlenRest : ((p.take n).drop first).length = n - first := by
    rw [length_drop, length_take, Nat.min_eq_left hn]
  rw [getElem?_copyAt (by rw [length_copyAt (by omega), hlenRest]; omega),
    getElem?_copyAt (by rw [hlenFirst]; omega), hlenFirst, hlenRest]
  by_cases hold : k < b.size
  · rw [if_pos hold, if_neg (by split at htail <;> split at hindex <;> omega),
      if_neg (by split at htail <;> split at hindex <;> omega)]
  rw [if_neg hold]
  -- a new byte is in the part up to the end of the slice or in the one from its beginning
  by_cases hpart : k - b.size < first
  · have hi : i = tail + (k - b.size) := by split at htail <;> split at hindex <;> omega
    rw [if_neg (by omega), if_pos (by omega), hi, Nat.add_sub_cancel_left,
      getElem?_take_of_lt hpart]
  · have hi : first + i = k - b.size := by split at htail <;> split at hindex <;> omega
    rw [if_pos (by omega), Nat.sub_zero, getElem?_drop, hi, getElem?_take_of_lt (by omega)]

theorem write_eq (h : 0 < b.data.length) (p : Bytes) :
    ∃ b', b.write p = .ok (min p.length b.room, b') ∧ b'.contents = b.contents ++ p.take b.room ∧
      b'.data.length = b.data.length ∧ b'.size = b.size + min p.length b.room := by
  have hsize := b.size_le
  unfold write
  rw [dif_neg (Nat.ne_of_gt h)]
  refine ⟨_, rfl, ext_getElem? fun k => ?_, length_stored h _ _, rfl⟩
  by_cases hk : k < b.size + min p.length b.room
  · rw [getElem?_contents hk, length_stored h, getElem?_stored h (Nat.min_le_left _ _)
      (by unfold room; omega) hk]
    split
    · rw [getElem?_append_left (by simpa using ‹_›), getElem?_contents ‹_›]
    · rw [getElem?_append_right (by simpa using Nat.le_of_not_lt ‹_›), length_contents,
        getElem?_take_of_lt (by omega)]
  · rw [getElem?_eq_none (by simpa using hk), getElem?_eq_none (by simp; omega)]

/-- `read` as the source has it: the two copies into `p`, the number of bytes, and `p` after the
call. -/
def readInto (b : ByteBuffer) (p : Bytes) : Except Fault (Nat × Bytes × ByteBuffer) :=
  let n := min p.length b.size
  let first := min n (b.data.length - b.head)
  let p' := copyAt p 0 ((b.data.drop b.head).take first)
  let p'' := copyAt p' first (b.data.take (n - first))
  (b.discard n).map (n, p'', ·)

/-- The caller's slice has the bytes that `read` took at its front, and its own ones behind them. -/
theorem readInto_eq (b : ByteBuffer) (p : Bytes) :
    b.readInto p = (b.read p.length).map fun (got, b') =>
      (min p.length b.size, got ++ p.drop b.size, b') := by
  have hsize := b.size_le
  have hdrop : p.drop b.size = p.drop (min p.length b.size) := by
    rcases Nat.le_total p.length b.size with h | h
    · rw [Nat.min_eq_left h, drop_length, drop_of_length_le h]
    · rw [Nat.min_eq_right h]
  unfold readInto read peek
  rw [hdrop]
  generalize hn : min p.length b.size = n
  dsimp only
  generalize hfirst : min n (b.data.length - b.head) = first
  have hfront : ((b.data.drop b.head).take first).length = first := by
    rw [length_take, length_drop]
    omega
  have hrest : (b.data.take (n - first)).length = n - first := by
    rw [length_take]
    omega
  generalize (b.data.drop b.head).take first = front at hfront ⊢
  generalize b.data.take (n - first) = rest at hrest ⊢
  -- `p` in three parts: where each copy goes, and what is left
  have hone : copyAt p 0 front = front ++ p.drop front.length := copyAt_append (a := []) (by omega)
  have htwo : copyAt (copyAt p 0 front) first rest = front ++ rest ++ p.drop n := by
    rw [hone, ← hfront, copyAt_append (by simp; omega), drop_drop, hrest]
    congr 2
    omega
  rw [htwo]
  cases b.discard n <;> rfl

/-! ## Runs of calls -/

end ByteBuffer

/-- A call on the queue. -/
inductive BufferCall where
  | write (p : Bytes)
  | peek (n : Nat)
  | read (p : Bytes)
  | discard (n : Nat)

/-- What a call returns; for `read`, also the caller's slice after it. -/
inductive BufferReply where
  | count (n : Nat)
  | bytes (p : Bytes)
  | filled (n : Nat) (p : Bytes)
  | done

/-- A call on the buffer. -/
def ByteBuffer.step (b : ByteBuffer) : BufferCall → Except Fault (ByteBuffer × List BufferReply)
  | .write p => (b.write p).map fun (n, b') => (b', [.count n])
  | .peek n => .ok (b, [.bytes (b.peek n)])
  | .read p => (b.readInto p).map fun (n, p', b') => (b', [.filled n p'])
  | .discard n => (b.discard n).map (·, [.done])

/-- A call on a plain list of at most `room` bytes: a write appends the longest beginning that
fits. -/
def BoundedFifo.step (room : Nat) (q : Bytes) : BufferCall → Bytes × List BufferReply
  | .write p => (q ++ p.take (room - q.length), [.count (p.take (room - q.length)).length])
  | .peek n => (q, [.bytes (q.take n)])
  | .read p =>
    (q.drop p.length, [.filled (q.take p.length).length (q.take p.length ++ p.drop q.length)])
  | .discard n => (q.drop n, [.done])

/-- A caller discards no more than there is. -/
def BufferCall.allowed (q : Bytes) : BufferCall → Bool
  | .discard n => n ≤ q.length
  | _ => true

namespace ByteBuffer

/-- The list that the buffer stands for, in a slice of `n > 0` bytes. -/
structure Holds (n : Nat) (b : ByteBuffer) (q : Bytes) : Prop where
  contents : b.contents = q
  length : b.data.length = n
  pos : 0 < b.data.length

/-- The slice has `n` bytes, and the numbers of the queue are in its range. -/
def InRange (n : Nat) (b : ByteBuffer) : Prop :=
  b.data.length = n ∧ b.head < b.data.length ∧ b.size ≤ b.data.length

theorem step_holds {n : Nat} {b : ByteBuffer} {q : Bytes} {c : BufferCall} (h : Holds n b q)
    (hc : c.allowed q) : ∃ b', b.step c = .ok (b', (BoundedFifo.step n q c).2) ∧
      Holds n b' (BoundedFifo.step n q c).1 := by
  obtain ⟨rfl, rfl, hpos⟩ := h
  cases c with
  | write p =>
    obtain ⟨b', hok, hcontents, hlen, -⟩ := write_eq hpos p
    refine ⟨b', ?_, ?_, hlen, hlen ▸ hpos⟩
    · rw [step, hok, BoundedFifo.step, length_take, length_contents, Nat.min_comm]
      rfl
    · rw [hcontents, BoundedFifo.step, length_contents]
      rfl
  | peek n => exact ⟨b, by rw [step, peek_eq]; rfl, rfl, rfl, hpos⟩
  | read p =>
    obtain ⟨b', hok, hcontents, hlen, -⟩ := read_eq hpos p.length
    refine ⟨b', ?_, hcontents, hlen, hlen ▸ hpos⟩
    rw [step, readInto_eq, hok, BoundedFifo.step, length_take, length_contents]
    rfl
  | discard n =>
    obtain ⟨b', hok, hcontents, hlen, -⟩ := discard_eq hpos (by simpa [BufferCall.allowed] using hc)
    exact ⟨b', by rw [step, hok]; rfl, hcontents, hlen, hlen ▸ hpos⟩

/-- A buffer on a slice that is not empty answers every run of calls as a bounded queue does, keeps
its slice, and has `head` and `size` in range all the way. -/
theorem runs_as_bounded_fifo (b : ByteBuffer) (hpos : 0 < b.data.length) (calls : List BufferCall)
    (hcalls : ∀ r ∈ trace (BoundedFifo.step b.data.length) b.contents calls,
      r.event.allowed r.pre) :
    ∃ b', RunsIn step (InRange b.data.length) b calls b' ∧
      outputs step b calls =
        .ok ((trace (BoundedFifo.step b.data.length) b.contents calls).map Round.out) ∧
      b'.contents = run (BoundedFifo.step b.data.length) b.contents calls := by
  have hstart : Holds b.data.length b b.contents := ⟨rfl, rfl, hpos⟩
  obtain ⟨b', hruns, houts, hlast⟩ := RunsIn.simulates (P := InRange b.data.length)
    (C := fun q c => BufferCall.allowed q c) (fun s q h => ⟨h.length, s.head_lt h.pos, s.size_le⟩)
    (fun s q c => step_holds) hstart hcalls
  exact ⟨b', hruns, houts, hlast.contents⟩

/-- A slice of four bytes whose queue passes the end. -/
def wrappedBuffer : ByteBuffer := ⟨[1, 2, 3, 4], 3, 2, by decide, by decide⟩

theorem runs_as_bounded_fifo_wrapped :
    ∃ b' : ByteBuffer, outputs step wrappedBuffer
      [.write [5, 6, 7], .peek 9, .read [0, 0, 0], .discard 1] =
        .ok [[.count 2], [.bytes [4, 1, 5, 6]], [.filled 3 [4, 1, 5]], [.done]] ∧
      b'.contents = [] := by
  obtain ⟨b', -, houts, hlast⟩ := runs_as_bounded_fifo wrappedBuffer (by decide)
    [.write [5, 6, 7], .peek 9, .read [0, 0, 0], .discard 1] (by decide)
  exact ⟨b', houts, hlast⟩

end ByteBuffer

end Halo.Tcp
