import Halo.Base.Trace
import Halo.Kcp.RingBuffer

/-!
# The queues of KCP as lists (`protocol/kcp/ring_buffer.go`)

The operations that write a `ringBuffer`: `Push`, which grows a full slice and unrolls the queue
into the new one, and `Discard`, which clears and skips cells in two parts. Each operation is the
one of a plain list (`Fifo.step`) on `toList`, so a run of calls gives what a list gives
(`queue_runs_as_list`).

* `toList_eq_drop`: a buffer whose cells are those of another one, some places further on.
* `toList_push`, `toList_dropFront`, `last_eq`: the single operations.
-/

namespace Halo.Kcp

open List

/-- `ringBufferMinCapacity`. -/
def ringBufferMinCapacity : Nat := 8

/-- `ringBufferGrowthThreshold`. -/
def ringBufferGrowthThreshold : Nat := 1024

namespace RingBuffer

variable {α : Type}

/-! ## The operations -/

/-- `newRingBuffer`. -/
def newRingBuffer [Inhabited α] (capacity : Int) : RingBuffer α where
  elements := List.replicate (if capacity < ringBufferMinCapacity then ringBufferMinCapacity
    else capacity.toNat) default
  head := 0
  length := 0
  head_lt := by
    rw [length_replicate]
    unfold ringBufferMinCapacity
    split <;> omega
  length_le := Nat.zero_le _

/-- The capacity that `grow` chooses. -/
def newCapacity (currentCapacity : Nat) : Nat :=
  if ringBufferGrowthThreshold ≤ currentCapacity then currentCapacity + currentCapacity / 4
  else currentCapacity * 2

theorem lt_newCapacity {n : Nat} (h : 0 < n) : n < newCapacity n := by
  unfold newCapacity ringBufferGrowthThreshold
  split <;> omega

/-- The slice that `grow` makes: the two copies, and zero values behind them. -/
def unrolled [Inhabited α] (r : RingBuffer α) : List α :=
  let firstPart := min r.length (r.elements.length - r.head)
  (r.elements.drop r.head).take firstPart ++ r.elements.take (r.length - firstPart) ++
    List.replicate (newCapacity r.elements.length - r.length) default

theorem unrolled_eq [Inhabited α] (r : RingBuffer α) :
    r.unrolled = r.toList ++ List.replicate (newCapacity r.elements.length - r.length) default := by
  rw [toList_eq_parts]
  rfl

theorem length_unrolled [Inhabited α] (r : RingBuffer α) :
    r.unrolled.length = newCapacity r.elements.length := by
  have hlt := lt_newCapacity (Nat.zero_lt_of_lt r.head_lt)
  have hle := r.length_le
  rw [unrolled_eq, length_append, length_toList, length_replicate]
  omega

/-- `grow`. -/
def grow [Inhabited α] (r : RingBuffer α) : RingBuffer α where
  elements := r.unrolled
  head := 0
  length := r.length
  head_lt := by
    have hlt := lt_newCapacity (Nat.zero_lt_of_lt r.head_lt)
    rw [length_unrolled]
    omega
  length_le := by
    have hlt := lt_newCapacity (Nat.zero_lt_of_lt r.head_lt)
    have hle := r.length_le
    rw [length_unrolled]
    omega

theorem length_lt_grow [Inhabited α] (r : RingBuffer α) :
    r.grow.length < r.grow.elements.length := by
  show r.length < r.unrolled.length
  rw [length_unrolled]
  exact Nat.lt_of_le_of_lt r.length_le (lt_newCapacity (Nat.zero_lt_of_lt r.head_lt))

/-- A place of the slice that was counted past its end once. -/
def wrapped (r : RingBuffer α) (index : Nat) : Nat :=
  if r.elements.length ≤ index then index - r.elements.length else index

/-- The part of `Push` behind the check of the capacity. -/
def append (r : RingBuffer α) (value : α) (h : r.length < r.elements.length) : RingBuffer α where
  elements := r.elements.set (r.wrapped (r.head + r.length)) value
  head := r.head
  length := r.length + 1
  head_lt := by
    rw [length_set]
    exact r.head_lt
  length_le := by
    rw [length_set]
    exact h

/-- `Push`. -/
def push [Inhabited α] (r : RingBuffer α) (value : α) : RingBuffer α :=
  if h : r.length = r.elements.length then r.grow.append value r.length_lt_grow
  else r.append value (Nat.lt_of_le_of_ne r.length_le h)

theorem wrapped_eq_mod {r : RingBuffer α} {index : Nat} (h : index < 2 * r.elements.length) :
    r.wrapped index = index % r.elements.length := by
  unfold wrapped
  split
  · rename_i hle
    rw [Nat.mod_eq_sub_mod hle, Nat.mod_eq_of_lt (by omega)]
  · exact (Nat.mod_eq_of_lt (by omega)).symm

/-- `Last`. -/
def last (r : RingBuffer α) : Option α :=
  if h : r.length = 0 then none
  else some (r.elements.get ⟨r.wrapped (r.head + r.length - 1), by
    have hhead := r.head_lt
    have hle := r.length_le
    rw [wrapped_eq_mod (by omega)]
    exact Nat.mod_lt _ (by omega)⟩)

/-- `clear` of the cells from `start` up to `stop`. -/
def clearCells [Inhabited α] (xs : List α) (start stop : Nat) : List α :=
  xs.mapIdx fun i x => if start ≤ i ∧ i < stop then default else x

@[simp] theorem length_clearCells [Inhabited α] (xs : List α) (start stop : Nat) :
    (clearCells xs start stop).length = xs.length := by
  simp [clearCells]

/-- The part of `Discard` behind the checks of `count`. -/
def dropFront [Inhabited α] (r : RingBuffer α) (count : Nat) (h : count ≤ r.length) :
    RingBuffer α :=
  let firstPart := min count (r.elements.length - r.head)
  { elements := clearCells (clearCells r.elements r.head (r.head + firstPart)) 0 (count - firstPart)
    head := if r.length - count = 0 then 0 else r.wrapped (r.head + count)
    length := r.length - count
    head_lt := by
      have hhead := r.head_lt
      have hle := r.length_le
      rw [length_clearCells, length_clearCells, wrapped_eq_mod (by omega)]
      split
      · omega
      · exact Nat.mod_lt _ (by omega)
    length_le := by
      have hle := r.length_le
      rw [length_clearCells, length_clearCells]
      omega }

/-- `Discard`: the buffer and how many elements were taken out. -/
def discard [Inhabited α] (r : RingBuffer α) (count : Int) : RingBuffer α × Int :=
  if count ≤ 0 ∨ r.length = 0 then (r, 0)
  else (r.dropFront (min count.toNat r.length) (Nat.min_le_right _ _),
    (min count.toNat r.length : Nat))

/-- `Clear`. -/
def clear [Inhabited α] (r : RingBuffer α) : RingBuffer α := (r.discard r.length).1

/-! ## The operations on the list -/

theorem getElem_toList (r : RingBuffer α) {i : Nat} (h : i < r.toList.length) :
    r.toList[i] = r.cell i := by
  simp [toList]

/-- The queue of a buffer whose cells are those of another one, `k` places further on. -/
theorem toList_eq_drop {r r' : RingBuffer α} {k : Nat} (hlen : r'.length = r.length - k)
    (hcell : ∀ i < r'.length, r'.cell i = r.cell (i + k)) : r'.toList = r.toList.drop k := by
  apply ext_getElem
  · rw [length_toList, length_drop, length_toList, hlen]
  · intro i hi hi'
    rw [getElem_drop, getElem_toList, getElem_toList, hcell i (by simpa using hi), Nat.add_comm]

theorem toList_grow [Inhabited α] (r : RingBuffer α) : r.grow.toList = r.toList := by
  have hle : r.length ≤ r.unrolled.length := r.grow.length_le
  rw [toList_eq_parts]
  show (r.unrolled.drop 0).take (min r.length (r.unrolled.length - 0)) ++
    r.unrolled.take (r.length - min r.length (r.unrolled.length - 0)) = _
  rw [Nat.sub_zero, Nat.min_eq_left hle, Nat.sub_self, take_zero, append_nil, drop_zero,
    unrolled_eq, take_left' (length_toList r)]

theorem toList_append (r : RingBuffer α) (value : α) (h : r.length < r.elements.length) :
    (r.append value h).toList = r.toList ++ [value] := by
  have hhead := r.head_lt
  have hindex : r.wrapped (r.head + r.length) = (r.head + r.length) % r.elements.length :=
    wrapped_eq_mod (by omega)
  have hcell : ∀ i, (r.append value h).cell i =
      if i % r.elements.length = r.length % r.elements.length then value else r.cell i := by
    intro i
    simp only [cell, append, get_eq_getElem, length_set, hindex, getElem_set]
    have hiff : (r.head + r.length) % r.elements.length = (r.head + i) % r.elements.length ↔
        i % r.elements.length = r.length % r.elements.length := by
      rw [eq_comm]
      exact Nat.ModEq.add_iff_left rfl
    simp only [hiff]
  show (List.range (r.length + 1)).map (r.append value h).cell = _
  rw [range_succ, map_append, toList]
  congr 1
  · apply map_congr_left
    intro i hi
    have hi := mem_range.mp hi
    rw [hcell, if_neg (mod_ne_of_lt hi (by omega))]
  · rw [map_singleton, hcell, if_pos rfl]

theorem toList_push [Inhabited α] (r : RingBuffer α) (value : α) :
    (r.push value).toList = r.toList ++ [value] := by
  unfold push
  split
  · rw [toList_append, toList_grow]
  · rw [toList_append]

theorem last_eq (r : RingBuffer α) : r.last = r.toList.getLast? := by
  have hhead := r.head_lt
  have hle := r.length_le
  unfold last
  split
  · rename_i hlen
    rw [length_eq_zero_iff.mp ((length_toList r).trans hlen)]
    rfl
  · rename_i hlen
    have hindex : r.wrapped (r.head + r.length - 1) =
        (r.head + (r.length - 1)) % r.elements.length := by
      rw [wrapped_eq_mod (by omega)]
      congr 1
      omega
    rw [getLast?_eq_getElem?, length_toList,
      getElem?_eq_getElem (by rw [length_toList]; omega), getElem_toList, cell]
    simp only [hindex]

/-- The cells of the queue behind the first `count` ones are not cleared. -/
theorem cell_dropFront [Inhabited α] {r : RingBuffer α} {count : Nat} (h : count ≤ r.length)
    {i : Nat} (hi : i < r.length - count) : (r.dropFront count h).cell i = r.cell (i + count) := by
  have hhead := r.head_lt
  have hle := r.length_le
  have hindex : (r.wrapped (r.head + count) + i) % r.elements.length =
      (r.head + (i + count)) % r.elements.length := by
    rw [wrapped_eq_mod (by omega), Nat.mod_add_mod]
    congr 1
    omega
  -- the place, counted in the slice
  have hplace : r.wrapped (r.head + (i + count)) = (r.head + (i + count)) % r.elements.length :=
    wrapped_eq_mod (by omega)
  simp only [cell, dropFront, get_eq_getElem, length_clearCells,
    if_neg (show r.length - count ≠ 0 by omega), hindex, ← hplace]
  simp only [clearCells, getElem_mapIdx]
  rw [if_neg, if_neg]
  · unfold wrapped
    split <;> omega
  · unfold wrapped
    split <;> omega

theorem toList_dropFront [Inhabited α] {r : RingBuffer α} {count : Nat} (h : count ≤ r.length) :
    (r.dropFront count h).toList = r.toList.drop count :=
  toList_eq_drop rfl fun _ hi => cell_dropFront h hi

theorem discard_eq [Inhabited α] (r : RingBuffer α) (count : Int) :
    (r.discard count).1.toList = r.toList.drop count.toNat ∧
      (r.discard count).2 = (min count.toNat r.toList.length : Nat) := by
  have hlen := length_toList r
  unfold discard
  split
  · rename_i h
    rcases h with h | h
    · rw [Int.toNat_of_nonpos h]
      simp
    · rw [h] at hlen
      rw [length_eq_zero_iff.mp hlen]
      simp
  · rw [toList_dropFront, hlen]
    refine ⟨?_, rfl⟩
    rcases Nat.le_total count.toNat r.length with hle | hle
    · rw [Nat.min_eq_left hle]
    · rw [Nat.min_eq_right hle, drop_of_length_le (by omega), drop_of_length_le (by omega)]

theorem toList_clear [Inhabited α] (r : RingBuffer α) : r.clear.toList = [] := by
  rw [clear, (discard_eq r r.length).1]
  exact drop_of_length_le (by simp)

theorem toList_newRingBuffer [Inhabited α] (capacity : Int) :
    (newRingBuffer capacity : RingBuffer α).toList = [] := rfl

end RingBuffer

/-! ## Runs of calls -/

/-- A call on a queue. The callback of `ForEach` is told what it has visited before and the next
element, and says whether it wants more. -/
inductive RingCall (α : Type) where
  | len
  | push (value : α)
  | pop
  | peek
  | last
  | discard (count : Int)
  | forEach (visit : List α → α → Bool)
  | clear

/-- What a call returns; for `ForEach`, the elements that were visited, in order. -/
inductive RingReply (α : Type) where
  | done
  | value (x : Option α)
  | count (n : Int)
  | visited (xs : List α)

/-- A call on the buffer. -/
def RingBuffer.step [Inhabited α] (r : RingBuffer α) :
    RingCall α → RingBuffer α × List (RingReply α)
  | .len => (r, [.count r.length])
  | .push value => (r.push value, [.done])
  | .pop =>
    match r.pop with
    | some (x, r') => (r', [.value (some x)])
    | none => (r, [.value none])
  | .peek => (r, [.value r.peek])
  | .last => (r, [.value r.last])
  | .discard count => ((r.discard count).1, [.count (r.discard count).2])
  | .forEach visit => (r, [.visited (r.forEach (fun seen x => (seen ++ [x], visit seen x)) [])])
  | .clear => (r.clear, [.done])

namespace Fifo

/-- The elements of a list up to the first one at which the callback wants no more. -/
def visited (visit : List α → α → Bool) : List α → List α → List α
  | seen, [] => seen
  | seen, x :: xs => if visit seen x then visited visit (seen ++ [x]) xs else seen ++ [x]

/-- A call on a plain list: values enter at the back and leave at the front. -/
def step (xs : List α) : RingCall α → List α × List (RingReply α)
  | .len => (xs, [.count xs.length])
  | .push value => (xs ++ [value], [.done])
  | .pop => (xs.tail, [.value xs.head?])
  | .peek => (xs, [.value xs.head?])
  | .last => (xs, [.value xs.getLast?])
  | .discard count => (xs.drop count.toNat, [.count (min count.toNat xs.length : Nat)])
  | .forEach visit => (xs, [.visited (visited visit [] xs)])
  | .clear => ([], [.done])

theorem visited_eq (visit : List α → α → Bool) (seen xs : List α) :
    visited visit seen xs =
      (visitWhile (fun seen x => (seen ++ [x], visit seen x)) xs seen).1 := by
  induction xs generalizing seen with
  | nil => rfl
  | cons x xs ih =>
    rw [visited, visitWhile, ih]
    split <;> rfl

end Fifo

/-- Each call does to the queue what it does to a list. -/
theorem RingBuffer.step_eq [Inhabited α] (r : RingBuffer α) (c : RingCall α) :
    ((r.step c).1.toList, (r.step c).2) = Fifo.step r.toList c := by
  cases c with
  | len => rw [Fifo.step, length_toList]; rfl
  | push value => rw [Fifo.step, ← toList_push]; rfl
  | pop =>
    rw [Fifo.step, RingBuffer.step]
    cases h : r.pop with
    | none => rw [pop_none h]; rfl
    | some p => rw [pop_some h]; rfl
  | peek => rw [Fifo.step, ← peek_eq]; rfl
  | last => rw [Fifo.step, ← last_eq]; rfl
  | discard count =>
    obtain ⟨hlist, hcount⟩ := r.discard_eq count
    rw [Fifo.step, ← hlist, ← hcount]
    rfl
  | forEach visit => rw [Fifo.step, Fifo.visited_eq, ← forEach_eq]; rfl
  | clear => rw [Fifo.step, ← toList_clear r]; rfl

/-- A queue of any initial capacity gives in every run of calls the replies that a plain list gives,
and holds what the list holds afterwards. -/
theorem RingBuffer.queue_runs_as_list [Inhabited α] (capacity : Int) (calls : List (RingCall α)) :
    (trace RingBuffer.step (newRingBuffer capacity) calls).map Round.out =
        (trace Fifo.step [] calls).map Round.out ∧
      (run RingBuffer.step (newRingBuffer capacity) calls).toList = run Fifo.step [] calls :=
  run_refines RingBuffer.step_eq (newRingBuffer capacity) calls

end Halo.Kcp
