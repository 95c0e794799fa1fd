import Halo.Base.Window

/-!
# The queues of KCP (`protocol/kcp/ring_buffer.go`)

`ringBuffer` is a queue in a slice that is used in a circle: the element number `i` of the queue is
in the cell `(head + i) % len(elements)`. Here are the operations that read a queue from its front.
The bounds of `head` and `length` are fields of the structure, so that every index below is inside
of the slice.

* `pop_some`, `pop_none`: `Pop` takes the first element.
* `forEach_eq`: `ForEach`, which visits the part up to the end of the slice and then the part from
  its beginning, is a walk over the queue that can be stopped.
-/

namespace Halo.Kcp

open List

/-- `ringBuffer`. -/
structure RingBuffer (α : Type) where
  elements : List α
  head : Nat
  length : Nat
  head_lt : head < elements.length
  length_le : length ≤ elements.length

/-- Visits in order until one of them says stop: the state, and whether none did. -/
def visitWhile {α σ : Type} (visit : σ → α → σ × Bool) : List α → σ → σ × Bool
  | [], s => (s, true)
  | x :: xs, s =>
    if (visit s x).2 then visitWhile visit xs (visit s x).1 else ((visit s x).1, false)

theorem visitWhile_append {α σ : Type} (visit : σ → α → σ × Bool) (xs ys : List α) (s : σ) :
    visitWhile visit (xs ++ ys) s =
      if (visitWhile visit xs s).2 then visitWhile visit ys (visitWhile visit xs s).1
      else visitWhile visit xs s := by
  induction xs generalizing s with
  | nil => rfl
  | cons x xs ih =>
    rw [cons_append, visitWhile, visitWhile, ih]
    split <;> rfl

namespace RingBuffer

variable {α : Type}

/-- The element number `i`, counted from the front in a circle. -/
def cell (r : RingBuffer α) (i : Nat) : α :=
  r.elements.get ⟨(r.head + i) % r.elements.length, Nat.mod_lt _ (Nat.zero_lt_of_lt r.head_lt)⟩

/-- The queue as a list. -/
def toList (r : RingBuffer α) : List α := (List.range r.length).map r.cell

/-- `Peek`. -/
def peek (r : RingBuffer α) : Option α :=
  if r.length = 0 then none else some (r.elements.get ⟨r.head, r.head_lt⟩)

/-- The place of `head` after one step. -/
def nextHead (r : RingBuffer α) : Nat := if r.head + 1 = r.elements.length then 0 else r.head + 1

theorem nextHead_lt (r : RingBuffer α) : r.nextHead < r.elements.length := by
  have := r.head_lt
  unfold nextHead
  split <;> omega

/-- `Pop`; the cell is overwritten with the zero value. -/
def pop [Inhabited α] (r : RingBuffer α) : Option (α × RingBuffer α) :=
  if r.length = 0 then none
  else some (r.elements.get ⟨r.head, r.head_lt⟩,
    { elements := r.elements.set r.head default
      head := if r.length - 1 = 0 then 0 else r.nextHead
      length := r.length - 1
      head_lt := by
        have := r.nextHead_lt
        rw [length_set]
        split <;> omega
      length_le := by
        have := r.length_le
        rw [length_set]
        omega })

/-- `ForEach`. -/
def forEach {σ : Type} (r : RingBuffer α) (visit : σ → α → σ × Bool) (s : σ) : σ :=
  let firstPart := min r.length (r.elements.length - r.head)
  let first := visitWhile visit ((r.elements.drop r.head).take firstPart) s
  if first.2 then (visitWhile visit (r.elements.take (r.length - firstPart)) first.1).1 else first.1

/-! ## The queue -/

@[simp] theorem length_toList (r : RingBuffer α) : r.toList.length = r.length := by
  simp [toList]

theorem cell_zero (r : RingBuffer α) : r.cell 0 = r.elements.get ⟨r.head, r.head_lt⟩ := by
  simp [cell, Nat.mod_eq_of_lt r.head_lt]

theorem peek_eq (r : RingBuffer α) : r.peek = r.toList.head? := by
  rw [peek, ← cell_zero, toList]
  cases r.length with
  | zero => rfl
  | succ n => rw [if_neg (Nat.succ_ne_zero n), range_succ_eq_map]; rfl

theorem pop_none [Inhabited α] {r : RingBuffer α} (h : r.pop = none) : r.toList = [] := by
  unfold pop at h
  split at h
  · rename_i hlen
    simp [toList, hlen]
  · cases h

/-- The cells behind the front are those of the rest of the queue. -/
theorem cell_pop [Inhabited α] {r r' : RingBuffer α} {x : α} (h : r.pop = some (x, r')) {i : Nat}
    (hi : i < r'.length) : r'.cell i = r.cell (i + 1) := by
  unfold pop at h
  split at h
  · cases h
  rename_i hlen
  obtain ⟨rfl, rfl⟩ := Prod.mk.inj (Option.some.inj h)
  dsimp only at hi
  have hhead := r.head_lt
  have hle := r.length_le
  -- the next head, unless the queue is empty after this
  have hindex : ((if r.length - 1 = 0 then 0 else r.nextHead) + i) % r.elements.length =
      (r.head + (i + 1)) % r.elements.length := by
    rw [if_neg (by omega), nextHead]
    split
    · rename_i hwrap
      rw [show r.head + (i + 1) = i + r.elements.length by omega, Nat.add_mod_right, Nat.zero_add]
    · congr 1
      omega
  have hne : (r.head + (i + 1)) % r.elements.length ≠ r.head := by
    have :=
      mod_ne_of_lt (n := r.elements.length) (show r.head < r.head + (i + 1) by omega) (by omega)
    rw [Nat.mod_eq_of_lt hhead] at this
    exact this.symm
  simp only [cell, get_eq_getElem, length_set, hindex]
  exact getElem_set_ne hne.symm _

theorem pop_some [Inhabited α] {r r' : RingBuffer α} {x : α} (h : r.pop = some (x, r')) :
    r.toList = x :: r'.toList := by
  have hcell := fun i => cell_pop (i := i) h
  have hsplit : r.length = r'.length + 1 ∧ x = r.cell 0 := by
    rw [cell_zero]
    unfold pop at h
    split at h
    · cases h
    · obtain ⟨rfl, rfl⟩ := Prod.mk.inj (Option.some.inj h)
      exact ⟨by dsimp only; omega, rfl⟩
  rw [toList, toList, hsplit.1, range_succ_eq_map, map_cons, map_map, hsplit.2]
  congr 1
  apply map_congr_left
  intro i hi
  exact (hcell i (mem_range.mp hi)).symm

/-! ## The walk -/

/-- The queue is the cells up to the end of the slice and those from its beginning. -/
theorem toList_eq_parts (r : RingBuffer α) :
    r.toList = (r.elements.drop r.head).take (min r.length (r.elements.length - r.head)) ++
      r.elements.take (r.length - min r.length (r.elements.length - r.head)) := by
  have hhead := r.head_lt
  have hle := r.length_le
  apply ext_getElem
  · simp only [length_toList, length_append, length_take, length_drop]
    omega
  · intro i hi hi'
    rw [length_toList] at hi
    have hcell : r.toList[i] = r.cell i := by simp [toList]
    rw [hcell, cell, get_eq_getElem]
    by_cases hfirst : i < r.elements.length - r.head
    · rw [getElem_append_left (by simp; omega)]
      simp only [getElem_take, getElem_drop]
      congr 1
      exact Nat.mod_eq_of_lt (by omega)
    · rw [getElem_append_right (by simp; omega)]
      simp only [getElem_take, length_take, length_drop]
      congr 1
      rw [show r.head + i = r.head + i - r.elements.length + r.elements.length by omega,
        Nat.add_mod_right, Nat.mod_eq_of_lt (by omega)]
      omega

theorem forEach_eq {σ : Type} (r : RingBuffer α) (visit : σ → α → σ × Bool) (s : σ) :
    r.forEach visit s = (visitWhile visit r.toList s).1 := by
  rw [toList_eq_parts, visitWhile_append, forEach]
  split <;> rfl

end RingBuffer

end Halo.Kcp
