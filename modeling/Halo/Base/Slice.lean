import Mathlib

/-!
# Slices

A slice is a window at the beginning of an array that it may share with other slices. `append`
writes into the array while there is room and makes a new array otherwise.

`Holds m s k xs`: the elements of the slice `s` from index `k` on are `xs`. `Holds.append`,
`Holds.clear`, `Holds.truncate` follow a slice through its own operations; `Holds.append_other` and
`Holds.set_other` say that the operations on one array leave a slice of another one alone.
-/

namespace Halo

open Function List

/-- The arrays of a program; a zero value is `none`. -/
structure Arrays (α : Type) where
  cells : Nat → List (Option α)
  /-- The arrays from here on do not exist yet. -/
  next : Nat

/-- A slice that begins with its array. -/
structure Slice where
  array : Nat
  len : Nat
  deriving DecidableEq

namespace Arrays

variable {α : Type}

/-- `s[k]` -/
def get (m : Arrays α) (s : Slice) (k : Nat) : Option α := (m.cells s.array)[k]?.join

/-- `s[k] = v` -/
def set (m : Arrays α) (s : Slice) (k : Nat) (v : Option α) : Arrays α :=
  { m with cells := Function.update m.cells s.array ((m.cells s.array).set k v) }

/-- `append(s, x)`; a new array gets `spare` cells more than it needs. -/
def append (m : Arrays α) (s : Slice) (x : α) (spare : Nat) : Arrays α × Slice :=
  if s.len < (m.cells s.array).length then (m.set s s.len (some x), { s with len := s.len + 1 })
  else
    ({ cells := Function.update m.cells m.next
        ((m.cells s.array).take s.len ++ some x :: List.replicate spare none)
       next := m.next + 1 }, ⟨m.next, s.len + 1⟩)

/-- The cells of a slice from index `k` on. -/
def window (m : Arrays α) (s : Slice) (k : Nat) : List (Option α) :=
  ((m.cells s.array).take s.len).drop k

/-- The elements of a slice from index `k` on, without zero values. -/
def elems (m : Arrays α) (s : Slice) (k : Nat) : List α := (m.window s k).reduceOption

/-- The slice has the elements `xs` from index `k` on. -/
structure Holds (m : Arrays α) (s : Slice) (k : Nat) (xs : List α) : Prop where
  array_lt : s.array < m.next
  len_le : s.len ≤ (m.cells s.array).length
  window_eq : m.window s k = xs.map some

variable {m : Arrays α} {s s' : Slice} {k : Nat} {xs ys : List α} {x : α}

theorem Holds.elems_eq (h : m.Holds s k xs) : m.elems s k = xs := by
  rw [elems, h.window_eq, List.reduceOption, filterMap_map]
  exact filterMap_some

theorem length_window (h : m.Holds s k xs) : xs.length = s.len - k := by
  have hlen := congrArg List.length h.window_eq
  simp only [window, length_drop, length_take, length_map] at hlen
  rw [← hlen, Nat.min_eq_left h.len_le]

/-- The slice is used up. -/
theorem Holds.nil_of_le (h : m.Holds s k xs) (hk : s.len ≤ k) : xs = [] := by
  rw [← length_eq_zero_iff, length_window h]
  omega

/-- The first element. -/
theorem Holds.get_head (h : m.Holds s k (x :: xs)) : m.get s k = some x := by
  have hhead := congrArg List.head? h.window_eq
  rw [window, head?_drop] at hhead
  have hk : k < s.len := by
    have := length_window h
    rw [length_cons] at this
    omega
  rw [getElem?_take_of_lt hk] at hhead
  rw [get, hhead]
  rfl

theorem Holds.tail (h : m.Holds s k (x :: xs)) : m.Holds s (k + 1) xs := by
  refine ⟨h.array_lt, h.len_le, ?_⟩
  have htail := congrArg List.tail h.window_eq
  rwa [window, tail_drop] at htail

/-- `s[:0]` -/
theorem Holds.truncate (h : m.Holds s k xs) (j : Nat) : m.Holds { s with len := 0 } j [] :=
  ⟨h.array_lt, Nat.zero_le _, by simp [window]⟩

/-- An element before the window is cleared. -/
theorem Holds.clear (h : m.Holds s (k + 1) xs) : (m.set s k none).Holds s (k + 1) xs := by
  refine ⟨h.array_lt, by simpa [set] using h.len_le, ?_⟩
  rw [← h.window_eq]
  simp only [window, set, update_self]
  rw [take_set, drop_set_of_lt (Nat.lt_succ_self k)]

theorem Holds.set_other (h : m.Holds s' k xs) (hne : s'.array ≠ s.array) (j : Nat) (v : Option α) :
    (m.set s j v).Holds s' k xs := by
  obtain ⟨hlt, hle, hwindow⟩ := h
  refine ⟨hlt, ?_, ?_⟩
  · simpa [set, update_of_ne hne] using hle
  · simpa [set, window, update_of_ne hne] using hwindow

theorem Holds.append (h : m.Holds s 0 xs) (x : α) (spare : Nat) :
    (m.append s x spare).1.Holds (m.append s x spare).2 0 (xs ++ [x]) := by
  have hwindow : (m.cells s.array).take s.len = xs.map some := h.window_eq
  unfold Arrays.append
  split
  · rename_i hroom
    refine ⟨h.array_lt, ?_, ?_⟩
    · simpa [set] using hroom
    · simp only [window, set, update_self, drop_zero]
      rw [take_add_one, take_set_of_le le_rfl, hwindow, getElem?_set_self hroom]
      simp
  · refine ⟨Nat.lt_succ_self _, ?_, ?_⟩
    · have hle := h.len_le
      simp only [update_self, length_append, length_take, length_cons]
      omega
    · have hlen : s.len = (xs.map some).length := by
        rw [← hwindow, length_take, Nat.min_eq_left h.len_le]
      simp only [window, update_self, drop_zero, hwindow]
      rw [hlen, take_length_add_append]
      simp

/-- An append leaves a slice of another array alone, and the slice that it makes does not share an
array with it. -/
theorem Holds.append_other (h : m.Holds s' k xs) (hne : s'.array ≠ s.array) (x : α) (spare : Nat) :
    (m.append s x spare).1.Holds s' k xs ∧ s'.array ≠ (m.append s x spare).2.array := by
  unfold Arrays.append
  split
  · exact ⟨h.set_other hne _ _, hne⟩
  · have hnext : s'.array ≠ m.next := Nat.ne_of_lt h.array_lt
    refine ⟨⟨Nat.lt_succ_of_lt h.array_lt, ?_, ?_⟩, hnext⟩
    · simpa [update_of_ne hnext] using h.len_le
    · simpa [window, update_of_ne hnext] using h.window_eq

end Arrays

end Halo
