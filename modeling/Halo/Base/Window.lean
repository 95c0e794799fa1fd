import Halo.Base.Dlist

/-!
# Circular memory

A memory of `n` cells is used in a circle: the cell of the position `i` is `i % n`. `Holds m n i xs`
says that the cells of the positions from `i` on have the values `xs`. Two positions have the same
cell only if they are a whole turn apart, so writes at positions of one turn do not meet.

* `holds_append`: a list of values is cut anywhere.
* `Holds.frame`: writes behind a window, less than a turn away, keep it (`WritesIn`).
* `storeAt_spec`, `storeFrom_spec`: a store of one value, and of several values in a row.
-/

namespace Halo

section

variable {α : Type} {m m' m'' : Heap α} {n i j l : Nat} {xs ys : List α}

/-- The memory has `n` cells. -/
def Allocated (m : Heap α) (n : Nat) : Prop := ∀ q < n, ∃ x, m q = some x

/-- The values from the position `i` on. -/
def Holds (m : Heap α) (n i : Nat) (xs : List α) : Prop :=
  ∀ k x, xs[k]? = some x → m ((i + k) % n) = some x

/-- Writes to the `l` positions from `j` on lead from `m` to `m'`. -/
structure WritesIn (m m' : Heap α) (n j l : Nat) : Prop where
  allocated : Allocated m n → Allocated m' n
  other : ∀ q, (∀ k < l, q ≠ (j + k) % n) → m' q = m q

theorem holds_nil : Holds m n i [] := by
  intro k x hx
  cases hx

theorem holds_append : Holds m n i (xs ++ ys) ↔ Holds m n i xs ∧ Holds m n (i + xs.length) ys := by
  constructor
  · intro h
    refine ⟨fun k x hx => h k x ?_, fun k x hx => ?_⟩
    · obtain ⟨hlt, -⟩ := List.getElem?_eq_some_iff.mp hx
      rw [List.getElem?_append_left hlt, hx]
    · rw [Nat.add_assoc]
      refine h _ x ?_
      rw [List.getElem?_append_right (Nat.le_add_right _ _), Nat.add_sub_cancel_left, hx]
  · rintro ⟨hxs, hys⟩ k x hx
    by_cases hlt : k < xs.length
    · rw [List.getElem?_append_left hlt] at hx
      exact hxs k x hx
    · rw [List.getElem?_append_right (Nat.le_of_not_lt hlt)] at hx
      have hk := hys _ x hx
      rwa [Nat.add_assoc, Nat.add_sub_of_le (Nat.le_of_not_lt hlt)] at hk

/-- Different positions of one turn have different cells. -/
theorem mod_ne_of_lt (hij : i < j) (hj : j < i + n) : i % n ≠ j % n := by
  intro heq
  have hdvd : n ∣ j - i := (Nat.modEq_iff_dvd' (Nat.le_of_lt hij)).mp heq
  have hle := Nat.le_of_dvd (by omega) hdvd
  omega

/-- Writes behind a window, within the same turn, keep it. -/
theorem Holds.frame (h : Holds m n i xs) (hw : WritesIn m m' n j l) (hj : i + xs.length ≤ j)
    (hl : j + l ≤ i + n) : Holds m' n i xs := by
  intro k x hx
  obtain ⟨hlt, -⟩ := List.getElem?_eq_some_iff.mp hx
  rw [hw.other _ fun q hq => mod_ne_of_lt (by omega) (by omega)]
  exact h k x hx

theorem WritesIn.trans (h : WritesIn m m' n j l) (h' : WritesIn m' m'' n j l) :
    WritesIn m m'' n j l :=
  ⟨fun ha => h'.allocated (h.allocated ha), fun q hq => (h'.other q hq).trans (h.other q hq)⟩

/-- A window of the writes inside a larger one. -/
theorem WritesIn.mono {j' l' : Nat} (h : WritesIn m m' n j' l') (hj : j ≤ j')
    (hl : j' + l' ≤ j + l) : WritesIn m m' n j l := by
  refine ⟨h.allocated, fun q hq => h.other q fun k hk => ?_⟩
  have hk' := hq (j' - j + k) (by omega)
  rwa [← Nat.add_assoc, Nat.add_sub_of_le hj] at hk'

/-- A store to one cell; there is no result outside of the memory. -/
def storeAt (m : Heap α) (q : Nat) (x : α) : Option (Heap α) :=
  (m q).map fun _ => Function.update m q (some x)

/-- A store to the cells from `q` on. -/
def storeFrom (m : Heap α) : Nat → List α → Option (Heap α)
  | _, [] => some m
  | q, x :: xs => do
    let m ← storeAt m q x
    storeFrom m (q + 1) xs

/-- A store at the position `j`. -/
theorem storeAt_spec (ha : Allocated m n) (hn : 0 < n) (j : Nat) (x : α) :
    ∃ m', storeAt m (j % n) x = some m' ∧ WritesIn m m' n j 1 ∧ Holds m' n j [x] := by
  obtain ⟨y, hy⟩ := ha (j % n) (Nat.mod_lt _ hn)
  refine ⟨Function.update m (j % n) (some x), by simp [storeAt, hy], ⟨?_, ?_⟩, ?_⟩
  · intro _ q hq
    by_cases heq : q = j % n
    · exact ⟨x, by rw [heq, Function.update_self]⟩
    · rw [Function.update_of_ne heq]
      exact ha q hq
  · intro q hq
    exact Function.update_of_ne (hq 0 Nat.zero_lt_one) _ _
  · intro k y hk
    obtain ⟨rfl, rfl⟩ : k = 0 ∧ y = x := by
      cases k with
      | zero => simpa using hk.symm
      | succ k => simp at hk
    exact Function.update_self ..

/-- A store of values that fit in front of the end of the memory. -/
theorem storeFrom_spec (ha : Allocated m n) (hn : 0 < n) (hfit : j % n + xs.length ≤ n) :
    ∃ m', storeFrom m (j % n) xs = some m' ∧ WritesIn m m' n j xs.length ∧ Holds m' n j xs := by
  induction xs generalizing m j with
  | nil => exact ⟨m, rfl, ⟨id, fun _ _ => rfl⟩, holds_nil⟩
  | cons x xs ih =>
    obtain ⟨m₁, hstore, hw, hx⟩ := storeAt_spec ha hn j x
    rw [List.length_cons] at hfit
    cases xs with
    | nil => exact ⟨m₁, by simp [storeFrom, hstore], hw, hx⟩
    | cons y ys =>
      rw [List.length_cons] at hfit
      have hnext : (j + 1) % n = j % n + 1 := by
        rw [Nat.add_mod, Nat.mod_eq_of_lt (show 1 < n by omega), Nat.mod_eq_of_lt (by omega)]
      obtain ⟨m', hrest, hw', hys⟩ := ih (hw.allocated ha) (j := j + 1)
        (by rw [hnext, List.length_cons]; omega)
      refine ⟨m', ?_, ?_, ?_⟩
      · rw [hnext] at hrest
        simp only [storeFrom, hstore, Option.bind_eq_bind, Option.bind_some]
        exact hrest
      · refine (hw.mono (Nat.le_refl _) ?_).trans (hw'.mono (Nat.le_succ _) ?_)
        · rw [List.length_cons]
          omega
        · simp only [List.length_cons]
          omega
      · have hfirst : Holds m' n j [x] := by
          refine hx.frame hw' (Nat.le_refl _) ?_
          rw [List.length_cons]
          omega
        have hall : Holds m' n j ([x] ++ y :: ys) := holds_append.mpr ⟨hfirst, hys⟩
        exact hall

end

end Halo
