import Mathlib

/-!
# Binary heaps in arrays

A heap is the list of the elements of its array; the children of index `i` are at `2 * i + 1` and
`2 * i + 2`. `push` puts an element at the end and moves it up, `pop` takes the first element and
moves the last one down from its place. The loops have a fuel that bounds their rounds;
`siftUp_fuel` and `siftDown_fuel` say that more fuel changes nothing.

* `push_perm`, `pop_perm`: what the heap holds, whatever the order `less` is.
* `push_ordered`, `pop_ordered`: if `less` compares keys, `pop` takes an element with the least key.
-/

namespace Halo.BinHeap

open List

variable {α : Type} (less : α → α → Bool)

/-- Two elements change places. -/
def swap (as : List α) (i j : Nat) : List α :=
  match as[i]?, as[j]? with
  | some x, some y => (as.set i y).set j x
  | _, _ => as

/-- The comparison of the elements at two indices. -/
def lessAt (as : List α) (i j : Nat) : Bool :=
  match as[i]?, as[j]? with
  | some x, some y => less x y
  | _, _ => false

/-- The element at an index moves up while it is less than its parent. -/
def siftUp : Nat → List α → Nat → List α
  | 0, as, _ => as
  | fuel + 1, as, index =>
    if index = 0 then as
    else if !lessAt less as index ((index - 1) / 2) then as
    else siftUp fuel (swap as index ((index - 1) / 2)) ((index - 1) / 2)

/-- The child that an element is compared with on its way down: the left one, unless the right one
is less. -/
def smallest (as : List α) (index : Nat) : Nat :=
  if index * 2 + 2 < as.length ∧ lessAt less as (index * 2 + 2) (index * 2 + 1) then index * 2 + 2
  else index * 2 + 1

/-- The element at an index moves down while a child is less. -/
def siftDown : Nat → List α → Nat → List α
  | 0, as, _ => as
  | fuel + 1, as, index =>
    if as.length ≤ index * 2 + 1 then as
    else if !lessAt less as (smallest less as index) index then as
    else siftDown fuel (swap as index (smallest less as index)) (smallest less as index)

/-- The heap with one more element. -/
def push (as : List α) (x : α) : List α := siftUp less as.length (as ++ [x]) as.length

/-- The first element and the heap without it. -/
def pop : List α → Option (α × List α)
  | [] => none
  | x :: rest =>
    match rest.getLast? with
    | none => some (x, [])
    | some tail => some (x, siftDown less rest.length (tail :: rest.dropLast) 0)

/-! ## The elements -/

theorem swap_perm (as : List α) (i j : Nat) : (swap as i j).Perm as := by
  unfold swap
  split
  · rename_i x y hx hy
    obtain ⟨hi, rfl⟩ := List.getElem?_eq_some_iff.mp hx
    obtain ⟨hj, rfl⟩ := List.getElem?_eq_some_iff.mp hy
    exact List.set_set_perm hi hj
  · exact .refl as

theorem length_swap (as : List α) (i j : Nat) : (swap as i j).length = as.length :=
  (swap_perm as i j).length_eq

variable {less}

theorem siftUp_perm (fuel : Nat) (as : List α) (index : Nat) :
    (siftUp less fuel as index).Perm as := by
  induction fuel generalizing as index with
  | zero => exact .refl as
  | succ fuel ih =>
    unfold siftUp
    split
    · exact .refl as
    split
    · exact .refl as
    · exact (ih _ _).trans (swap_perm as _ _)

theorem siftDown_perm (fuel : Nat) (as : List α) (index : Nat) :
    (siftDown less fuel as index).Perm as := by
  induction fuel generalizing as index with
  | zero => exact .refl as
  | succ fuel ih =>
    unfold siftDown
    split
    · exact .refl as
    split
    · exact .refl as
    · exact (ih _ _).trans (swap_perm as _ _)

theorem push_perm (as : List α) (x : α) : (push less as x).Perm (x :: as) :=
  (siftUp_perm _ _ _).trans (perm_append_singleton x as)

theorem pop_perm {as as' : List α} {x : α} (h : pop less as = some (x, as')) :
    (x :: as').Perm as := by
  cases as with
  | nil => cases h
  | cons y rest =>
    simp only [pop] at h
    split at h
    · rename_i hlast
      cases h
      rw [getLast?_eq_none_iff.mp hlast]
    · rename_i tail hlast
      cases h
      have hrest : rest.dropLast ++ [tail] = rest := dropLast_append_getLast? tail hlast
      refine ((siftDown_perm _ _ _).cons x).trans (.cons x ?_)
      calc (tail :: rest.dropLast).Perm (rest.dropLast ++ [tail]) :=
            (perm_append_singleton tail _).symm
        _ = rest := hrest

theorem pop_eq_none_iff (as : List α) : pop less as = none ↔ as = [] := by
  cases as with
  | nil => simp [pop]
  | cons x rest =>
    simp only [pop]
    split <;> simp

/-! ## The fuel -/

theorem siftUp_succ (fuel : Nat) (as : List α) (index : Nat) :
    siftUp less (fuel + 1) as index =
      if index = 0 then as
      else if !lessAt less as index ((index - 1) / 2) then as
      else siftUp less fuel (swap as index ((index - 1) / 2)) ((index - 1) / 2) := rfl

theorem siftDown_succ (fuel : Nat) (as : List α) (index : Nat) :
    siftDown less (fuel + 1) as index =
      if as.length ≤ index * 2 + 1 then as
      else if !lessAt less as (smallest less as index) index then as
      else siftDown less fuel (swap as index (smallest less as index)) (smallest less as index) :=
        rfl

theorem siftUp_fuel {fuel : Nat} {as : List α} {index : Nat} (h : index ≤ fuel) :
    siftUp less (fuel + 1) as index = siftUp less fuel as index := by
  induction fuel generalizing as index with
  | zero =>
    obtain rfl : index = 0 := by omega
    simp [siftUp]
  | succ fuel ih =>
    rw [siftUp_succ (fuel + 1) as index, siftUp_succ fuel as index]
    split
    · rfl
    split
    · rfl
    · exact ih (by omega)

theorem siftDown_fuel {fuel : Nat} {as : List α} {index : Nat} (h : as.length ≤ fuel + index) :
    siftDown less (fuel + 1) as index = siftDown less fuel as index := by
  induction fuel generalizing as index with
  | zero => rw [siftDown_succ 0 as index, if_pos (by omega), siftDown]
  | succ fuel ih =>
    rw [siftDown_succ (fuel + 1) as index, siftDown_succ fuel as index]
    split
    · rfl
    split
    · rfl
    · have hchild : index < smallest less as index := by
        unfold smallest
        split <;> omega
      exact ih (by rw [length_swap]; omega)

/-! ## The order -/

section

variable {key : α → Nat} {as : List α}

/-- The comparison is that of the keys, on these elements. -/
def LessBy (less : α → α → Bool) (key : α → Nat) (as : List α) : Prop :=
  ∀ x ∈ as, ∀ y ∈ as, less x y = true ↔ key x < key y

/-- The key at an index. -/
def keyAt (key : α → Nat) (as : List α) (i : Nat) : Nat := (as[i]?.map key).getD 0

/-- No element has a key below that of its parent. -/
def Ordered (key : α → Nat) (as : List α) : Prop :=
  ∀ i, 0 < i → i < as.length → keyAt key as ((i - 1) / 2) ≤ keyAt key as i

/-- Only the element at the index may be less than its parent; its children are not less than that
parent. -/
structure UpReady (key : α → Nat) (as : List α) (index : Nat) : Prop where
  others : ∀ i, 0 < i → i < as.length → i ≠ index → keyAt key as ((i - 1) / 2) ≤ keyAt key as i
  grand : ∀ i, 0 < i → i < as.length → (i - 1) / 2 = index → 0 < index →
    keyAt key as ((index - 1) / 2) ≤ keyAt key as i

/-- Only the children of the index may be less than their parent; they are not less than its
parent. -/
structure DownReady (key : α → Nat) (as : List α) (index : Nat) : Prop where
  others : ∀ i, 0 < i → i < as.length → (i - 1) / 2 ≠ index →
    keyAt key as ((i - 1) / 2) ≤ keyAt key as i
  grand : ∀ i, 0 < i → i < as.length → (i - 1) / 2 = index → 0 < index →
    keyAt key as ((index - 1) / 2) ≤ keyAt key as i

theorem LessBy.perm {bs : List α} (h : LessBy less key as) (hp : bs.Perm as) : LessBy less key bs :=
  fun x hx y hy => h x (hp.subset hx) y (hp.subset hy)

theorem keyAt_eq {i : Nat} (hi : i < as.length) : keyAt key as i = key as[i] := by
  simp [keyAt, hi]

theorem lessAt_iff (h : LessBy less key as) {i j : Nat} (hi : i < as.length) (hj : j < as.length) :
    lessAt less as i j = true ↔ keyAt key as i < keyAt key as j := by
  rw [keyAt_eq hi, keyAt_eq hj, lessAt, getElem?_eq_getElem hi, getElem?_eq_getElem hj]
  exact h _ (getElem_mem hi) _ (getElem_mem hj)

theorem not_lessAt_iff (h : LessBy less key as) {i j : Nat} (hi : i < as.length)
    (hj : j < as.length) : (!lessAt less as i j) = true ↔ keyAt key as j ≤ keyAt key as i := by
  rw [Bool.not_eq_true', ← Bool.not_eq_true, lessAt_iff h hi hj, Nat.not_lt]

variable (key) in
theorem keyAt_swap {i j : Nat} (hi : i < as.length) (hj : j < as.length) (m : Nat) :
    keyAt key (swap as i j) m =
      if m = j then keyAt key as i else if m = i then keyAt key as j else keyAt key as m := by
  rw [swap, getElem?_eq_getElem hi, getElem?_eq_getElem hj]
  simp only [keyAt, getElem?_set, length_set]
  by_cases hmj : m = j
  · subst hmj
    simp [hi, hj]
  · by_cases hmi : m = i
    · subst hmi
      simp [hi, hj, hmj, Ne.symm hmj]
    · simp [hmj, hmi, Ne.symm hmj, Ne.symm hmi]

theorem siftUp_ordered {fuel index : Nat} (hless : LessBy less key as) (hindex : index < as.length)
    (hfuel : index ≤ fuel) (h : UpReady key as index) :
    Ordered key (siftUp less fuel as index) := by
  induction fuel generalizing as index with
  | zero =>
    obtain rfl : index = 0 := by omega
    exact fun i hi hlen => h.others i hi hlen (by omega)
  | succ fuel ih =>
    rw [siftUp_succ fuel as index]
    split
    · subst index
      exact fun i hi hlen => h.others i hi hlen (by omega)
    rename_i hpos
    have hparent : (index - 1) / 2 < as.length := by omega
    split
    · rename_i hnot
      have hle := (not_lessAt_iff hless hindex hparent).mp hnot
      intro i hi hlen
      by_cases heq : i = index
      · rw [heq]
        exact hle
      · exact h.others i hi hlen heq
    · rename_i hyes
      have hlt := Nat.not_le.mp (mt (not_lessAt_iff hless hindex hparent).mpr hyes)
      refine ih (hless.perm (swap_perm as _ _)) (by rw [length_swap]; exact hparent) (by omega) ?_
      have hval := keyAt_swap key hindex hparent
      refine ⟨fun i hi hlen hne => ?_, fun i hi hlen hchild hpos' => ?_⟩
      · rw [length_swap] at hlen
        rw [hval, hval, if_neg hne]
        by_cases hsibling : (i - 1) / 2 = (index - 1) / 2
        · rw [if_pos hsibling]
          split
          · exact hlt.le
          · rename_i hother
            exact hlt.le.trans (hsibling ▸ h.others i hi hlen hother)
        · rw [if_neg hsibling, if_neg (show i ≠ index from fun heq => hsibling (by rw [heq]))]
          split
          · exact h.grand i hi hlen ‹_› (by omega)
          · exact h.others i hi hlen (fun heq => hsibling (by rw [heq]))
      · rw [length_swap] at hlen
        have hup := h.others ((index - 1) / 2) hpos' hparent (by omega)
        rw [hval, hval, if_neg (by omega), if_neg (by omega), if_neg (by omega)]
        split
        · exact hup
        · rename_i hother
          exact hup.trans (hchild ▸ h.others i hi hlen hother)

/-- The child that is compared is a child, and no child is less than it. -/
theorem smallest_spec (hless : LessBy less key as) {index : Nat}
    (hleft : index * 2 + 1 < as.length) :
    smallest less as index < as.length ∧ (smallest less as index - 1) / 2 = index ∧
      0 < smallest less as index ∧ ∀ i, 0 < i → i < as.length → (i - 1) / 2 = index →
        keyAt key as (smallest less as index) ≤ keyAt key as i := by
  unfold smallest
  split
  · rename_i hright
    have hlt := (lessAt_iff hless hright.1 hleft).mp hright.2
    refine ⟨hright.1, by omega, by omega, fun i hi hlen hchild => ?_⟩
    obtain rfl | rfl : i = index * 2 + 1 ∨ i = index * 2 + 2 := by omega
    · exact hlt.le
    · exact Nat.le_refl _
  · rename_i hnot
    refine ⟨hleft, by omega, by omega, fun i hi hlen hchild => ?_⟩
    obtain rfl | rfl : i = index * 2 + 1 ∨ i = index * 2 + 2 := by omega
    · exact Nat.le_refl _
    · rw [← Nat.not_lt, ← lessAt_iff hless hlen hleft]
      exact fun hlt => hnot ⟨hlen, hlt⟩

theorem siftDown_ordered {fuel index : Nat} (hless : LessBy less key as)
    (hindex : index < as.length) (hfuel : as.length ≤ fuel + index) (h : DownReady key as index) :
    Ordered key (siftDown less fuel as index) := by
  induction fuel generalizing as index with
  | zero => omega
  | succ fuel ih =>
    rw [siftDown_succ fuel as index]
    split
    · -- the index has no children
      exact fun i hi hlen => h.others i hi hlen (by omega)
    rename_i hleft
    obtain ⟨hchild, hparent, hpos, hmin⟩ := smallest_spec hless (Nat.lt_of_not_le hleft)
    generalize smallest less as index = child at hchild hparent hpos hmin
    split
    · rename_i hnot
      have hle := (not_lessAt_iff hless hchild hindex).mp hnot
      intro i hi hlen
      by_cases heq : (i - 1) / 2 = index
      · rw [heq]
        exact hle.trans (hmin i hi hlen heq)
      · exact h.others i hi hlen heq
    · rename_i hyes
      have hlt := Nat.not_le.mp (mt (not_lessAt_iff hless hchild hindex).mpr hyes)
      refine ih (hless.perm (swap_perm as _ _)) (by rw [length_swap]; exact hchild)
        (by rw [length_swap]; omega) ?_
      have hval := keyAt_swap key hindex hchild
      refine ⟨fun i hi hlen hne => ?_, fun i hi hlen hgrand hpos' => ?_⟩
      · rw [length_swap] at hlen
        rw [hval, hval, if_neg hne]
        by_cases hsibling : (i - 1) / 2 = index
        · rw [if_pos hsibling]
          split
          · exact hlt.le
          · rw [if_neg (by omega)]
            exact hmin i hi hlen hsibling
        · rw [if_neg hsibling, if_neg (show i ≠ child from fun heq => hsibling (heq ▸ hparent))]
          split
          · rename_i heq
            subst heq
            exact h.grand child hpos hchild hparent hi
          · exact h.others i hi hlen hsibling
      · rw [length_swap] at hlen
        rw [hval, hval, hparent, if_neg (by omega), if_pos rfl, if_neg (by omega),
          if_neg (by omega)]
        have := h.others i hi hlen (by omega)
        rwa [hgrand] at this

theorem push_ordered {x : α} (hless : LessBy less key (x :: as)) (h : Ordered key as) :
    Ordered key (push less as x) := by
  have hkey {i : Nat} (hi : i < as.length) : keyAt key (as ++ [x]) i = keyAt key as i := by
    rw [keyAt, keyAt, getElem?_append_left hi]
  refine siftUp_ordered (hless.perm (perm_append_singleton x as)) (by simp) le_rfl ⟨?_, ?_⟩
  · intro i hi hlen hne
    have hlt : i < as.length := by
      rw [length_append, length_singleton] at hlen
      omega
    rw [hkey hlt, hkey (by omega)]
    exact h i hi hlt
  · intro i hi hlen hchild
    rw [length_append, length_singleton] at hlen
    omega

theorem Ordered.head_le (h : Ordered key as) {i : Nat} (hi : i < as.length) :
    keyAt key as 0 ≤ keyAt key as i := by
  induction i using Nat.strongRecOn with
  | ind i ih =>
    rcases Nat.eq_zero_or_pos i with rfl | hpos
    · exact Nat.le_refl _
    · exact (ih ((i - 1) / 2) (by omega) (by omega)).trans (h i hpos hi)

/-- The element that is taken has the least key, and the rest is ordered. -/
theorem pop_ordered {as' : List α} {x : α} (hless : LessBy less key as) (h : Ordered key as)
    (hpop : pop less as = some (x, as')) : Ordered key as' ∧ ∀ y ∈ as, key x ≤ key y := by
  cases as with
  | nil => cases hpop
  | cons head rest =>
    have hx : x = head := by
      simp only [pop] at hpop
      split at hpop <;> cases hpop <;> rfl
    subst hx
    refine ⟨?_, fun y hy => ?_⟩
    · simp only [pop] at hpop
      split at hpop
      · cases hpop
        intro i _ hlen
        exact absurd hlen (Nat.not_lt_zero i)
      · rename_i tail hlast
        cases hpop
        have hsplit : rest.dropLast ++ [tail] = rest := dropLast_append_getLast? tail hlast
        have hlen : (tail :: rest.dropLast).length = rest.length := by
          rw [← congrArg List.length hsplit]
          simp
        have hperm : (tail :: rest.dropLast).Perm rest :=
          (perm_append_singleton tail _).symm.trans (.of_eq hsplit)
        have hkey {i : Nat} (hi : 0 < i) (hilen : i < rest.length) :
            keyAt key (tail :: rest.dropLast) i = keyAt key (x :: rest) i := by
          obtain ⟨j, rfl⟩ := Nat.exists_eq_succ_of_ne_zero hi.ne'
          rw [keyAt, keyAt, getElem?_cons_succ, getElem?_cons_succ, ← hsplit,
            getElem?_append_left (by rw [length_cons] at hlen; omega), dropLast_concat]
        refine siftDown_ordered
          (fun a ha b hb => hless a (.tail x (hperm.subset ha)) b (.tail x (hperm.subset hb)))
          (by simp) (by rw [hlen]; omega) ⟨?_, ?_⟩
        · intro i hi hilen hne
          rw [hlen] at hilen
          rw [hkey (by omega) (by omega), hkey hi hilen]
          exact h i hi (by rw [length_cons]; omega)
        · intro i hi hilen hchild hpos
          exact absurd hpos (Nat.lt_irrefl 0)
    · obtain ⟨i, hi, rfl⟩ := getElem_of_mem hy
      have := h.head_le hi
      rwa [keyAt_eq hi, keyAt_eq (by simp)] at this

end

end Halo.BinHeap
