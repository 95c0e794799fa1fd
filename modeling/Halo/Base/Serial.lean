import Mathlib.Data.List.Basic
import Mathlib.Data.UInt

/-!
# Serial numbers

A wrapping 32-bit number is compared with another by the sign of their difference. Numbers that lie
less than `2 ^ 31` after a common base are in the order of their distances from it.
-/

namespace Halo

theorem toInt_toInt32 (x : UInt32) :
    x.toInt32.toInt = if x.toNat < 2 ^ 31 then (x.toNat : Int) else x.toNat - 2 ^ 32 := by
  show x.toBitVec.toInt = _
  rw [BitVec.toInt_eq_toNat_cond, UInt32.toNat_toBitVec]
  split <;> split <;> omega

theorem toInt32_nonneg {x : UInt32} : 0 ≤ x.toInt32 ↔ x.toNat < 2 ^ 31 := by
  have hx := x.toNat_lt
  rw [Int32.le_iff_toInt_le, toInt_toInt32, Int32.toInt_zero]
  split <;> omega

theorem toInt32_neg {x : UInt32} : x.toInt32 < 0 ↔ 2 ^ 31 ≤ x.toNat := by
  rw [← not_iff_not, Int32.not_lt, toInt32_nonneg, Nat.not_le]

theorem toInt32_pos {x : UInt32} : 0 < x.toInt32 ↔ 0 < x.toNat ∧ x.toNat < 2 ^ 31 := by
  have hx := x.toNat_lt
  rw [Int32.lt_iff_toInt_lt, toInt_toInt32, Int32.toInt_zero]
  split <;> omega

/-- The distance of two numbers from a common base. -/
theorem toNat_sub_of_offsets (base : UInt32) {m n : Nat} (hm : m < 2 ^ 32) (hn : n < 2 ^ 32) :
    ((base + .ofNat m) - (base + .ofNat n)).toNat = if n ≤ m then m - n else 2 ^ 32 + m - n := by
  have hm' : (UInt32.ofNat m).toNat = m := UInt32.toNat_ofNat_of_lt' hm
  have hn' : (UInt32.ofNat n).toNat = n := UInt32.toNat_ofNat_of_lt' hn
  have hcancel : (base + .ofNat m) - (base + .ofNat n) = UInt32.ofNat m - .ofNat n := by
    rw [add_sub_add_left_eq_sub]
  rw [hcancel, UInt32.toNat_sub, hm', hn']
  split <;> omega

/-- `n` numbers from `start` on. -/
def numbers (start : UInt32) (n : Nat) : List UInt32 := (List.range n).map fun i => start + .ofNat i

@[simp] theorem length_numbers (start : UInt32) (n : Nat) : (numbers start n).length = n := by
  simp [numbers]

theorem numbers_succ (start : UInt32) (n : Nat) :
    numbers start (n + 1) = start :: numbers (start + 1) n := by
  rw [numbers, numbers, List.range_succ_eq_map, List.map_cons, List.map_map]
  congr 1
  · simp
  · apply List.map_congr_left
    intro i _
    show start + UInt32.ofNat (i + 1) = start + 1 + UInt32.ofNat i
    rw [UInt32.ofNat_add, UInt32.add_comm (UInt32.ofNat i), ← UInt32.add_assoc]
    rfl

theorem numbers_add (start : UInt32) (m n : Nat) :
    numbers start (m + n) = numbers start m ++ numbers (start + .ofNat m) n := by
  induction m generalizing start with
  | zero => simp [numbers]
  | succ m ih =>
    rw [Nat.succ_add, numbers_succ, numbers_succ, ih, List.cons_append, UInt32.ofNat_add,
      UInt32.add_comm (UInt32.ofNat m), ← UInt32.add_assoc]
    rfl

theorem drop_numbers (start : UInt32) (m n : Nat) :
    (numbers start n).drop m = numbers (start + .ofNat (min m n)) (n - m) := by
  rcases Nat.le_total m n with h | h
  · obtain ⟨d, rfl⟩ := Nat.exists_eq_add_of_le h
    rw [numbers_add, List.drop_left' (length_numbers start m), Nat.min_eq_left h,
      Nat.add_sub_cancel_left]
  · rw [List.drop_eq_nil_of_le (by simpa using h), Nat.sub_eq_zero_of_le h]
    rfl

/-- A number that is one of fewer than `2 ^ 32` is there once. -/
theorem offset_not_mem_numbers (start : UInt32) {i n : Nat} (hin : n ≤ i) (hi : i < 2 ^ 32) :
    start + .ofNat i ∉ numbers start n := by
  intro hmem
  obtain ⟨j, hj, heq⟩ := List.mem_map.mp hmem
  have hlt := List.mem_range.mp hj
  have hzero : ((start + .ofNat i) - (start + .ofNat j)).toNat = 0 := by
    rw [← heq, sub_self]
    rfl
  rw [toNat_sub_of_offsets start hi (by omega), if_pos (by omega)] at hzero
  omega

end Halo
