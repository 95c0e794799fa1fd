import Halo.Base.OnesSum

/-!
# The internet checksum (`protocol/utils.go`)

`getCheckSum` with the two loops of the source.

* `getCheckSum_toNat`: it is the complement of the folded word sum, for data of up to 131072 bytes,
  where the sum of 32 bits does not overflow.
* `getCheckSum_setWord`: data whose checksum word is set to the checksum computed over a zero there
  has the checksum zero.
* `getCheckSum_law`: these together, with the sum in one's complement arithmetic.
-/

namespace Halo

/-- The sum of the 16-bit words of `GetCheckSum`; an odd last byte is the high half of a word. -/
def sumWords : (sum : UInt32) → Bytes → UInt32
  | sum, a :: b :: rest => sumWords (sum + ((a.toUInt32 <<< 8) + b.toUInt32)) rest
  | sum, [a] => sum + (a.toUInt32 <<< 8)
  | sum, [] => sum

/-- The loop of `GetCheckSum` that folds the carries; two rounds are enough for 32 bits. -/
def foldCarry : (fuel : Nat) → (sum : UInt32) → UInt32
  | 0, sum => sum
  | fuel + 1, sum =>
    if sum >>> 16 ≠ 0 then foldCarry fuel ((sum &&& (0xffff : UInt32)) + (sum >>> 16)) else sum

/-- `GetCheckSum`. -/
def getCheckSum (data : Bytes) : UInt16 := (~~~foldCarry 2 (sumWords 0 data)).toUInt16

/-! ## What it computes -/

theorem sumWords_toNat (sum : UInt32) (data : Bytes) (h : sum.toNat + wordSum data < 2 ^ 32) :
    (sumWords sum data).toNat = sum.toNat + wordSum data := by
  have hbyte : ∀ a : UInt8, (a.toUInt32 <<< 8).toNat = a.toNat * 256 := by
    intro a
    have := a.toNat_lt
    simp only [UInt32.toNat_shiftLeft, UInt8.toNat_toUInt32, UInt32.reduceToNat, Nat.reduceMod,
      Nat.shiftLeft_eq]
    omega
  fun_induction sumWords sum data with
  | case1 sum a b rest ih =>
    rw [wordSum] at h ⊢
    have hword : (sum + ((a.toUInt32 <<< 8) + b.toUInt32)).toNat =
        sum.toNat + (a.toNat * 256 + b.toNat) := by
      have := a.toNat_lt
      have := b.toNat_lt
      rw [UInt32.toNat_add, UInt32.toNat_add, hbyte, UInt8.toNat_toUInt32]
      omega
    rw [ih (by omega), hword]
    omega
  | case2 sum a =>
    rw [wordSum] at h ⊢
    rw [UInt32.toNat_add, hbyte]
    omega
  | case3 sum => rfl

theorem shiftRight_sixteen_eq_zero_iff (x : UInt32) : x >>> 16 = 0 ↔ x.toNat < 65536 := by
  rw [← UInt32.toNat_inj]
  simp [UInt32.toNat_shiftRight, Nat.shiftRight_eq_div_pow]

/-- One round of the folding loop. -/
theorem foldRound_toNat (x : UInt32) : ((x &&& (0xffff : UInt32)) + (x >>> 16)).toNat =
    x.toNat % 65536 + x.toNat / 65536 := by
  have hx := x.toNat_lt
  have hlow : (x &&& (0xffff : UInt32)).toNat = x.toNat % 65536 := by
    rw [UInt32.toNat_and]
    exact Nat.and_two_pow_sub_one_eq_mod x.toNat 16
  have hhigh : (x >>> 16).toNat = x.toNat / 65536 := by
    simp [UInt32.toNat_shiftRight, Nat.shiftRight_eq_div_pow]
  rw [UInt32.toNat_add, hlow, hhigh]
  omega

/-- Two rounds leave no carry, so the loop of the source ends there. -/
theorem foldCarry_two (sum : UInt32) : (foldCarry 2 sum).toNat = onesNorm sum.toNat := by
  have hsum := sum.toNat_lt
  simp only [foldCarry, ne_eq, shiftRight_sixteen_eq_zero_iff, foldRound_toNat, not_lt]
  split
  · split
    · rw [foldRound_toNat, foldRound_toNat, ← onesNorm_round sum.toNat,
        ← onesNorm_round (sum.toNat % 65536 + sum.toNat / 65536)]
      rw [onesNorm_of_le (by omega)]
    · rw [foldRound_toNat, ← onesNorm_round sum.toNat, onesNorm_of_le (by omega)]
  · rw [onesNorm_of_le (by omega)]

/-- A sum without a carry is where the loop ends. -/
theorem foldCarry_of_folded {sum : UInt32} (h : sum >>> 16 = 0) (fuel : Nat) :
    foldCarry fuel sum = sum := by
  cases fuel with
  | zero => rfl
  | succ fuel => rw [foldCarry, if_neg (not_not_intro h)]

theorem foldCarry_add (m n : Nat) (sum : UInt32) :
    foldCarry (m + n) sum = foldCarry n (foldCarry m sum) := by
  induction m generalizing sum with
  | zero => rw [Nat.zero_add, foldCarry]
  | succ m ih =>
    by_cases h : sum >>> 16 = 0
    · rw [foldCarry_of_folded h, foldCarry_of_folded h, foldCarry_of_folded h]
    · rw [Nat.add_right_comm, foldCarry, foldCarry, if_pos h, if_pos h, ih]

/-- The sum of 32 bits is the sum of the words. -/
theorem sumWords_exact {data : Bytes} (h : data.length ≤ 131072) :
    (sumWords 0 data).toNat = wordSum data := by
  have hle := wordSum_le data
  rw [sumWords_toNat 0 data (by rw [UInt32.toNat_zero]; omega), UInt32.toNat_zero, Nat.zero_add]

theorem getCheckSum_toNat {data : Bytes} (h : data.length ≤ 131072) :
    (getCheckSum data).toNat = 65535 - onesNorm (wordSum data) := by
  have hnorm := onesNorm_le (wordSum data)
  unfold getCheckSum
  rw [UInt32.toNat_toUInt16, UInt32.toNat_not, foldCarry_two, sumWords_exact h, UInt32.size]
  omega

theorem getCheckSum_eq_zero_iff {data : Bytes} (h : data.length ≤ 131072) :
    getCheckSum data = 0 ↔ onesNorm (wordSum data) = 65535 := by
  have hnorm := onesNorm_le (wordSum data)
  rw [← UInt16.toNat_inj, getCheckSum_toNat h, UInt16.toNat_zero]
  omega

/-- The checksum of data that carries its own checksum. -/
theorem getCheckSum_setWord {data : Bytes} {i : Nat} (h : data.length ≤ 131072)
    (heven : i % 2 = 0) (hi : i + 1 < data.length) (hzero : wordAt data i = 0) :
    getCheckSum (setWord data i (getCheckSum data)) = 0 := by
  have hsum := wordSum_setWord data i (getCheckSum data) heven hi
  rw [hzero, UInt16.toNat_zero, Nat.add_zero, getCheckSum_toNat h] at hsum
  rw [getCheckSum_eq_zero_iff (by simpa using h), hsum]
  exact onesNorm_complement (wordSum data)

/-- The checksum of up to 131072 bytes: every sum on the way is exact in 32 bits, the folding loop
ends after two rounds, the result is the complement of the one's complement sum of the words, and it
makes the data that carries it sum to zero. -/
theorem getCheckSum_law {data : Bytes} (h : data.length ≤ 131072) :
    (∀ k, (sumWords 0 (data.take k)).toNat = wordSum (data.take k)) ∧
      (foldCarry 2 (sumWords 0 data) >>> 16 = 0 ∧
        ∀ fuel, 2 ≤ fuel → foldCarry fuel (sumWords 0 data) = foldCarry 2 (sumWords 0 data)) ∧
      (getCheckSum data).toNat = 65535 - onesSum 0 data ∧
      ∀ i, i % 2 = 0 → i + 1 < data.length → wordAt data i = 0 →
        getCheckSum (setWord data i (getCheckSum data)) = 0 := by
  have hfolded : foldCarry 2 (sumWords 0 data) >>> 16 = 0 := by
    have hle := onesNorm_le (sumWords 0 data).toNat
    rw [shiftRight_sixteen_eq_zero_iff, foldCarry_two]
    omega
  refine ⟨fun k => ?_, ⟨hfolded, fun fuel hfuel => ?_⟩, ?_, fun i => getCheckSum_setWord h⟩
  · exact sumWords_exact (Nat.le_trans (List.length_take_le' k data) h)
  · obtain ⟨more, rfl⟩ := Nat.exists_eq_add_of_le hfuel
    rw [foldCarry_add, foldCarry_of_folded hfolded]
  · have hsum := onesSum_eq 0 data
    rw [Nat.zero_add] at hsum
    rw [getCheckSum_toNat h, ← hsum]
    rfl

/-- An odd number of bytes, with its checksum in front. -/
theorem getCheckSum_law_odd :
    getCheckSum [0, 0, 0xff, 0xff, 0x12] = 0xedff ∧
      getCheckSum [0xed, 0xff, 0xff, 0xff, 0x12] = 0 :=
  ⟨by decide, (@getCheckSum_law [0, 0, 0xff, 0xff, 0x12] (by decide)).2.2.2 0 rfl (by decide) rfl⟩

end Halo
