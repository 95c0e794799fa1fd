import Halo.Base.Fields

/-!
# One's complement sums

The sum of the 16-bit words of a byte string, as a natural number (`wordSum`), and the number of 16
bits that folding its carries gives (`onesNorm`): the remainder by `65535`, where only the sum zero
gives zero.

* `wordSum_append`, `wordSum_setWord`: the sum of an append at a word boundary, and after a write.
* `onesNorm_round`: adding the carry to the low word keeps `onesNorm`.
* `onesSum_eq`: adding the words in one's complement gives the folded sum.
* `onesNorm_complement`: with the complement of its folded sum added, a sum folds to `65535`.
-/

namespace Halo

open List

/-- The sum of the big-endian words; an odd last byte is the high half of a word. -/
def wordSum : Bytes → Nat
  | a :: b :: rest => a.toNat * 256 + b.toNat + wordSum rest
  | [a] => a.toNat * 256
  | [] => 0

/-- A sum with its carries folded. -/
def onesNorm (n : Nat) : Nat := if n = 0 then 0 else (n - 1) % 65535 + 1

/-- Addition in one's complement: a carry out of the 16 bits comes back at the low end. -/
def onesAdd (a b : Nat) : Nat := if a + b < 65536 then a + b else a + b - 65536 + 1

/-- The words of a string added in one's complement to a first one. -/
def onesSum : (sum : Nat) → Bytes → Nat
  | sum, a :: b :: rest => onesSum (onesAdd sum (a.toNat * 256 + b.toNat)) rest
  | sum, [a] => onesAdd sum (a.toNat * 256)
  | sum, [] => sum

/-! ## Word sums -/

theorem wordSum_append (p q : Bytes) (h : p.length % 2 = 0) :
    wordSum (p ++ q) = wordSum p + wordSum q := by
  induction p using wordSum.induct with
  | case1 a b rest ih =>
    rw [length_cons, length_cons] at h
    have hrest := ih (by omega)
    simp only [cons_append, wordSum]
    omega
  | case2 a => simp at h
  | case3 => simp [wordSum]

theorem wordSum_le (p : Bytes) : wordSum p ≤ 65535 * ((p.length + 1) / 2) := by
  induction p using wordSum.induct with
  | case1 a b rest ih =>
    have ha := a.toNat_lt
    have hb := b.toNat_lt
    simp only [wordSum, length_cons]
    omega
  | case2 a =>
    have ha := a.toNat_lt
    simp only [wordSum, length_singleton]
    omega
  | case3 => simp [wordSum]

/-- A string of zeros has the sum zero, and no other string has. -/
theorem wordSum_eq_zero_iff (p : Bytes) : wordSum p = 0 ↔ ∀ b ∈ p, b = 0 := by
  induction p using wordSum.induct with
  | case1 a b rest ih =>
    rw [forall_mem_cons, forall_mem_cons, ← ih, wordSum, ← UInt8.toNat_inj,
      ← UInt8.toNat_inj, UInt8.toNat_zero]
    omega
  | case2 a =>
    simp only [wordSum, forall_mem_singleton, ← UInt8.toNat_inj, UInt8.toNat_zero]
    omega
  | case3 => simp [wordSum]

/-- The sum of a string is that of a first part and that of the rest at its place. -/
theorem wordSum_take_add (p : Bytes) (k : Nat) :
    wordSum p = wordSum (p.take k) + wordSum (List.replicate k 0 ++ p.drop k) := by
  induction p using wordSum.induct generalizing k with
  | case1 a b rest ih =>
    match k with
    | 0 => simp [wordSum]
    | 1 => simp [wordSum, Nat.add_assoc]
    | k + 2 =>
      have hrest := ih k
      simp only [take_succ_cons, drop_succ_cons, replicate_succ, cons_append,
        wordSum, UInt8.toNat_zero]
      omega
  | case2 a =>
    match k with
    | 0 => simp [wordSum]
    | k + 1 =>
      have hzero := (wordSum_eq_zero_iff (List.replicate (k + 1) 0)).mpr
        fun b hb => eq_of_mem_replicate hb
      simp only [take_succ_cons, take_nil, drop_succ_cons, drop_nil,
        append_nil, hzero, Nat.add_zero]
  | case3 =>
    have hzero := (wordSum_eq_zero_iff (List.replicate k 0)).mpr
      fun b hb => eq_of_mem_replicate hb
    simp only [take_nil, drop_nil, append_nil, hzero, Nat.add_zero]

/-- The sum with the word at an even index on its own. -/
theorem wordSum_split (p : Bytes) (i : Nat) (heven : i % 2 = 0) (hi : i + 1 < p.length) :
    wordSum p = wordSum (p.take i) + ((wordAt p i).toNat + wordSum (p.drop (i + 2))) := by
  have hword : p.drop i = byteAt p i :: byteAt p (i + 1) :: p.drop (i + 2) := by
    rw [byteAt_eq_getElem (by omega), byteAt_eq_getElem hi, getElem_cons_drop,
      getElem_cons_drop]
  have hlen : (p.take i).length = i := by
    rw [length_take]
    omega
  conv_lhs => rw [← take_append_drop i p]
  rw [wordSum_append _ _ (by rw [hlen]; exact heven), hword, wordSum, wordAt, ofBe16_toNat]

/-- A write of a word at an even index. -/
theorem wordSum_setWord (p : Bytes) (i : Nat) (w : UInt16) (heven : i % 2 = 0)
    (hi : i + 1 < p.length) :
    wordSum (setWord p i w) + (wordAt p i).toNat = wordSum p + w.toNat := by
  have hdrop : (setWord p i w).drop (i + 2) = p.drop (i + 2) := by
    rw [setWord, drop_set_of_lt (by omega), drop_set_of_lt (by omega)]
  rw [wordSum_split (setWord p i w) i heven (by simpa using hi), wordSum_split p i heven hi,
    take_setWord_of_le le_rfl, hdrop, wordAt_setWord_self hi]
  omega

/-! ## Folded sums -/

theorem onesNorm_le (n : Nat) : onesNorm n ≤ 65535 := by
  unfold onesNorm
  split <;> omega

theorem onesNorm_of_le {n : Nat} (h : n ≤ 65535) : onesNorm n = n := by
  unfold onesNorm
  split <;> omega

/-- Sums fold to the same word if they have the same remainder, and are both zero or both not. -/
theorem onesNorm_eq_iff (m n : Nat) :
    onesNorm m = onesNorm n ↔ m % 65535 = n % 65535 ∧ (m = 0 ↔ n = 0) := by
  unfold onesNorm
  split <;> split <;> omega

theorem onesNorm_eq_max_iff (n : Nat) : onesNorm n = 65535 ↔ 0 < n ∧ n % 65535 = 0 := by
  unfold onesNorm
  split <;> omega

/-- One round: the carry is added to the low word. -/
theorem onesNorm_round (n : Nat) : onesNorm (n % 65536 + n / 65536) = onesNorm n := by
  rw [onesNorm_eq_iff]
  omega

theorem onesAdd_onesNorm (n : Nat) {w : Nat} (h : w ≤ 65535) :
    onesAdd (onesNorm n) w = onesNorm (n + w) := by
  unfold onesAdd onesNorm
  split <;> split <;> split <;> omega

theorem onesSum_eq (n : Nat) (p : Bytes) : onesSum (onesNorm n) p = onesNorm (n + wordSum p) := by
  induction p using wordSum.induct generalizing n with
  | case1 a b rest ih =>
    have ha := a.toNat_lt
    have hb := b.toNat_lt
    rw [onesSum, onesAdd_onesNorm n (by omega), ih, wordSum, Nat.add_assoc]
  | case2 a =>
    have ha := a.toNat_lt
    exact onesAdd_onesNorm n (by omega)
  | case3 => rfl

/-- One more word can fold a sum to any word but zero. -/
theorem exists_onesNorm_add (n : Nat) {r : Nat} (hr : 0 < r) (hr' : r ≤ 65535) :
    ∃ w : UInt16, onesNorm (n + w.toNat) = r := by
  refine ⟨UInt16.ofNat ((r + 65534 - n % 65535) % 65535 + 1), ?_⟩
  refine ((onesNorm_eq_iff _ r).mpr ?_).trans (onesNorm_of_le hr')
  rw [UInt16.toNat_ofNat']
  omega

theorem onesNorm_complement (n : Nat) : onesNorm (n + (65535 - onesNorm n)) = 65535 := by
  rw [onesNorm_eq_max_iff]
  unfold onesNorm
  split <;> omega

end Halo
