import Mathlib

/-!
# Byte strings, fixed-width numbers in them, and faults

Byte strings are lists of bytes. `byteAt` reads a byte (`0` past the end), `vecAt` a fixed-size
array. The numbers are in big-endian (`ofBe16`, `be16`, `ofBe32`, `be32`) or little-endian order
(`ofLe`, `leBytes`, for any number of bytes); `ofBe16_be16`, `ofBe32_be32` and `ofLe_leBytes` are
the round trips. `toNat_and_highMask` reads a mask as rounding down. `Fault` is a panic of the Go
run time: a function that can panic returns `Except Fault`.
-/

namespace Halo

/-- A run-time panic of the Go code. -/
inductive Fault where
  | divideByZero
  | nilDereference
  | indexOutOfRange
  deriving DecidableEq, Repr

/-- A byte string. -/
abbrev Bytes := List UInt8

/-- The byte at an index, `0` past the end. -/
def byteAt (b : Bytes) (i : Nat) : UInt8 := b.getD i 0

/-- The array of `n` bytes from index `i`. -/
def vecAt (n : Nat) (b : Bytes) (i : Nat) : Vector UInt8 n := .ofFn fun j => byteAt b (i + j)

/-- The big-endian number of two bytes. -/
def ofBe16 (hi lo : UInt8) : UInt16 := hi.toUInt16 <<< 8 ||| lo.toUInt16

/-- The two bytes of a number, the most significant one first. -/
def be16 (x : UInt16) : Bytes := [(x >>> 8).toUInt8, x.toUInt8]

theorem ofBe16_toNat (hi lo : UInt8) : (ofBe16 hi lo).toNat = hi.toNat * 256 + lo.toNat := by
  have h := hi.toNat_lt
  have l := lo.toNat_lt
  simp only [ofBe16, UInt16.toNat_or, UInt16.toNat_shiftLeft, UInt8.toNat_toUInt16,
    UInt16.reduceToNat, Nat.reduceMod]
  rw [Nat.mod_eq_of_lt (by rw [Nat.shiftLeft_eq]; omega),
    ← Nat.shiftLeft_add_eq_or_of_lt (by omega), Nat.shiftLeft_eq]

@[simp] theorem ofBe16_be16 (x : UInt16) : ofBe16 (x >>> 8).toUInt8 x.toUInt8 = x := by
  apply UInt16.toNat_inj.mp
  have := x.toNat_lt
  rw [ofBe16_toNat]
  simp only [UInt16.toNat_toUInt8, UInt16.toNat_shiftRight, UInt16.reduceToNat, Nat.reduceMod,
    Nat.shiftRight_eq_div_pow]
  omega

/-- The big-endian number of four bytes. -/
def ofBe32 (b₀ b₁ b₂ b₃ : UInt8) : UInt32 :=
  b₀.toUInt32 <<< 24 ||| b₁.toUInt32 <<< 16 ||| b₂.toUInt32 <<< 8 ||| b₃.toUInt32

/-- The four bytes of a number, the most significant one first. -/
def be32 (x : UInt32) : Bytes :=
  [(x >>> 24).toUInt8, (x >>> 16).toUInt8, (x >>> 8).toUInt8, x.toUInt8]

theorem ofBe32_toNat (b₀ b₁ b₂ b₃ : UInt8) :
    (ofBe32 b₀ b₁ b₂ b₃).toNat =
      b₀.toNat * 2 ^ 24 + b₁.toNat * 2 ^ 16 + b₂.toNat * 2 ^ 8 + b₃.toNat := by
  have h₀ := b₀.toNat_lt
  have h₁ := b₁.toNat_lt
  have h₂ := b₂.toNat_lt
  have h₃ := b₃.toNat_lt
  simp only [ofBe32, UInt32.toNat_or, UInt32.toNat_shiftLeft, UInt8.toNat_toUInt32,
    Nat.shiftLeft_eq, UInt32.reduceToNat, Nat.reduceMod]
  rw [Nat.mod_eq_of_lt (by omega), Nat.mod_eq_of_lt (by omega), Nat.mod_eq_of_lt (by omega),
    ← Nat.shiftLeft_eq, ← Nat.shiftLeft_eq, ← Nat.shiftLeft_eq, Nat.or_assoc, Nat.or_assoc,
    ← Nat.shiftLeft_add_eq_or_of_lt (i := 8) (by omega),
    ← Nat.shiftLeft_add_eq_or_of_lt (i := 16) (by omega),
    ← Nat.shiftLeft_add_eq_or_of_lt (i := 24) (by omega)]
  omega

@[simp] theorem ofBe32_be32 (x : UInt32) :
    ofBe32 (x >>> 24).toUInt8 (x >>> 16).toUInt8 (x >>> 8).toUInt8 x.toUInt8 = x := by
  have hx := x.toNat_lt
  apply UInt32.toNat_inj.mp
  rw [ofBe32_toNat]
  simp only [UInt32.toNat_toUInt8, UInt32.toNat_shiftRight, UInt32.reduceToNat, Nat.reduceMod,
    Nat.shiftRight_eq_div_pow]
  omega

/-- The lowest `w` bytes of a number, the least significant one first. -/
def leBytes : (w : Nat) → Nat → Bytes
  | 0, _ => []
  | w + 1, n => UInt8.ofNat n :: leBytes w (n / 256)

/-- The number of a little-endian byte string. -/
def ofLe : Bytes → Nat
  | [] => 0
  | b :: bs => b.toNat + 256 * ofLe bs

@[simp] theorem length_leBytes (w n : Nat) : (leBytes w n).length = w := by
  induction w generalizing n with
  | zero => rfl
  | succ w ih => simp [leBytes, ih]

theorem ofLe_leBytes (w n : Nat) : ofLe (leBytes w n) = n % 256 ^ w := by
  induction w generalizing n with
  | zero => simp [leBytes, ofLe, Nat.mod_one]
  | succ w ih =>
    have hbyte : (UInt8.ofNat n).toNat = n % 256 := UInt8.toNat_ofNat
    rw [leBytes, ofLe, ih, hbyte, Nat.pow_succ', Nat.mod_mul]

theorem ofLe_append (p q : Bytes) : ofLe (p ++ q) = ofLe p + 256 ^ p.length * ofLe q := by
  induction p with
  | nil => simp [ofLe]
  | cons b p ih => rw [List.cons_append, ofLe, ih, ofLe, List.length_cons]; ring

/-- A mask without the lowest `k` bits rounds down to a multiple of `2 ^ k`. -/
theorem toNat_and_highMask {k : Nat} (hk : k ≤ 64) (x : UInt64) {m : UInt64}
    (hm : m.toNat = (2 ^ (64 - k) - 1) * 2 ^ k) : (x &&& m).toNat = x.toNat / 2 ^ k * 2 ^ k := by
  rw [UInt64.toNat_and, hm]
  apply Nat.eq_of_testBit_eq
  intro i
  rw [Nat.testBit_and, Nat.testBit_mul_two_pow, Nat.testBit_mul_two_pow,
    Nat.testBit_two_pow_sub_one, Nat.testBit_div_two_pow]
  by_cases hlow : k ≤ i
  · by_cases hhigh : i < 64
    · have hbits : i - k < 64 - k := by omega
      simp [hlow, hbits]
    · have hx : x.toNat < 2 ^ i :=
        Nat.lt_of_lt_of_le x.toNat_lt (Nat.pow_le_pow_right (by decide) (by omega))
      simp [hlow, Nat.testBit_lt_two_pow hx]
  · simp [hlow]

end Halo
