import Halo.Mem.RingBuffer

/-!
# The contents of a ring

The cursors are counters that wrap around at 2^64; here they are the values of unbounded positions.

* `Geometry rb`: the fixed parts of a ring. `Geometry.dataOffset_eq` says that the payload of a
  record follows its length around the end of the data area.
* `Contains rb T pkts`: the records of `pkts` are in the ring from the position `T` on, and nothing
  else. `Stored.frame` says that writes behind the records keep them.
-/

namespace Halo

/-- The bytes of a record with a payload of `n` bytes. -/
def recordBytes (n : Nat) : Nat := (n + 7) / 4 * 4

/-- The bytes of the records of some packets. -/
def span (pkts : List Bytes) : Nat := (pkts.map fun p => recordBytes p.length).sum

@[simp] theorem span_nil : span [] = 0 := rfl

@[simp] theorem span_cons (p : Bytes) (pkts : List Bytes) :
    span (p :: pkts) = recordBytes p.length + span pkts := rfl

@[simp] theorem span_append (ps qs : List Bytes) : span (ps ++ qs) = span ps + span qs := by
  simp [span]

theorem recordBytes_bounds (n : Nat) : n + 4 ≤ recordBytes n ∧ recordBytes n < n + 8 := by
  unfold recordBytes
  omega

theorem four_dvd_span (pkts : List Bytes) : 4 ∣ span pkts := by
  induction pkts with
  | nil => exact Nat.dvd_zero 4
  | cons p pkts ih => exact Nat.dvd_add (Nat.dvd_mul_left 4 _) ih

/-! ## Arithmetic of the cursors -/

theorem toNat_and_not_three (x : UInt64) : (x &&& ~~~(3 : UInt64)).toNat = x.toNat / 4 * 4 :=
  toNat_and_highMask (show 2 ≤ 64 by decide) x rfl

/-- The length of a packet that can be written. -/
theorem toNat_len {n : Nat} (hn : n ≤ maxPacketSize) : (UInt32.ofNat n).toNat = n := by
  unfold maxPacketSize at hn
  rw [UInt32.toNat_ofNat']
  omega

theorem recordSize_eq {n : Nat} (hn : n ≤ maxPacketSize) :
    ringBufferRecordSize (UInt32.ofNat n) = UInt64.ofNat (recordBytes n) := by
  have hlen := toNat_len hn
  unfold maxPacketSize at hn
  rw [← UInt64.toNat_inj]
  unfold ringBufferRecordSize
  have hmask : recordAlign - 1 = 3 := rfl
  have hsum : (recordHeaderSize + (UInt32.ofNat n).toUInt64 + recordAlign - 1).toNat = n + 7 := by
    have h4 : recordHeaderSize.toNat = 4 := rfl
    have h4' : recordAlign.toNat = 4 := rfl
    have h1 : (1 : UInt64).toNat = 1 := rfl
    rw [UInt64.toNat_sub, UInt64.toNat_add, UInt64.toNat_add, UInt32.toNat_toUInt64, hlen,
      h4, h4', h1]
    omega
  dsimp only
  rw [hmask, toNat_and_not_three, hsum, UInt64.toNat_ofNat']
  unfold recordBytes
  omega

theorem toNat_ofNat_sub {a b : Nat} (hle : b ≤ a) (hlt : a - b < 2 ^ 64) :
    (UInt64.ofNat a - UInt64.ofNat b).toNat = a - b := by
  rw [UInt64.toNat_sub, UInt64.toNat_ofNat', UInt64.toNat_ofNat']
  omega

/-- A number that has no bit in common with its predecessor is a power of two. -/
theorem exists_pow_of_and_pred {n : Nat} (hn : 0 < n) (h : n &&& (n - 1) = 0) : ∃ k, n = 2 ^ k := by
  refine ⟨n.log2, ?_⟩
  have hle : 2 ^ n.log2 ≤ n := Nat.log2_self_le (Nat.ne_of_gt hn)
  have hlt : n < 2 ^ (n.log2 + 1) := Nat.lt_log2_self
  rcases Nat.eq_or_lt_of_le hle with heq | hgt
  · exact heq.symm
  · -- otherwise both numbers have the highest bit
    exfalso
    have hbit : ∀ m, 2 ^ n.log2 ≤ m → m < 2 ^ (n.log2 + 1) → m.testBit n.log2 = true := by
      intro m hm hm'
      have hdiv : m / 2 ^ n.log2 = 1 := by
        rw [Nat.pow_succ] at hm'
        exact Nat.div_eq_of_lt_le (by omega) (by omega)
      rw [Nat.testBit_eq_decide_div_mod_eq, hdiv]
      rfl
    have hand := congrArg (fun m => m.testBit n.log2) h
    simp only [Nat.testBit_and, Nat.zero_testBit] at hand
    rw [hbit n hle hlt, hbit (n - 1) (by omega) (by omega)] at hand
    cases hand

/-! ## The contents of a ring -/

/-- A packet that fits into the ring. -/
structure Fits (rb : RingBuffer) (p : Bytes) : Prop where
  pos : 0 < p.length
  le_max : p.length ≤ maxPacketSize
  le_half : p.length ≤ rb.size.toNat / 2

/-- The fixed parts of a ring. -/
structure Geometry (rb : RingBuffer) : Prop where
  size_eq : ∃ k, 3 ≤ k ∧ k ≤ 62 ∧ rb.size.toNat = 2 ^ k
  mask_eq : rb.mask = rb.size - 1
  allocated : Allocated rb.buffer rb.size.toNat

/-- The records of some packets, from the position `i` on. -/
def Stored (rb : RingBuffer) : Nat → List Bytes → Prop
  | _, [] => True
  | i, p :: pkts => Holds rb.buffer rb.size.toNat i (leBytes 4 p.length ++ p) ∧
      Stored rb (i + recordBytes p.length) pkts

/-- The ring has exactly the records of `pkts` in it, from the position `T` on. -/
structure Contains (rb : RingBuffer) (T : Nat) (pkts : List Bytes) : Prop extends Geometry rb where
  tail_eq : rb.tail = UInt64.ofNat T
  head_eq : rb.head = UInt64.ofNat (T + span pkts)
  aligned : 4 ∣ T
  span_le : span pkts ≤ rb.size.toNat
  stored : Stored rb T pkts
  fits : ∀ p ∈ pkts, Fits rb p

section

variable {rb rb' : RingBuffer} {T H i n k : Nat} {p data : Bytes} {pkts qs : List Bytes}

theorem Geometry.size_pos (hg : Geometry rb) : 8 ≤ rb.size.toNat := by
  obtain ⟨k, hk, -, hsize⟩ := hg.size_eq
  rw [hsize]
  exact Nat.pow_le_pow_right (show 0 < 2 by decide) hk

theorem Geometry.size_le (hg : Geometry rb) : rb.size.toNat ≤ 2 ^ 62 := by
  obtain ⟨k, -, hk, hsize⟩ := hg.size_eq
  rw [hsize]
  exact Nat.pow_le_pow_right (by decide) hk

theorem Geometry.four_dvd (hg : Geometry rb) : 4 ∣ rb.size.toNat := by
  obtain ⟨k, hk, -, hsize⟩ := hg.size_eq
  rw [hsize]
  exact pow_dvd_pow 2 (show 2 ≤ k by omega)

/-- The offset of a position in the data area. -/
theorem Geometry.toNat_and_mask (hg : Geometry rb) (i : Nat) :
    (UInt64.ofNat i &&& rb.mask).toNat = i % rb.size.toNat := by
  obtain ⟨k, -, hk, hsize⟩ := hg.size_eq
  have hpos := hg.size_pos
  have hmask : rb.mask.toNat = 2 ^ k - 1 := by
    have hone : (1 : UInt64).toNat = 1 := rfl
    rw [hg.mask_eq, UInt64.toNat_sub_of_le, hsize, hone]
    rw [UInt64.le_iff_toNat_le, hone]
    omega
  rw [UInt64.toNat_and, hmask, Nat.and_two_pow_sub_one_eq_mod, UInt64.toNat_ofNat', hsize]
  exact Nat.mod_mod_of_dvd _ (pow_dvd_pow 2 (by omega))

/-- A record's length does not wrap around. -/
theorem Geometry.aligned_mod (hg : Geometry rb) (hi : 4 ∣ i) (hk : k < 4) :
    (i + k) % rb.size.toNat = i % rb.size.toNat + k ∧
      i % rb.size.toNat + 4 ≤ rb.size.toNat := by
  have hpos := hg.size_pos
  have hdvd : 4 ∣ i % rb.size.toNat := (Nat.dvd_mod_iff hg.four_dvd).mpr hi
  have hlt := Nat.mod_lt i (show 0 < rb.size.toNat by omega)
  have hroom : i % rb.size.toNat + 4 ≤ rb.size.toNat := by
    have hsize := hg.four_dvd
    omega
  refine ⟨?_, hroom⟩
  rw [Nat.add_mod, Nat.mod_eq_of_lt (show k < rb.size.toNat by omega), Nat.mod_eq_of_lt (by omega)]

/-- The payload follows the length, around the end of the data area. -/
theorem Geometry.dataOffset_eq (hg : Geometry rb) (hn : n ≤ maxPacketSize)
    (hhalf : n ≤ rb.size.toNat / 2) (hk : k < n) :
    rb.dataOffset (UInt64.ofNat i) (UInt32.ofNat n) k = (i + 4 + k) % rb.size.toNat := by
  have hpos := hg.size_pos
  have hle := hg.size_le
  have hmod : (UInt64.ofNat i &&& rb.mask) + recordHeaderSize =
      UInt64.ofNat (i % rb.size.toNat + 4) := by
    rw [← UInt64.toNat_inj, UInt64.toNat_add, hg.toNat_and_mask, UInt64.toNat_ofNat']
    rfl
  have hdataPos : ((UInt64.ofNat i &&& rb.mask) + recordHeaderSize &&& rb.mask).toNat =
      (i + 4) % rb.size.toNat := by
    rw [hmod, hg.toNat_and_mask, Nat.mod_add_mod]
  have hlt := Nat.mod_lt (i + 4) (show 0 < rb.size.toNat by omega)
  unfold RingBuffer.dataOffset
  dsimp only
  generalize (UInt64.ofNat i &&& rb.mask) + recordHeaderSize &&& rb.mask = dataPos at *
  have hspace : (rb.size - dataPos).toNat = rb.size.toNat - dataPos.toNat := by
    apply UInt64.toNat_sub_of_le
    rw [UInt64.le_iff_toNat_le]
    omega
  have hstep : ∀ x, x = (i + 4) % rb.size.toNat → x + k < rb.size.toNat →
      x + k = (i + 4 + k) % rb.size.toNat := by
    rintro x rfl hx
    rw [← Nat.mod_add_mod (i + 4), Nat.mod_eq_of_lt hx]
  have hone : rb.size - dataPos ≥ (UInt32.ofNat n).toUInt64 ↔
      n ≤ rb.size.toNat - dataPos.toNat := by
    rw [ge_iff_le, UInt64.le_iff_toNat_le, UInt32.toNat_toUInt64, toNat_len hn, hspace]
  rw [hspace]
  split
  · rename_i hfits
    rw [hone] at hfits
    exact hstep _ hdataPos (by omega)
  rename_i hfits
  rw [hone] at hfits
  split
  · exact hstep _ hdataPos (by omega)
  · rw [← Nat.mod_add_mod (i + 4), ← hdataPos, Nat.mod_eq_sub_mod (by omega),
      Nat.mod_eq_of_lt (by omega)]
    omega

theorem Geometry.loadLen_eq (hg : Geometry rb) (hi : 4 ∣ i) (hn : n ≤ maxPacketSize)
    (hholds : Holds rb.buffer rb.size.toNat i (leBytes 4 n ++ data)) :
    rb.loadLen (i % rb.size.toNat) = some (UInt32.ofNat n) := by
  have hlen := (holds_append.mp hholds).1
  have hround := ofLe_leBytes 4 n
  obtain ⟨b₀, b₁, b₂, b₃, hbytes⟩ : ∃ b₀ b₁ b₂ b₃, leBytes 4 n = [b₀, b₁, b₂, b₃] :=
    ⟨_, _, _, _, rfl⟩
  rw [hbytes] at hlen hround
  have h₀ := hlen 0 b₀ rfl
  have h₁ := hlen 1 b₁ rfl
  have h₂ := hlen 2 b₂ rfl
  have h₃ := hlen 3 b₃ rfl
  rw [(hg.aligned_mod hi (by decide)).1] at h₀ h₁ h₂ h₃
  rw [Nat.add_zero] at h₀
  unfold maxPacketSize at hn
  rw [Nat.mod_eq_of_lt (by omega)] at hround
  simp [RingBuffer.loadLen, h₀, h₁, h₂, h₃, hround]

theorem Stored.append : Stored rb i (pkts ++ qs) ↔
    Stored rb i pkts ∧ Stored rb (i + span pkts) qs := by
  induction pkts generalizing i with
  | nil => simp [Stored]
  | cons p pkts ih => simp [Stored, ih, and_assoc, Nat.add_assoc]

/-- Writes behind the records keep them. -/
theorem Stored.frame {j l : Nat} (hs : Stored rb i pkts) (hsize : rb'.size = rb.size)
    (hw : WritesIn rb.buffer rb'.buffer rb.size.toNat j l) (hj : i + span pkts ≤ j)
    (hl : j + l ≤ i + rb.size.toNat) : Stored rb' i pkts := by
  induction pkts generalizing i with
  | nil => trivial
  | cons p pkts ih =>
    have hbytes := recordBytes_bounds p.length
    rw [span_cons] at hj
    refine ⟨?_, ih hs.2 (by omega) (by omega)⟩
    rw [hsize]
    refine hs.1.frame hw ?_ hl
    rw [List.length_append, length_leBytes]
    omega

theorem Fits.congr (hf : Fits rb p) (hsize : rb'.size = rb.size) : Fits rb' p :=
  ⟨hf.pos, hf.le_max, hsize ▸ hf.le_half⟩

/-- The record of a packet fits into an empty ring. -/
theorem Fits.recordBytes_le (hf : Fits rb p) (hg : Geometry rb) :
    recordBytes p.length ≤ rb.size.toNat := by
  have hhalf := hf.le_half
  have hpos := hg.size_pos
  have hdvd := hg.four_dvd
  unfold recordBytes
  omega

end

end Halo
