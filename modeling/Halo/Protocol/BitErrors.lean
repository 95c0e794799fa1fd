import Halo.Protocol.NatRewrite

/-!
# Single-bit errors (`protocol/utils.go`, `ipv4.go`, `icmp.go`, `tcp.go`)

A packet that a parser accepts has a checksum of zero: the sum of its words is a positive multiple
of `65535`. A flipped bit changes the sum by a power of two that is smaller than `65535`, at an even
and at an odd index, so the sum is not such a multiple any more.

* `wordSum_set`: a byte counts once or 256 times in the sum, by the parity of its index.
* `getCheckSum_flipBit`: data with the checksum zero has another checksum after a flip.
* `single_bit_errors_caught`: the parsers of IPv4, ICMP and TCP refuse the flipped packets.
-/

namespace Halo

/-- The bytes with the bit `b` of the byte `i` flipped. -/
def flipBit (p : Bytes) (i b : Nat) : Bytes := p.set i (byteAt p i ^^^ UInt8.ofNat (2 ^ b))

/-- An address with the bit `b` of the byte `i` flipped. -/
def flipAddrBit (a : Ipv4Addr) (i : Fin 4) (b : Nat) : Ipv4Addr :=
  a.set i (a[i] ^^^ UInt8.ofNat (2 ^ b))

/-! ## The sum after a flip -/

/-- How often a byte counts in the sum of the words. -/
def byteWeight (i : Nat) : Nat := if i % 2 = 0 then 256 else 1

theorem wordSum_set (p : Bytes) (i : Nat) (v : UInt8) (hi : i < p.length) :
    wordSum (p.set i v) + byteWeight i * (byteAt p i).toNat =
      wordSum p + byteWeight i * v.toNat := by
  have hzero : byteWeight 0 = 256 := rfl
  have hone : byteWeight 1 = 1 := rfl
  induction p using wordSum.induct generalizing i with
  | case1 a b rest ih =>
    rcases i with _ | _ | i
    · rw [hzero]
      simp only [List.set_cons_zero, wordSum, byteAt, List.getD_cons_zero]
      omega
    · rw [hone]
      simp only [List.set_cons_succ, List.set_cons_zero, wordSum, byteAt, List.getD_cons_succ,
        List.getD_cons_zero]
      omega
    · have hrest := ih i (by simpa using hi)
      have hweight : byteWeight (i + 2) = byteWeight i := by simp [byteWeight]
      simp only [List.set_cons_succ, wordSum, byteAt, List.getD_cons_succ, hweight] at hrest ⊢
      omega
  | case2 a =>
    obtain rfl : i = 0 := by simpa using hi
    rw [hzero]
    simp only [List.set_cons_zero, wordSum, byteAt, List.getD_cons_zero]
    omega
  | case3 => simp at hi

variable {b i : Nat} {pkt : Bytes}

/-- A flip adds or subtracts the value of the bit. -/
theorem toNat_xor_bit (x : UInt8) (hb : b < 8) :
    (x ^^^ UInt8.ofNat (2 ^ b)).toNat = x.toNat + 2 ^ b ∨
      (x ^^^ UInt8.ofNat (2 ^ b)).toNat + 2 ^ b = x.toNat := by
  have hall : ∀ n < 256, ∀ b < 8,
      n ^^^ (2 ^ b % 256) = n + 2 ^ b ∨ (n ^^^ (2 ^ b % 256)) + 2 ^ b = n := by
    decide +kernel
  rw [UInt8.toNat_xor, UInt8.toNat_ofNat']
  exact hall x.toNat x.toNat_lt b hb

/-- A flip changes the sum by less than `65535`, and by something. -/
theorem wordSum_flipBit (p : Bytes) (hi : i < p.length) (hb : b < 8) :
    ∃ d, 0 < d ∧ d < 65535 ∧
      (wordSum (flipBit p i b) = wordSum p + d ∨ wordSum (flipBit p i b) + d = wordSum p) := by
  have hset := wordSum_set p i (byteAt p i ^^^ UInt8.ofNat (2 ^ b)) hi
  have hpos : 0 < 2 ^ b := Nat.two_pow_pos b
  have hle : 2 ^ b ≤ 2 ^ 7 := Nat.pow_le_pow_right (by decide) (by omega)
  have hweight : byteWeight i = 256 ∨ byteWeight i = 1 := by
    unfold byteWeight
    split <;> simp
  have hd : 0 < byteWeight i * 2 ^ b ∧ byteWeight i * 2 ^ b < 65535 := by
    rcases hweight with h | h <;> rw [h] <;> omega
  refine ⟨byteWeight i * 2 ^ b, hd.1, hd.2, ?_⟩
  rw [flipBit]
  rcases toNat_xor_bit (byteAt p i) hb with h | h
  · rw [h, Nat.mul_add] at hset
    omega
  · rw [← h, Nat.mul_add] at hset
    omega

@[simp] theorem length_flipBit (p : Bytes) (i b : Nat) : (flipBit p i b).length = p.length := by
  simp [flipBit]

/-- One flipped bit is seen in the checksum. -/
theorem getCheckSum_flipBit {data : Bytes} (hlen : data.length ≤ 131072) (h : getCheckSum data = 0)
    (hi : i < data.length) (hb : b < 8) : getCheckSum (flipBit data i b) ≠ 0 := by
  rw [getCheckSum_eq_zero_iff hlen, onesNorm_eq_max_iff] at h
  rw [ne_eq, getCheckSum_eq_zero_iff (by simpa using hlen), onesNorm_eq_max_iff]
  obtain ⟨d, hpos, hlt, hsum⟩ := wordSum_flipBit data hi hb
  omega

/-! ## Flips in parts of the data -/

theorem take_flipBit (p : Bytes) {n : Nat} (h : i < n) (b : Nat) :
    (flipBit p i b).take n = flipBit (p.take n) i b := by
  rw [flipBit, flipBit, List.take_set, byteAt_take h]

theorem append_flipBit (p q : Bytes) (i b : Nat) :
    p ++ flipBit q i b = flipBit (p ++ q) (p.length + i) b := by
  rw [flipBit, flipBit, byteAt_append_right, List.set_append_right _ _ (Nat.le_add_right _ _),
    Nat.add_sub_cancel_left]

theorem flipBit_append (p q : Bytes) (h : i < p.length) (b : Nat) :
    flipBit p i b ++ q = flipBit (p ++ q) i b := by
  rw [flipBit, flipBit, byteAt_append_left h, List.set_append_left _ _ h]

theorem toList_flipAddrBit (a : Ipv4Addr) (i : Fin 4) (b : Nat) :
    (flipAddrBit a i b).toList = flipBit a.toList i b := by
  rw [flipAddrBit, flipBit, Vector.toList_set, byteAt_eq_getElem (by simp), Vector.getElem_toList]
  rfl

/-! ## The parsers -/

theorem parseIpv4Pkt_flipBit {ipv4 : Ipv4Pkt} (h : parseIpv4Pkt true pkt = .ok ipv4) (hi : i < 20)
    (hb : b < 8) : (parseIpv4Pkt true (flipBit pkt i b)).isOk = false := by
  obtain ⟨hheader, hsum, -⟩ := parseIpv4Pkt_ok_iff.mp h
  have hlen : (pkt.take 20).length = 20 := by
    rw [List.length_take]
    exact Nat.min_eq_left hheader.length_ge
  have hflip := getCheckSum_flipBit (i := i) (b := b) (by omega) (hsum rfl) (by omega) hb
  cases hparse : parseIpv4Pkt true (flipBit pkt i b) with
  | error e => rfl
  | ok ipv4' =>
    have hsum' := (parseIpv4Pkt_ok_iff.mp hparse).2.1 rfl
    rw [take_flipBit pkt hi] at hsum'
    exact absurd hsum' hflip

theorem parseIcmpPkt_flipBit (h : (parseIcmpPkt pkt).isOk = true)
    (hi : i < pkt.length) (hb : b < 8) : (parseIcmpPkt (flipBit pkt i b)).isOk = false := by
  obtain ⟨-, hlen, -, -, hsum⟩ := parseIcmpPkt_isOk_iff.mp h
  have hflip := getCheckSum_flipBit (by omega) hsum hi hb
  rw [Bool.eq_false_iff, ne_eq, parseIcmpPkt_isOk_iff]
  exact fun h => hflip h.2.2.2.2

/-- A segment is refused if the data that its checksum covers are those of an accepted one after a
flip. -/
theorem parseTcpPkt_flipped {pkt' : Bytes} {addr addr' : Ipv4AddrPair}
    (h : (parseTcpPkt true pkt addr).isOk = true) (hi : i < 12 + pkt.length) (hb : b < 8)
    (hdata : pseudoHeader addr' 0x06 (UInt16.ofNat pkt'.length) ++ pkt' =
      flipBit (pseudoHeader addr 0x06 (UInt16.ofNat pkt.length) ++ pkt) i b) :
    (parseTcpPkt true pkt' addr').isOk = false := by
  obtain ⟨-, hlen, -, -, -, hsum⟩ := parseTcpPkt_isOk_iff.mp h
  have hflip :=
    getCheckSum_flipBit (i := i) (b := b) (by simp; omega) (hsum rfl) (by simpa using hi) hb
  rw [Bool.eq_false_iff, ne_eq, parseTcpPkt_isOk_iff]
  intro h'
  have hsum' := h'.2.2.2.2.2 rfl
  rw [hdata] at hsum'
  exact hflip hsum'

theorem pseudoHeader_flip_src (addr : Ipv4AddrPair) (i : Fin 4) (b : Nat) (proto : UInt8)
    (totalLen : UInt16) (pkt : Bytes) :
    pseudoHeader { addr with srcAddr := flipAddrBit addr.srcAddr i b } proto totalLen ++ pkt =
      flipBit (pseudoHeader addr proto totalLen ++ pkt) i b := by
  simp only [pseudoHeader, toList_flipAddrBit, List.append_assoc]
  exact flipBit_append _ _ (by simp) b

theorem pseudoHeader_flip_dst (addr : Ipv4AddrPair) (i : Fin 4) (b : Nat) (proto : UInt8)
    (totalLen : UInt16) (pkt : Bytes) :
    pseudoHeader { addr with dstAddr := flipAddrBit addr.dstAddr i b } proto totalLen ++ pkt =
      flipBit (pseudoHeader addr proto totalLen ++ pkt) (4 + i) b := by
  simp only [pseudoHeader, toList_flipAddrBit, List.append_assoc]
  rw [flipBit_append _ _ (by simp), append_flipBit, Vector.length_toList]

/-- With checksums, a packet that differs from an accepted one in one bit is refused. -/
theorem single_bit_errors_caught :
    (∀ pkt, (parseIpv4Pkt true pkt).isOk = true → ∀ i < 20, ∀ b < 8,
      (parseIpv4Pkt true (flipBit pkt i b)).isOk = false) ∧
    (∀ pkt, (parseIcmpPkt pkt).isOk = true → ∀ i < pkt.length, ∀ b < 8,
      (parseIcmpPkt (flipBit pkt i b)).isOk = false) ∧
    (∀ pkt addr, (parseTcpPkt true pkt addr).isOk = true →
      (∀ i < pkt.length, ∀ b < 8, (parseTcpPkt true (flipBit pkt i b) addr).isOk = false) ∧
      (∀ i, ∀ b < 8,
        (parseTcpPkt true pkt { addr with srcAddr := flipAddrBit addr.srcAddr i b }).isOk = false) ∧
      (∀ i, ∀ b < 8,
        (parseTcpPkt true pkt { addr with dstAddr := flipAddrBit addr.dstAddr i b }).isOk =
          false)) := by
  refine ⟨?_, ?_, ?_⟩
  · intro pkt h i hi b hb
    cases hparse : parseIpv4Pkt true pkt with
    | error e => rw [hparse] at h; cases h
    | ok ipv4 => exact parseIpv4Pkt_flipBit hparse hi hb
  · intro pkt h i hi b hb
    exact parseIcmpPkt_flipBit h hi hb
  · intro pkt addr h
    refine ⟨fun i hi b hb => ?_, fun i b hb => ?_, fun i b hb => ?_⟩
    · refine parseTcpPkt_flipped h (i := 12 + i) (by omega) hb ?_
      rw [length_flipBit, append_flipBit, length_pseudoHeader]
    · exact parseTcpPkt_flipped h (i := i) (by omega) hb (pseudoHeader_flip_src addr i b _ _ pkt)
    · exact parseTcpPkt_flipped h (i := 4 + i) (by omega) hb
        (pseudoHeader_flip_dst addr i b _ _ pkt)

/-- An echo request of nine bytes, and the flip of its odd last byte's lowest bit. -/
theorem single_bit_errors_caught_echo :
    let echo : Bytes := [8, 0, 0xf6, 0xfd, 0, 1, 0, 1, 1]
    (parseIcmpPkt echo).isOk = true ∧ (parseIcmpPkt (flipBit echo 8 0)).isOk = false := by
  intro echo
  have hecho : (parseIcmpPkt echo).isOk = true := by decide +kernel
  exact ⟨hecho, single_bit_errors_caught.2.1 echo hecho 8 (by decide) 0 (by decide)⟩

end Halo
