import Halo.Base.Bytes

/-!
# IPv4 and MAC addresses (`protocol/utils.go`)

`Ipv4Addr` and `MacAddr` are byte arrays in network order. `ipAddrToU` and `uToIpAddr` convert
an IPv4 address to and from the number the tables of the engine use as a key; they are inverse
to each other (`ipAddrToU_uToIpAddr`, `ipAddrToU_inj`). `addrBit_toNat` relates the bit that the
route trie reads from the bytes to the bit of that number.
-/

namespace Halo

/-- `protocol.Ipv4Addr`: four bytes in network order. -/
abbrev Ipv4Addr := Vector UInt8 4

/-- `protocol.MacAddr`: six bytes in network order. -/
abbrev MacAddr := Vector UInt8 6

/-- `protocol.BROADCAST_IPV4_ADDR`. -/
def broadcastIpv4Addr : Ipv4Addr := #v[255, 255, 255, 255]

/-- `protocol.BROADCAST_MAC_ADDR`. -/
def broadcastMacAddr : MacAddr := #v[0xff, 0xff, 0xff, 0xff, 0xff, 0xff]

/-- The zero address. -/
def zeroIpv4Addr : Ipv4Addr := #v[0, 0, 0, 0]

/-- The zero address. -/
def zeroMacAddr : MacAddr := #v[0, 0, 0, 0, 0, 0]

/-- `IpAddrToU`. -/
def ipAddrToU (ipAddr : Ipv4Addr) : UInt32 :=
  (ipAddr[0].toUInt32 <<< 24) ||| (ipAddr[1].toUInt32 <<< 16) ||| (ipAddr[2].toUInt32 <<< 8) |||
    (ipAddr[3].toUInt32 <<< 0)

/-- `UToIpAddr`. -/
def uToIpAddr (ipAddrU : UInt32) : Ipv4Addr :=
  #v[(ipAddrU >>> 24).toUInt8, (ipAddrU >>> 16).toUInt8, (ipAddrU >>> 8).toUInt8,
    (ipAddrU >>> 0).toUInt8]

/-- A write of an address. -/
def setAddr (pkt : Bytes) (i : Nat) (ipAddr : Ipv4Addr) : Bytes :=
  (((pkt.set i ipAddr[0]).set (i + 1) ipAddr[1]).set (i + 2) ipAddr[2]).set (i + 3) ipAddr[3]

/-- Bit `i` of an address, counted from the most significant one: the expression
`(ip[i/8] >> (7 - i%8)) & 1` of the route table. -/
def addrBit (ip : Ipv4Addr) (i : Nat) : UInt8 :=
  (ip[i / 8]?.getD 0 >>> (7 - i % 8).toUInt8) &&& 1

/-- The shift `x << n` of Go on `uint32`: a shift by the width or more gives `0`. -/
def shl32 (x : UInt32) (n : Nat) : UInt32 :=
  if n < 32 then x <<< n.toUInt32 else 0

/-- The bytes of an address. -/
theorem Ipv4Addr.exists_bytes (a : Ipv4Addr) : ∃ b₀ b₁ b₂ b₃, a = #v[b₀, b₁, b₂, b₃] := by
  refine ⟨a[0], a[1], a[2], a[3], Vector.ext fun i hi => ?_⟩
  interval_cases i <;> rfl

theorem MacAddr.exists_bytes (a : MacAddr) :
    ∃ b₀ b₁ b₂ b₃ b₄ b₅, a = #v[b₀, b₁, b₂, b₃, b₄, b₅] := by
  refine ⟨a[0], a[1], a[2], a[3], a[4], a[5], Vector.ext fun i hi => ?_⟩
  interval_cases i <;> rfl

theorem ipAddrToU_toNat (a : Ipv4Addr) :
    (ipAddrToU a).toNat =
      a[0].toNat * 2 ^ 24 + a[1].toNat * 2 ^ 16 + a[2].toNat * 2 ^ 8 + a[3].toNat := by
  have hofBe : ipAddrToU a = ofBe32 a[0] a[1] a[2] a[3] := by
    simp [ipAddrToU, ofBe32]
  rw [hofBe, ofBe32_toNat]

/-- The bit the trie reads from the bytes is the bit of the number. -/
theorem addrBit_toNat (a : Ipv4Addr) {i : Nat} (hi : i < 32) :
    (addrBit a i).toNat = (ipAddrToU a).toNat / 2 ^ (31 - i) % 2 := by
  rw [ipAddrToU_toNat]
  simp only [addrBit, UInt8.toNat_and, UInt8.toNat_shiftRight, UInt8.reduceToNat,
    Nat.and_one_is_mod, Nat.shiftRight_eq_div_pow]
  have h0 := a[0].toNat_lt
  have h1 := a[1].toNat_lt
  have h2 := a[2].toNat_lt
  have h3 := a[3].toNat_lt
  interval_cases i <;> simp <;> omega

@[simp] theorem ipAddrToU_uToIpAddr (u : UInt32) : ipAddrToU (uToIpAddr u) = u := by
  apply UInt32.toNat_inj.mp
  rw [ipAddrToU_toNat]
  have := u.toNat_lt
  simp [uToIpAddr, UInt32.toNat_shiftRight, Nat.shiftRight_eq_div_pow]
  omega

theorem ipAddrToU_inj {a b : Ipv4Addr} (h : ipAddrToU a = ipAddrToU b) : a = b := by
  have hn := congrArg UInt32.toNat h
  rw [ipAddrToU_toNat, ipAddrToU_toNat] at hn
  apply Vector.ext
  intro i hi
  apply UInt8.toNat_inj.mp
  have := a[0].toNat_lt; have := a[1].toNat_lt; have := a[2].toNat_lt; have := a[3].toNat_lt
  have := b[0].toNat_lt; have := b[1].toNat_lt; have := b[2].toNat_lt; have := b[3].toNat_lt
  interval_cases i <;> omega

@[simp] theorem uToIpAddr_ipAddrToU (a : Ipv4Addr) : uToIpAddr (ipAddrToU a) = a :=
  ipAddrToU_inj (by simp)

end Halo
