import Halo.Base.Bytes

/-!
# Fixed-size strings (`mem/static_allocator.go`)

`StaticString64` keeps a string of at most 63 bytes in place, with its length in the last byte;
`StaticString1K` and `StaticString1M` have two and four bytes for the length. Each of them takes the
length of a string in the width of these bytes before it bounds it, so a long string can lose more
than what does not fit.

* `StaticString64.get_set`, `StaticString1K.get_set`, `StaticString1M.get_set`: what `Get` returns
  after `Set`.
* `static_strings_iff`: this is the longest part of the string that fits just for the strings of
  `Kept`.
-/

namespace Halo

/-- `MemCpy` of the first `n` bytes of `v` to the start of `s`. -/
def copyFront {size : Nat} (s : Vector UInt8 size) (v : Bytes) (n : Nat) : Vector UInt8 size :=
  .ofFn fun i => if i.val < n then byteAt v i else s[i]

theorem getElem_copyFront {size : Nat} (s : Vector UInt8 size) (v : Bytes) {n i : Nat}
    (hi : i < size) (hn : n ≤ i) : (copyFront s v n)[i] = s[i] := by
  rw [copyFront, Vector.getElem_ofFn, if_neg (Nat.not_lt.mpr hn)]
  rfl

theorem take_copyFront {size : Nat} (s : Vector UInt8 size) {v : Bytes} {n : Nat}
    (hv : n ≤ v.length) (hn : n ≤ size) : (copyFront s v n).toList.take n = v.take n := by
  apply List.ext_getElem
  · simp only [List.length_take, Vector.length_toList]
    omega
  · intro i h₁ h₂
    simp only [List.length_take, lt_inf_iff] at h₁ h₂
    simp only [List.getElem_take, Vector.getElem_toList, copyFront, Vector.getElem_ofFn]
    rw [if_pos h₁.1]
    simp [byteAt, h₂.2]

/-- A copy of as many bytes as `Set` stores. -/
theorem take_copyFront_min {size m cap n : Nat} (s : Vector UInt8 size) (v : Bytes)
    (hn : n = min (v.length % m) cap) (hcap : cap ≤ size) :
    (copyFront s v n).toList.take n = v.take (min (v.length % m) cap) := by
  have hmod := Nat.mod_le v.length m
  rw [take_copyFront s (by omega) (by omega), hn]

/-- `StaticString64`. -/
abbrev StaticString64 := Vector UInt8 64

namespace StaticString64

/-- `StaticString64.Get`. -/
def get (s : StaticString64) : Bytes := s.toList.take s[63].toNat

/-- `StaticString64.Set`. The length is taken as a `uint8` before the bound, and the address of
the first byte of an empty string faults. -/
def set (s : StaticString64) (v : Bytes) : Except Fault StaticString64 :=
  let l := UInt8.ofNat v.length
  let l := if l > 63 then 63 else l
  let s := Vector.set s 63 l
  if v.length = 0 then .error .indexOutOfRange else .ok (copyFront s v l.toNat)

/-- What `Get` returns after `Set v`: the length byte counts modulo 256, then at most 63 bytes are
kept. -/
def stored (v : Bytes) : Bytes := v.take (min (v.length % 256) 63)

theorem toNat_storedLen (v : Bytes) :
    (if UInt8.ofNat v.length > 63 then 63 else UInt8.ofNat v.length).toNat =
      min (v.length % 256) 63 := by
  have hbound : (63 : UInt8).toNat = 63 := rfl
  simp only [apply_ite UInt8.toNat, gt_iff_lt, UInt8.lt_iff_toNat_lt, UInt8.toNat_ofNat', hbound]
  split <;> omega

theorem set_nil (s : StaticString64) : s.set [] = .error .indexOutOfRange := rfl

/-- `Set` of a nonempty string succeeds, and `Get` then returns the stored part of it. -/
theorem get_set (s : StaticString64) {v : Bytes} (hv : v ≠ []) :
    ∃ s', s.set v = .ok s' ∧ s'.get = stored v := by
  have hlen : v.length ≠ 0 := fun h => hv (List.eq_nil_of_length_eq_zero h)
  refine ⟨_, by rw [StaticString64.set]; exact if_neg hlen, ?_⟩
  have hl := toNat_storedLen v
  generalize (if UInt8.ofNat v.length > 63 then 63 else UInt8.ofNat v.length) = l at hl ⊢
  have hbound : l.toNat ≤ 63 := by omega
  have hlast : (copyFront (Vector.set s 63 l) v l.toNat)[63] = l := by
    rw [getElem_copyFront _ _ (by decide) hbound]
    simp
  rw [get, hlast, take_copyFront_min _ v hl (by decide), stored]

end StaticString64

/-- `StaticString1K`. -/
abbrev StaticString1K := Vector UInt8 1024

namespace StaticString1K

/-- `StaticString1K.Get`. -/
def get (s : StaticString1K) : Bytes := s.toList.take (ofBe16 s[1023] s[1022]).toNat

/-- `StaticString1K.Set`. -/
def set (s : StaticString1K) (v : Bytes) : Except Fault StaticString1K :=
  let l := UInt16.ofNat v.length
  let l := if l > 1022 then 1022 else l
  let s := Vector.set s 1023 (l >>> 8).toUInt8
  let s := Vector.set s 1022 l.toUInt8
  if v.length = 0 then .error .indexOutOfRange else .ok (copyFront s v l.toNat)

/-- What `Get` returns after `Set v`. -/
def stored (v : Bytes) : Bytes := v.take (min (v.length % 65536) 1022)

theorem toNat_storedLen (v : Bytes) :
    (if UInt16.ofNat v.length > 1022 then 1022 else UInt16.ofNat v.length).toNat =
      min (v.length % 65536) 1022 := by
  have hbound : (1022 : UInt16).toNat = 1022 := rfl
  simp only [apply_ite UInt16.toNat, gt_iff_lt, UInt16.lt_iff_toNat_lt, UInt16.toNat_ofNat', hbound]
  split <;> omega

/-- `Set` of a nonempty string succeeds, and `Get` then returns the stored part of it. -/
theorem get_set (s : StaticString1K) {v : Bytes} (hv : v ≠ []) :
    ∃ s', s.set v = .ok s' ∧ s'.get = stored v := by
  have hlen : v.length ≠ 0 := fun h => hv (List.eq_nil_of_length_eq_zero h)
  refine ⟨_, by rw [StaticString1K.set]; exact if_neg hlen, ?_⟩
  have hl := toNat_storedLen v
  generalize (if UInt16.ofNat v.length > 1022 then 1022 else UInt16.ofNat v.length) = l at hl ⊢
  have hbound : l.toNat ≤ 1022 := by omega
  generalize hwords : Vector.set (Vector.set s 1023 (l >>> 8).toUInt8) 1022 l.toUInt8 = t
  have hword : ofBe16 t[1023] t[1022] = l := by
    rw [← hwords]
    simp
  have hlast {i : Nat} (hi : i < 1024) (hle : 1022 ≤ i) : (copyFront t v l.toNat)[i] = t[i] :=
    getElem_copyFront t v hi (by omega)
  rw [get, hlast (by decide) (by decide), hlast (by decide) (by decide), hword,
    take_copyFront_min _ v hl (by decide), stored]

end StaticString1K

/-- `StaticString1M`. -/
abbrev StaticString1M := Vector UInt8 1048576

namespace StaticString1M

/-- `StaticString1M.Get`. -/
def get (s : StaticString1M) : Bytes :=
  s.toList.take (ofBe32 s[1048575] s[1048574] s[1048573] s[1048572]).toNat

/-- `StaticString1M.Set`. -/
def set (s : StaticString1M) (v : Bytes) : Except Fault StaticString1M :=
  let l := UInt32.ofNat v.length
  let l := if l > 1048572 then 1048572 else l
  let s := Vector.set s 1048575 (l >>> 24).toUInt8
  let s := Vector.set s 1048574 (l >>> 16).toUInt8
  let s := Vector.set s 1048573 (l >>> 8).toUInt8
  let s := Vector.set s 1048572 l.toUInt8
  if v.length = 0 then .error .indexOutOfRange else .ok (copyFront s v l.toNat)

/-- What `Get` returns after `Set v`. -/
def stored (v : Bytes) : Bytes := v.take (min (v.length % 4294967296) 1048572)

theorem toNat_storedLen (v : Bytes) :
    (if UInt32.ofNat v.length > 1048572 then 1048572 else UInt32.ofNat v.length).toNat =
      min (v.length % 4294967296) 1048572 := by
  have hbound : (1048572 : UInt32).toNat = 1048572 := rfl
  simp only [apply_ite UInt32.toNat, gt_iff_lt, UInt32.lt_iff_toNat_lt, UInt32.toNat_ofNat', hbound]
  split <;> omega

/-- `Set` of a nonempty string succeeds, and `Get` then returns the stored part of it. -/
theorem get_set (s : StaticString1M) {v : Bytes} (hv : v ≠ []) :
    ∃ s', s.set v = .ok s' ∧ s'.get = stored v := by
  have hlen : v.length ≠ 0 := fun h => hv (List.eq_nil_of_length_eq_zero h)
  refine ⟨_, by rw [StaticString1M.set]; exact if_neg hlen, ?_⟩
  have hl := toNat_storedLen v
  generalize (if UInt32.ofNat v.length > 1048572 then 1048572 else UInt32.ofNat v.length) =
    l at hl ⊢
  have hbound : l.toNat ≤ 1048572 := by omega
  generalize hwords :
    Vector.set (Vector.set (Vector.set (Vector.set s 1048575 (l >>> 24).toUInt8) 1048574
    (l >>> 16).toUInt8) 1048573 (l >>> 8).toUInt8) 1048572 l.toUInt8 = t
  have hword : ofBe32 t[1048575] t[1048574] t[1048573] t[1048572] = l := by
    rw [← hwords]
    simp
  have hlast {i : Nat} (hi : i < 1048576) (hle : 1048572 ≤ i) :
      (copyFront t v l.toNat)[i] = t[i] :=
    getElem_copyFront t v hi (by omega)
  rw [get, hlast (by decide) (by decide), hlast (by decide) (by decide),
    hlast (by decide) (by decide), hlast (by decide) (by decide), hword,
    take_copyFront_min _ v hl (by decide), stored]

end StaticString1M

/-! ## What is kept of a string -/

/-- A nonempty string that is short enough for `m` lengths, or of which enough is left of its length
modulo `m` to fill the `cap` bytes. -/
def Kept (m cap : Nat) (v : Bytes) : Prop := v ≠ [] ∧ (v.length < m ∨ cap ≤ v.length % m)

/-- The longest part of a string that fits is kept just if the bounded length has lost nothing. -/
theorem take_mod_eq_iff {m cap : Nat} (hcap : cap < m) (v : Bytes) :
    v.take (min (v.length % m) cap) = v.take (min v.length cap) ↔
      v.length < m ∨ cap ≤ v.length % m := by
  have hmod := Nat.mod_le v.length m
  constructor
  · intro heq
    have hlen := congrArg List.length heq
    simp only [List.length_take] at hlen
    by_cases hlt : v.length < m
    · exact .inl hlt
    · right
      omega
  · rintro (hlt | hle)
    · rw [Nat.mod_eq_of_lt hlt]
    · rw [Nat.min_eq_right hle, Nat.min_eq_right (by omega)]

/-- A setter that stores the bounded length modulo `m` keeps what fits just of the strings of
`Kept`. -/
theorem kept_iff {α : Type} {m cap : Nat} {set : Bytes → Except Fault α} {get : α → Bytes}
    (hcap : cap < m) (hnil : set [] = .error .indexOutOfRange)
    (hset : ∀ v, v ≠ [] → ∃ s, set v = .ok s ∧ get s = v.take (min (v.length % m) cap))
    (v : Bytes) : (∃ s, set v = .ok s ∧ get s = v.take (min v.length cap)) ↔ Kept m cap v := by
  constructor
  · rintro ⟨s, hok, hget⟩
    have hv : v ≠ [] := by
      rintro rfl
      rw [hnil] at hok
      cases hok
    obtain ⟨s', hok', hget'⟩ := hset v hv
    obtain rfl : s' = s := Except.ok.inj (hok'.symm.trans hok)
    exact ⟨hv, (take_mod_eq_iff hcap v).mp (hget'.symm.trans hget)⟩
  · rintro ⟨hv, hlong⟩
    obtain ⟨s, hok, hget⟩ := hset v hv
    exact ⟨s, hok, hget.trans ((take_mod_eq_iff hcap v).mpr hlong)⟩

/-- `Set` does not fault and `Get` then returns the first 63, 1022 or 1048572 bytes of a string, or
all of it, just for the nonempty strings whose length is below the number of lengths, or is so
modulo that number that the bound is reached. The former contents do not matter. -/
theorem static_strings_iff (v : Bytes) :
    (∀ s : StaticString64, (∃ s', s.set v = .ok s' ∧ s'.get = v.take (min v.length 63)) ↔
      Kept 256 63 v) ∧
    (∀ s : StaticString1K, (∃ s', s.set v = .ok s' ∧ s'.get = v.take (min v.length 1022)) ↔
      Kept 65536 1022 v) ∧
    (∀ s : StaticString1M, (∃ s', s.set v = .ok s' ∧ s'.get = v.take (min v.length 1048572)) ↔
      Kept 4294967296 1048572 v) :=
  ⟨fun s => kept_iff (by decide) s.set_nil (fun _ => s.get_set) v,
    fun s => kept_iff (by decide) rfl (fun _ => s.get_set) v,
    fun s => kept_iff (by decide) rfl (fun _ => s.get_set) v⟩

/-- The empty string faults, and of strings of 256, 65536 and 4294967296 bytes nothing is left. -/
theorem string_lost :
    (∀ s : StaticString64, s.set [] = .error .indexOutOfRange) ∧
    (∀ s : StaticString64, ∃ s', s.set (.replicate 256 0x61) = .ok s' ∧ s'.get = []) ∧
    (∀ s : StaticString1K, ∃ s', s.set (.replicate 65536 0x61) = .ok s' ∧ s'.get = []) ∧
    (∀ s : StaticString1M, ∃ s', s.set (.replicate 4294967296 0x61) = .ok s' ∧ s'.get = []) := by
  have hne : ∀ n, n ≠ 0 → List.replicate n (0x61 : UInt8) ≠ [] := by
    intro n hn h
    exact hn (by simpa using congrArg List.length h)
  have hnone : ∀ n cap, (List.replicate n (0x61 : UInt8)).take
      (min ((List.replicate n (0x61 : UInt8)).length % n) cap) = [] := by
    intro n cap
    rw [List.length_replicate, Nat.mod_self, Nat.zero_min, List.take_zero]
  refine ⟨fun _ => rfl, fun s => ?_, fun s => ?_, fun s => ?_⟩
  · obtain ⟨s', hok, hget⟩ := s.get_set (hne 256 (by decide))
    exact ⟨s', hok, hget.trans (hnone 256 63)⟩
  · obtain ⟨s', hok, hget⟩ := s.get_set (hne 65536 (by decide))
    exact ⟨s', hok, hget.trans (hnone 65536 1022)⟩
  · obtain ⟨s', hok, hget⟩ := s.get_set (hne 4294967296 (by decide))
    exact ⟨s', hok, hget.trans (hnone 4294967296 1048572)⟩

end Halo
