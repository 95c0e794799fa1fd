import Halo.Mem.Pool

/-!
# What an allocation provides

A caller of `Malloc` asks for a number of bytes, a caller of `MallocType` for a number of elements.
Both are computed with in 64-bit words before the search: `MallocType` multiplies, `Malloc` rounds
up. The bytes that the caller means are the unbounded number.

* `Pool.Provides`: the bytes at a pointer are the caller's own.
* `Pool.Representable`: the request was not cut in the 64-bit arithmetic, or it gets no memory.
* `Pool.allocation_capacity_iff`: the pointers provide what was asked for just for these requests.
-/

namespace Halo

/-- The block `x` ends before the block `y` starts. -/
def Before (x y : PhysBlock) : Prop := x.1 + blockSize.toNat + x.2.1.toNat ≤ y.1

variable {a e : Nat} {ps : List PhysBlock}

theorem Tiles.pairwise_before (h : Tiles a ps e) : ps.Pairwise Before := by
  induction ps generalizing a with
  | nil => exact List.Pairwise.nil
  | cons x ps ih =>
    obtain ⟨p, s, f⟩ := x
    obtain ⟨rfl, htail⟩ := h
    refine List.pairwise_cons.mpr ⟨fun y hy => ?_, ih htail⟩
    exact htail.start_le (List.mem_map_of_mem hy)

/-- Two blocks of a tiling do not overlap. -/
theorem Tiles.apart {x y : PhysBlock} (h : Tiles a ps e)
    (hx : x ∈ ps) (hy : y ∈ ps) (hne : x ≠ y) : Before x y ∨ Before y x := by
  have hpair : ps.Pairwise fun x y => Before x y ∨ Before y x := h.pairwise_before.imp Or.inl
  have hsymm : Std.Symm fun x y : PhysBlock => Before x y ∨ Before y x := ⟨fun _ _ => Or.symm⟩
  exact hpair.forall hx hy hne

/-- No pointer is used twice. -/
theorem Tiles.nodup_dataPtr (h : Tiles a ps e) : ((usedBlocks ps).map dataPtr).Nodup := by
  have hptr : (usedBlocks ps).map dataPtr =
      ((usedBlocks ps).map Prod.fst).map (· + blockSize.toNat) := by
    rw [List.map_map]
    rfl
  rw [hptr]
  have hused : ((usedBlocks ps).map Prod.fst).Nodup := (List.filter_sublist.map _).nodup h.nodup
  exact hused.map (add_left_injective _)

/-- The `n` bytes from the address `p` on. -/
def bytesFrom (p n : Nat) : Set Nat := Set.Ico p (p + n)

theorem disjoint_bytesFrom {p q m n : Nat} (h : p + m ≤ q ∨ q + n ≤ p) :
    Disjoint (bytesFrom p m) (bytesFrom q n) := by
  refine Set.disjoint_left.mpr fun c hc hc' => ?_
  obtain ⟨hp, hpm⟩ := hc
  obtain ⟨hq, hqn⟩ := hc'
  omega

namespace Pool

open StaticAllocator

variable {s : Pool}

/-- `MallocType` for a type of `sizeOf` bytes. With `failPanic` (`MallocFreeFailPanic`) it panics
instead of returning `nil`. -/
def mallocType (failPanic : Bool) (s : Pool) (size sizeOf : UInt64) :
    Option (Pool × Except String (Option Nat)) := do
  let (s, p) ← s.malloc (size * sizeOf)
  if failPanic && p.isNone then return (s, .error "malloc fail")
  return (s, .ok p)

/-- The `n` bytes at `p` belong to the caller who got `p` when the pointers in `live` were live. -/
structure Provides (s : Pool) (live : List Nat) (p n : Nat) : Prop where
  /-- `p` is the pointer to an allocated block with room for them. -/
  room : ∃ x ∈ s.blocks, x.2.2 = false ∧ dataPtr x = p ∧ n ≤ x.2.1.toNat
  inside : bytesFrom p n ⊆ bytesFrom s.memory s.size.toNat
  aligned : s.firstBlock ≤ p ∧ (p - s.firstBlock) % 8 = 0
  headers : ∀ x ∈ s.blocks, Disjoint (bytesFrom p n) (bytesFrom x.1 blockSize.toNat)
  others : ∀ q ∈ live, ∃ x ∈ s.blocks, x.2.2 = false ∧ dataPtr x = q ∧
    Disjoint (bytesFrom p n) (bytesFrom q x.2.1.toNat)

/-- A request for `n` bytes is not cut in the 64-bit arithmetic. A request that is cut is harmless
where nothing is left of it, or where no free block is large enough for what is left. -/
def Representable (s : Pool) (n : Nat) : Prop :=
  n + 8 ≤ 2 ^ 64 ∨ n % 2 ^ 64 = 0 ∨
    ∀ x ∈ s.blocks, x.2.2 = true → x.2.1.toNat < (n % 2 ^ 64 + 7) / 8 * 8 % 2 ^ 64

/-! ## Allocations -/

variable {n : Nat}

/-- An allocated block provides its data. -/
theorem InPlace.provides (hs : s.InPlace) {b : Nat} {t : UInt64} {live : List Nat}
    (hx : (b, t, false) ∈ s.blocks) (hn : n ≤ t.toNat)
    (hlive : s.live.Perm ((b + blockSize.toNat) :: live)) :
    s.Provides live (b + blockSize.toNat) n := by
  obtain ⟨fl, hl⟩ := hs.layout
  have htiles := hl.tiles
  have hplace : s.firstBlock ≤ b ∧ b + blockSize.toNat + t.toNat ≤ s.stop := by
    obtain ⟨pre, post, hsplit⟩ := List.append_of_mem hx
    rw [hsplit] at htiles
    exact htiles.block_le
  have hstop := stop_le hs.headers
  refine ⟨⟨_, hx, rfl, rfl, hn⟩, ?_, ?_, fun x hxmem => ?_, fun q hq => ?_⟩
  · rw [firstBlock] at hplace
    exact Set.Ico_subset_Ico (by omega) (by omega)
  · have hmod := hs.aligned b (List.mem_map_of_mem hx)
    rw [blockSize_toNat]
    omega
  · by_cases hsame : x = (b, t, false)
    · subst hsame
      exact disjoint_bytesFrom (Or.inr (Nat.le_refl _))
    · have hapart := htiles.apart hx hxmem (Ne.symm hsame)
      dsimp only [Before] at hapart
      exact disjoint_bytesFrom (by omega)
  · have hnodup : s.live.Nodup := hs.live.nodup_iff.mpr htiles.nodup_dataPtr
    have hne : q ≠ b + blockSize.toNat := by
      rintro rfl
      exact (List.nodup_cons.mp (hlive.nodup_iff.mp hnodup)).1 hq
    have hq' : q ∈ (usedBlocks s.blocks).map dataPtr :=
      hs.live.mem_iff.mp (hlive.mem_iff.mpr (List.mem_cons_of_mem _ hq))
    obtain ⟨x, hxused, rfl⟩ := List.mem_map.mp hq'
    obtain ⟨hxmem, hxfree⟩ := List.mem_filter.mp hxused
    refine ⟨x, hxmem, by simpa using hxfree, rfl, ?_⟩
    have hapart := htiles.apart hx hxmem (by rintro rfl; exact hne rfl)
    dsimp only [Before] at hapart
    rw [dataPtr]
    exact disjoint_bytesFrom (by omega)

/-- A request of `n` bytes that reaches `Malloc` as the word `size`. -/
theorem InPlace.capacity_iff (hs : s.InPlace) {size : UInt64} (hsize : size.toNat = n % 2 ^ 64) :
    ∃ s' r, s.malloc size = some (s', r) ∧
      ((∀ p, r = some p → s'.Provides s.live p n) ↔ s.Representable n) := by
  obtain ⟨s', r, hmalloc, hs', hsize', -, hlive, hroom, hnone⟩ := hs.malloc size
  have hround : (roundUp size).toNat = (n % 2 ^ 64 + 7) / 8 * 8 % 2 ^ 64 := by
    rw [toNat_roundUp, hsize]
    omega
  refine ⟨s', r, hmalloc, ?_, fun hrep p hp => ?_⟩
  · intro hall
    cases r with
    | none =>
      right
      rcases hnone.mp rfl with rfl | hsmall
      · exact Or.inl hsize.symm
      · refine Or.inr fun x hx hfree => ?_
        rw [← hround]
        exact UInt64.lt_iff_toNat_lt.mp (hsmall x hx hfree)
    | some p =>
      -- the pool has fewer than 2^64 bytes, of which the allocator's header is 24
      obtain ⟨⟨⟨b, t, f⟩, hx, -, -, hroom⟩, -⟩ := hall p rfl
      have hroom : n ≤ t.toNat := hroom
      left
      obtain ⟨fl, hl⟩ := hs'.layout
      obtain ⟨pre, post, hsplit⟩ := List.append_of_mem hx
      have htiles := hl.tiles
      rw [hsplit] at htiles
      have hplace := htiles.block_le
      have hstop := stop_le hs'.headers
      have hlt := s'.size.toNat_lt
      rw [firstBlock, blockSize_toNat] at hplace
      omega
  · have hne : r ≠ none := hp ▸ Option.some_ne_none p
    obtain ⟨b, t, hx, rfl, ht⟩ := hroom p hp
    refine hs'.provides hx ?_ (by rw [hlive, hp]; exact List.Perm.refl _)
    have ht : (roundUp size).toNat ≤ t.toNat := UInt64.le_iff_toNat_le.mp ht
    rcases hrep with hn | hzero | hsmall
    · rw [hround] at ht
      omega
    · refine absurd (hnone.mpr (Or.inl ?_)) hne
      rw [← UInt64.toNat_inj, hsize, hzero]
      rfl
    · refine absurd (hnone.mpr (Or.inr fun x hx hfree => ?_)) hne
      rw [UInt64.lt_iff_toNat_lt, hround]
      exact hsmall x hx hfree

/-- A pointer that `Malloc` or `MallocType` returns provides the bytes that were asked for, after
any calls on any pool, just where the request is representable. -/
theorem allocation_capacity_iff {memory : Nat} {poolSize : UInt64}
    (hnew : Pool.new memory poolSize = some s) (es : List PoolEvent) :
    ∃ s', s.run es = some s' ∧
      (∀ size : UInt64, ∃ s'' r, s'.malloc size = some (s'', r) ∧
        ((∀ p, r = some p → s''.Provides s'.live p size.toNat) ↔ s'.Representable size.toNat)) ∧
      ∀ (failPanic : Bool) (size sizeOf : UInt64),
        ∃ s'' r, s'.mallocType failPanic size sizeOf = some (s'', r) ∧
          ((∀ p, r = .ok (some p) → s''.Provides s'.live p (size.toNat * sizeOf.toNat)) ↔
            s'.Representable (size.toNat * sizeOf.toNat)) := by
  obtain ⟨s', hrun, hs', -, -⟩ := (inPlace_new hnew).run es
  refine ⟨s', hrun, fun size => ?_, fun failPanic size sizeOf => ?_⟩
  · exact hs'.capacity_iff (Nat.mod_eq_of_lt size.toNat_lt).symm
  · obtain ⟨s'', r, hmalloc, hiff⟩ := hs'.capacity_iff (UInt64.toNat_mul size sizeOf)
    simp only [mallocType, hmalloc, Option.bind_eq_bind, Option.bind_some]
    by_cases hfail : failPanic && r.isNone
    · -- the call panics in the place of a result `nil`
      obtain rfl : r = none := by simp_all
      refine ⟨s'', _, if_pos hfail, iff_of_true nofun (hiff.mp nofun)⟩
    · refine ⟨s'', .ok r, if_neg hfail, ?_⟩
      rw [← hiff]
      exact forall_congr' fun p => by rw [Except.ok.injEq]

/-- In a pool with two free blocks around a live one, an array of three elements of 24 bytes. -/
theorem allocation_capacity_iff_mergingCalls : ∃ s, Pool.new 4096 512 = some s ∧
    ∃ s', s.run mergingCalls = some s' ∧ s'.Representable (3 * 24) ∧
      (∀ size : UInt64, ∃ s'' r, s'.malloc size = some (s'', r) ∧
        ((∀ p, r = some p → s''.Provides s'.live p size.toNat) ↔ s'.Representable size.toNat)) ∧
      ∀ (failPanic : Bool) (size sizeOf : UInt64),
        ∃ s'' r, s'.mallocType failPanic size sizeOf = some (s'', r) ∧
          ((∀ p, r = .ok (some p) → s''.Provides s'.live p (size.toNat * sizeOf.toNat)) ↔
            s'.Representable (size.toNat * sizeOf.toNat)) := by
  obtain ⟨s', hrun, hmalloc, htype⟩ :=
    allocation_capacity_iff (show Pool.new 4096 512 = some _ from rfl) mergingCalls
  exact ⟨_, rfl, s', hrun, Or.inl (by decide), hmalloc, htype⟩

theorem Provides.room_le {live : List Nat} {p : Nat} {sizes : List UInt64}
    (h : s.Provides live p n) (hsizes : s.blocks.map (fun x => x.2.1) = sizes) :
    ∃ t ∈ sizes, n ≤ t.toNat := by
  obtain ⟨x, hx, -, -, hn⟩ := h.room
  exact ⟨x.2.1, hsizes ▸ List.mem_map_of_mem hx, hn⟩

/-- In a new pool of 512 bytes an array of 2^61 + 1 elements of eight bytes gets a block of eight
bytes, and a request for 2^64 - 1 bytes gets an empty block. -/
theorem overlarge_request_served : ∃ s s₁ s₂, Pool.new 4096 512 = some s ∧
    s.mallocType false 0x2000000000000001 8 = some (s₁, .ok (some 4160)) ∧
    s₁.blocks.map (fun x => x.2.1) = [8, 400] ∧
    ¬ s₁.Provides s.live 4160 (0x2000000000000001 * 8) ∧
    s.malloc 0xffffffffffffffff = some (s₂, some 4160) ∧
    s₂.blocks.map (fun x => x.2.1) = [0, 408] ∧
    ¬ s₂.Provides s.live 4160 0xffffffffffffffff := by
  obtain ⟨s, hs⟩ : ∃ s, Pool.new 4096 512 = some s := ⟨_, rfl⟩
  have harray : ((Pool.new 4096 512).bind fun s => s.malloc (0x2000000000000001 * 8)).map
      (fun x => (x.2, x.1.blocks.map fun y => y.2.1)) = some (some 4160, [8, 400]) := by
    decide +kernel
  have hrequest : ((Pool.new 4096 512).bind fun s => s.malloc 0xffffffffffffffff).map
      (fun x => (x.2, x.1.blocks.map fun y => y.2.1)) = some (some 4160, [0, 408]) := by
    decide +kernel
  rw [hs, Option.bind_some] at harray hrequest
  obtain ⟨⟨s₁, r₁⟩, hmalloc₁, heq₁⟩ := Option.map_eq_some_iff.mp harray
  obtain ⟨⟨s₂, r₂⟩, hmalloc₂, heq₂⟩ := Option.map_eq_some_iff.mp hrequest
  obtain ⟨rfl, hsizes₁⟩ := Prod.mk.inj heq₁
  obtain ⟨rfl, hsizes₂⟩ := Prod.mk.inj heq₂
  refine ⟨s, s₁, s₂, hs, ?_, hsizes₁, fun hp => ?_, hmalloc₂, hsizes₂, fun hp => ?_⟩
  · simp only [mallocType, hmalloc₁, Option.bind_eq_bind, Option.bind_some]
    rfl
  · exact absurd (hp.room_le hsizes₁) (by decide)
  · exact absurd (hp.room_le hsizes₂) (by decide)

end Pool

end Halo
