import Halo.Mem.FreeList

/-!
# The layout of a pool

The physical blocks of a pool are a list of addresses with sizes and free flags. `Layout` relates an
allocator to this list and to its free list; every call keeps it, and returns.

* `Tiles`: the blocks follow one another from the start to the end of the pool.
* `split_spec`, `absorb_spec`, `Linked.setHeader`: what the writes do to the two lists.
* `malloc_spec`, `free_spec`: the calls keep `Layout`.
* `Pool.blocks`: the physical blocks, read off the `next` links. `Pool.InPlace`: the invariant of
  every pool, also one whose size does not fit into the 63 bits that a block header has for it.
* `pool_layout`: every run of calls has a result, with all blocks in place.
-/

namespace Halo

open List

/-- A block as its physical neighbours see it: the address, the size of the data and the flag. -/
abbrev PhysBlock := Nat × (UInt64 × Bool)

/-- The blocks fill the addresses from `a` up to `e`, in order, without gap and overlap. -/
def Tiles : Nat → List PhysBlock → Nat → Prop
  | a, [], e => a = e
  | a, (p, size, _) :: ps, e => p = a ∧ Tiles (a + blockSize.toNat + size.toNat) ps e

/-- Two blocks of which at most one is free. -/
def Apart (x y : PhysBlock) : Prop := ¬ (x.2.2 = true ∧ y.2.2 = true)

/-- The addresses of the free blocks. -/
def freeBlocks (ps : List PhysBlock) : List Nat := (ps.filter fun x => x.2.2).map Prod.fst

/-- The blocks that are allocated. -/
def usedBlocks (ps : List PhysBlock) : List PhysBlock := ps.filter fun x => !x.2.2

/-- The pointer to the data of a block. -/
def dataPtr (x : PhysBlock) : Nat := x.1 + blockSize.toNat

/-- The bytes of a block, with its header. -/
def blockBytes (x : PhysBlock) : Nat := blockSize.toNat + x.2.1.toNat

/-- The blocks are at multiples of eight bytes behind `a`. -/
def Aligned (a : Nat) (ps : List PhysBlock) : Prop := ∀ x ∈ ps.map Prod.fst, x % 8 = a % 8

/-- The bytes of the allocated blocks, with their headers. -/
def usedBytes (ps : List PhysBlock) : Nat := ((usedBlocks ps).map blockBytes).sum

section

variable {ps qs : List PhysBlock} {a e x y : Nat} {s t : UInt64} {f g : Bool}

theorem blockSize_toNat : blockSize.toNat = 40 := rfl

@[simp] theorem freeBlocks_append : freeBlocks (ps ++ qs) = freeBlocks ps ++ freeBlocks qs := by
  simp [freeBlocks]

@[simp] theorem freeBlocks_cons_free : freeBlocks ((x, s, true) :: ps) = x :: freeBlocks ps := rfl

@[simp] theorem freeBlocks_cons_used : freeBlocks ((x, s, false) :: ps) = freeBlocks ps := rfl

@[simp] theorem usedBlocks_append (ps qs : List PhysBlock) :
    usedBlocks (ps ++ qs) = usedBlocks ps ++ usedBlocks qs := by
  simp [usedBlocks]

@[simp] theorem usedBlocks_nil : usedBlocks [] = [] := rfl

@[simp] theorem usedBlocks_cons_free : usedBlocks ((x, s, true) :: ps) = usedBlocks ps := rfl

@[simp] theorem usedBlocks_cons_used :
    usedBlocks ((x, s, false) :: ps) = (x, s, false) :: usedBlocks ps := rfl

theorem mem_freeBlocks (h : x ∈ freeBlocks ps) : ∃ s, (x, s, true) ∈ ps := by
  obtain ⟨⟨_, s, f⟩, hz, rfl⟩ := mem_map.mp h
  obtain ⟨hz, hf⟩ := mem_filter.mp hz
  obtain rfl : f = true := hf
  exact ⟨s, hz⟩

theorem mem_freeBlocks_of_mem (h : (x, s, true) ∈ ps) : x ∈ freeBlocks ps :=
  mem_map.mpr ⟨_, mem_filter.mpr ⟨h, rfl⟩, rfl⟩

/-! ## Tilings -/

theorem tiles_append : Tiles a (ps ++ qs) e ↔ ∃ m, Tiles a ps m ∧ Tiles m qs e := by
  induction ps generalizing a with
  | nil => simp [Tiles]
  | cons z ps ih =>
    obtain ⟨p, s, f⟩ := z
    simp only [cons_append, Tiles, ih, and_assoc, exists_and_left]

theorem Tiles.le (h : Tiles a ps e) : a + blockSize.toNat * ps.length ≤ e := by
  induction ps generalizing a with
  | nil => exact Nat.le_of_eq h
  | cons z ps ih =>
    obtain ⟨p, s, f⟩ := z
    have htail := ih h.2
    simp only [length_cons, blockSize_toNat] at htail ⊢
    omega

theorem Tiles.start_le (h : Tiles a ps e) (hx : x ∈ ps.map Prod.fst) : a ≤ x := by
  induction ps generalizing a with
  | nil => cases hx
  | cons z ps ih =>
    obtain ⟨p, s, f⟩ := z
    obtain ⟨rfl, htail⟩ := h
    rcases mem_cons.mp hx with rfl | hx
    · exact Nat.le_refl _
    · exact Nat.le_trans (by omega) (ih htail hx)

/-- No address is used twice. -/
theorem Tiles.nodup (h : Tiles a ps e) : (ps.map Prod.fst).Nodup := by
  induction ps generalizing a with
  | nil => exact nodup_nil
  | cons z ps ih =>
    obtain ⟨p, s, f⟩ := z
    obtain ⟨rfl, htail⟩ := h
    refine nodup_cons.mpr ⟨fun hmem => ?_, ih htail⟩
    have hle := htail.start_le hmem
    rw [blockSize_toNat] at hle
    omega

/-- The tiling does not depend on the flags. -/
theorem Tiles.setFree (h : Tiles a (ps ++ (x, s, f) :: qs) e) (g : Bool) :
    Tiles a (ps ++ (x, s, g) :: qs) e := by
  obtain ⟨m, hps, hqs⟩ := tiles_append.mp h
  exact tiles_append.mpr ⟨m, hps, hqs⟩

/-- The place of a block. -/
theorem Tiles.block_le (h : Tiles a (ps ++ (x, s, f) :: qs) e) :
    a ≤ x ∧ x + blockSize.toNat + s.toNat ≤ e := by
  obtain ⟨m, hps, rfl, hqs⟩ := tiles_append.mp h
  have h₁ := hps.le
  have h₂ := hqs.le
  omega

/-- Two adjacent blocks. -/
theorem Tiles.next (h : Tiles a (ps ++ (x, s, f) :: (y, t, g) :: qs) e) :
    y = x + blockSize.toNat + s.toNat := by
  obtain ⟨m, hps, rfl, hy, hqs⟩ := tiles_append.mp h
  exact hy

/-- A block in the place of two adjacent ones. -/
theorem Tiles.merge {r : UInt64} (h : Tiles a (ps ++ (x, s, f) :: (y, t, g) :: qs) e)
    (hr : r.toNat = s.toNat + t.toNat + blockSize.toNat) : Tiles a (ps ++ (x, r, f) :: qs) e := by
  obtain ⟨m, hps, rfl, -, hqs⟩ := tiles_append.mp h
  refine tiles_append.mpr ⟨x, hps, rfl, ?_⟩
  have heq : x + blockSize.toNat + r.toNat =
      x + blockSize.toNat + s.toNat + blockSize.toNat + t.toNat := by omega
  rw [heq]
  exact hqs

/-- Two adjacent blocks in the place of one. -/
theorem Tiles.split {r : UInt64} (h : Tiles a (ps ++ (x, r, f) :: qs) e)
    (hr : r.toNat = s.toNat + t.toNat + blockSize.toNat) :
    Tiles a (ps ++ (x, s, f) :: (x + blockSize.toNat + s.toNat, t, g) :: qs) e := by
  obtain ⟨m, hps, rfl, hqs⟩ := tiles_append.mp h
  refine tiles_append.mpr ⟨x, hps, rfl, rfl, ?_⟩
  have heq : x + blockSize.toNat + s.toNat + blockSize.toNat + t.toNat =
      x + blockSize.toNat + r.toNat := by omega
  rw [heq]
  exact hqs

theorem usedBytes_cons_used : usedBytes ((x, s, false) :: ps) =
    blockSize.toNat + s.toNat + usedBytes ps := rfl

theorem usedBytes_cons_free : usedBytes ((x, s, true) :: ps) = usedBytes ps := rfl

theorem usedBytes_append : usedBytes (ps ++ qs) = usedBytes ps + usedBytes qs := by
  simp [usedBytes]

theorem Tiles.usedBytes_le (h : Tiles a ps e) : a + usedBytes ps ≤ e := by
  induction ps generalizing a with
  | nil => exact Nat.le_of_eq h
  | cons z ps ih =>
    obtain ⟨p, s, f⟩ := z
    have htail := ih h.2
    cases f with
    | false =>
      rw [usedBytes_cons_used]
      omega
    | true =>
      rw [usedBytes_cons_free]
      omega

/-- A block that was split off is aligned, if the size of the data in front of it is. -/
theorem Aligned.split {rest : List PhysBlock} {size : Nat} (h : Aligned a (ps ++ (x, s, f) :: qs))
    (hsize : size % 8 = 0)
    (hrest : ∀ y ∈ rest.map Prod.fst, y = x + blockSize.toNat + size ∨ y ∈ qs.map Prod.fst) :
    Aligned a (ps ++ (x, t, g) :: rest) := by
  intro y hy
  have hx : x % 8 = a % 8 := h x (by simp)
  rw [map_append, map_cons, mem_append, mem_cons] at hy
  rcases hy with hy | rfl | hy
  · exact h y (by simp [hy])
  · exact hx
  · rcases hrest y hy with rfl | hy
    · rw [blockSize_toNat]
      omega
    · exact h y (by simp [hy])

theorem Aligned.mono (h : Aligned a ps) (hsub : (qs.map Prod.fst).Sublist (ps.map Prod.fst)) :
    Aligned a qs := fun y hy => h y (hsub.subset hy)

/-! ## Neighbours -/

/-- A block that is not free may stand at the end. -/
theorem apart_concat_used {z : PhysBlock} (h : (ps ++ [z]).IsChain Apart) :
    (ps ++ [(x, s, false)]).IsChain Apart := by
  rw [isChain_append] at h ⊢
  refine ⟨h.1, isChain_singleton _, fun u _ v hv => ?_⟩
  cases hv
  exact fun hboth => Bool.false_ne_true hboth.2

/-- Only the flag of a block matters to its neighbour before. -/
theorem apart_concat_resize (h : (ps ++ [(x, s, f)]).IsChain Apart) :
    (ps ++ [(x, t, f)]).IsChain Apart := by
  rw [isChain_append] at h ⊢
  refine ⟨h.1, isChain_singleton _, fun u hu v hv => ?_⟩
  cases hv
  exact h.2.2 u hu (x, s, f) rfl

/-- A block that is not free may stand in front. -/
theorem apart_cons_used (h : ps.IsChain Apart) : ((x, s, false) :: ps).IsChain Apart :=
  isChain_cons.mpr ⟨fun _ _ hboth => Bool.false_ne_true hboth.1, h⟩

end

namespace StaticAllocator

variable {h : StaticAllocator} {ps qs : List PhysBlock} {fl us : List Nat} {a e b x y : Nat}
  {s t : UInt64} {f g : Bool}

/-- The two lists of an allocator. -/
structure Linked (h : StaticAllocator) (ps : List PhysBlock) (fl : List Nat) : Prop where
  phys : Dlseg physLinks h.mem none ps none
  free : FreeList h fl

/-- The header of a block. -/
theorem Linked.block (hl : Linked h (ps ++ (b, s, f) :: qs) fl) :
    ∃ n, h.mem b = some n ∧ n.header.getSize = s ∧ n.header.getFree = f ∧
      n.prev = lastOr none ps ∧ n.next = firstOr qs none := by
  obtain ⟨n, hn, hdata, hprev, hnext⟩ := hl.phys.node
  exact ⟨n, hn, congrArg Prod.fst hdata, congrArg Prod.snd hdata, hprev, hnext⟩

/-- A write to the header word of a block. -/
theorem Linked.setHeader {w : BlockHeader → BlockHeader} (hl : Linked h (ps ++ (b, s, f) :: qs) fl)
    (hnodup : ((ps ++ (b, s, f) :: qs).map Prod.fst).Nodup)
    (hw : ∀ v : BlockHeader, v.getSize = s → v.getFree = f →
      (w v).getSize = t ∧ (w v).getFree = g) :
    ∃ h', h.modify b (fun n => { n with header := w n.header }) = some h' ∧
      Linked h' (ps ++ (b, t, g) :: qs) fl ∧ h'.allocSize = h.allocSize := by
  obtain ⟨n, hn, -⟩ := hl.block
  refine ⟨_, modify_eq hn _, ⟨?_, ?_⟩, rfl⟩
  · refine hl.phys.modifyData hnodup fun n hdata => ⟨rfl, rfl, ?_⟩
    obtain ⟨hs, hf⟩ := hw n.header (congrArg Prod.fst hdata) (congrArg Prod.snd hdata)
    exact Prod.ext hs hf
  · exact hl.free.congr (sameFree_setAt h _ fun n => ⟨rfl, rfl⟩) rfl

theorem Linked.setFree (hl : Linked h (ps ++ (b, s, f) :: qs) fl)
    (hnodup : ((ps ++ (b, s, f) :: qs).map Prod.fst).Nodup) (g : Bool) :
    ∃ h', h.modify b (fun n => { n with header := n.header.setFree g }) = some h' ∧
      Linked h' (ps ++ (b, s, g) :: qs) fl ∧ h'.allocSize = h.allocSize :=
  hl.setHeader hnodup fun v hs _ => ⟨(v.getSize_setFree g).trans hs, v.getFree_setFree g⟩

/-- A block leaves the free list. -/
theorem Linked.remove (hl : Linked h ps fl) (hperm : fl.Perm (b :: us)) :
    ∃ h' fl', h.removeFreeBlock b = some h' ∧ Linked h' ps fl' ∧ fl'.Perm us ∧
      h'.allocSize = h.allocSize := by
  obtain ⟨l, r, rfl⟩ := append_of_mem (hperm.mem_iff.mpr mem_cons_self)
  obtain ⟨h', heq, hfree, hsame, halloc⟩ := removeFreeBlock_spec hl.free
  exact ⟨h', l ++ r, heq, ⟨hsame.linked hl.phys, hfree⟩,
    (perm_middle.symm.trans hperm).cons_inv, halloc⟩

/-- A block enters the free list. -/
theorem Linked.insert (hl : Linked h (ps ++ (b, s, f) :: qs) fl) (hb : b ∉ fl) :
    ∃ h', h.insertFreeBlock b = some h' ∧ Linked h' (ps ++ (b, s, f) :: qs) (b :: fl) ∧
      h'.allocSize = h.allocSize := by
  obtain ⟨n, hn, -⟩ := hl.block
  obtain ⟨h', heq, hfree, hsame, halloc⟩ := insertFreeBlock_spec hl.free hb hn
  exact ⟨h', heq, ⟨hsame.linked hl.phys, hfree⟩, halloc⟩

/-- The counter is not part of the lists. -/
theorem Linked.setAllocSize (hl : Linked h ps fl) (v : UInt64) :
    Linked { h with allocSize := v } ps fl :=
  ⟨hl.phys, hl.free.head, hl.free.linked, hl.free.nodup⟩

/-- The next block of a list of physical blocks is there. -/
theorem firstOr_some (hl : Dlseg physLinks h.mem none (ps ++ qs) none) :
    ∀ q, firstOr qs none = some q → ∃ n, h.mem q = some n := by
  intro q hq
  obtain ⟨d, rest, rfl⟩ := mem_of_firstOr hq
  obtain ⟨n, hn, -⟩ := hl.node
  exact ⟨n, hn⟩

/-- The lists of an allocator whose blocks tile a pool, with data of less than `2 ^ 63` bytes. -/
structure Placed (a e : Nat) (h : StaticAllocator) (ps : List PhysBlock) (fl : List Nat) :
    Prop extends Linked h ps fl where
  tiles : Tiles a ps e
  pool : e < a + blockSize.toNat + 2 ^ 63

/-- A block takes over the next one. -/
theorem absorb_spec (hl : Placed a e h (ps ++ (x, s, f) :: (y, t, g) :: qs) fl) :
    ∃ h' r, h.absorb x y = some h' ∧ Placed a e h' (ps ++ (x, r, f) :: qs) fl ∧
      h'.allocSize = h.allocSize := by
  have hcut : ∀ (d : UInt64 × Bool) (l : List PhysBlock),
      ps ++ (x, d) :: l = (ps ++ [(x, d)]) ++ l := by simp
  have hsplit : Placed a e h ((ps ++ [(x, s, f)]) ++ (y, t, g) :: qs) fl := by rwa [hcut] at hl
  obtain ⟨m, hm, hmsize, -, -, hmnext⟩ := hsplit.block
  -- the new size of the first block
  have hstart := hl.tiles.block_le.1
  have hstop := hsplit.tiles.block_le.2
  have hplace := hl.tiles.next
  have hpool := hl.pool
  have hsum : (s + t + blockSize).toNat = s.toNat + t.toNat + blockSize.toNat := by
    rw [UInt64.toNat_add, UInt64.toNat_add]
    omega
  have hnodup := hl.tiles.nodup
  obtain ⟨h₁, hset, hl₁, halloc⟩ := hl.setHeader hnodup
    (w := fun v => v.setSize (v.getSize + m.header.getSize + blockSize)) (t := s + t + blockSize)
    (g := f) fun v hs hf => by
      rw [hs, hmsize]
      exact ⟨v.getSize_setSize (by omega), (v.getFree_setSize _).trans hf⟩
  have hnodup₁ : ((ps ++ (x, s + t + blockSize, f) :: (y, t, g) :: qs).map Prod.fst).Nodup := by
    simpa using hnodup
  obtain ⟨n₁, hn₁, -⟩ := hl₁.block
  -- the second block is taken out of the physical list
  let f₁ : Block → Block := fun n => { n with next := firstOr qs none }
  let f₂ : Block → Block := fun n => { n with prev := some x }
  let h₂ := h₁.setAt (some x) f₁
  have hsome : ∀ q, firstOr qs none = some q → ∃ n, h₂.mem q = some n := by
    intro q hq
    have hphys : Dlseg physLinks h₁.mem none
        ((ps ++ [(x, s + t + blockSize, f), (y, t, g)]) ++ qs) none := by simpa using hl₁.phys
    obtain ⟨n, hn⟩ := firstOr_some hphys q hq
    exact ⟨_, mem_setAt_some hn⟩
  refine ⟨h₂.setAt (firstOr qs none) f₂, _, ?_, ⟨⟨?_, ?_⟩, hl.tiles.merge hsum, hpool⟩, halloc⟩
  · unfold absorb
    rw [hm]
    change (h.modify x _ >>= _) = _
    rw [hset]
    change (h₁.modify x (fun n => { n with next := m.next }) >>= _) = _
    rw [hmnext, modify_eq hn₁]
    exact modifyOpt_eq hsome _
  · have hphys := hl₁.phys
    rw [hcut] at hphys hnodup₁
    have hlast : lastOr none (ps ++ [(x, s + t + blockSize, f)]) = some x := lastOr_concat _ _ _
    have hnew := hphys.unlink (f := f₁) (g := f₂) hnodup₁ (fun n => ⟨rfl, rfl, rfl⟩)
      fun n => ⟨rfl, hlast.symm, rfl⟩
    rw [hlast] at hnew
    rw [hcut]
    exact hnew
  · have e₁ : SameFree h₁ h₂ := sameFree_setAt h₁ _ fun n => ⟨rfl, rfl⟩
    have e₂ : SameFree h₂ (h₂.setAt (firstOr qs none) f₂) := sameFree_setAt h₂ _ fun n => ⟨rfl, rfl⟩
    exact hl₁.free.congr (e₁.trans e₂) rfl

/-- The rest of a block becomes a block of its own. -/
theorem split_spec {size : UInt64} (hl : Placed a e h (ps ++ (b, s, true) :: qs) fl)
    (hperm : fl.Perm (freeBlocks (ps ++ (b, s, true) :: qs)))
    (hrest : (s - size - blockSize).toNat + size.toNat + blockSize.toNat = s.toNat) :
    ∃ h', h.split b size = some h' ∧
      Placed a e h' (ps ++ (b, size, true) ::
        (b + blockSize.toNat + size.toNat, s - size - blockSize, true) :: qs)
        ((b + blockSize.toNat + size.toNat) :: fl) ∧
      h'.allocSize = h.allocSize := by
  obtain ⟨n, hn, hnsize, -, -, hnnext⟩ := hl.block
  obtain ⟨hstart, hstop⟩ := hl.tiles.block_le
  have hpool := hl.pool
  have hlt : (s - size - blockSize).toNat < 2 ^ 63 := by omega
  have hltsize : size.toNat < 2 ^ 63 := by omega
  have htiles := hl.tiles.split (s := size) (t := s - size - blockSize) (g := true) (by omega)
  have hnodup₄ := htiles.nodup
  set nb := b + blockSize.toNat + size.toNat with hnbdef
  have hnb : nb ∉ (ps ++ (b, s, true) :: qs).map Prod.fst := by
    simp only [map_append, map_cons] at hnodup₄ ⊢
    rw [append_cons] at hnodup₄ ⊢
    exact (nodup_cons.mp (perm_middle.nodup_iff.mp hnodup₄)).1
  have hfl : nb ∉ fl := by
    intro hmem
    obtain ⟨s, hs⟩ := mem_freeBlocks (hperm.mem_iff.mp hmem)
    exact hnb (mem_map.mpr ⟨_, hs, rfl⟩)
  let old : BlockHeader := ((h.mem nb).map Block.header).getD 0
  let new : Block :=
    ⟨(old.setSize (s - size - blockSize)).setFree true, firstOr qs none, some b, none, none⟩
  let f₁ : Block → Block := fun x => { x with prev := some nb }
  let f₂ : Block → Block := fun x => { x with next := some nb }
  let h₁ : StaticAllocator := { h with mem := Function.update h.mem nb (some new) }
  let h₂ := h₁.setAt (firstOr qs none) f₁
  let h₃ := h₂.setAt (some b) f₂
  have hbnb : b ≠ nb := by
    rintro he
    exact hnb (he ▸ by simp)
  have hsome : ∀ q, firstOr qs none = some q → ∃ x, h₁.mem q = some x := by
    intro q hq
    have hphys := hl.phys
    rw [append_cons] at hphys
    obtain ⟨x, hx⟩ := firstOr_some hphys q hq
    by_cases he : q = nb
    · exact ⟨new, by rw [he]; exact Function.update_self ..⟩
    · exact ⟨x, (Function.update_of_ne he _ _).trans hx⟩
  have hb₂ : ∃ x, h₂.mem b = some x :=
    ⟨_, mem_setAt_some ((Function.update_of_ne hbnb _ _).trans hn)⟩
  obtain ⟨x₂, hx₂⟩ := hb₂
  -- the new block is linked behind the old one
  have hl₃ : Linked h₃ ((ps ++ [(b, s, true)]) ++ (nb, s - size - blockSize, true) :: qs) fl := by
    refine ⟨?_, ?_⟩
    · have hdata : physLinks.data new = (s - size - blockSize, true) :=
        Prod.ext ((BlockHeader.getSize_setFree _ _).trans (old.getSize_setSize hlt))
          (BlockHeader.getFree_setFree _ _)
      have hnew := hl.phys.insertAfter (f := f₂) (g := f₁) hl.tiles.nodup hnb hdata rfl rfl
        (fun x => ⟨rfl, rfl, rfl⟩) fun x => ⟨rfl, rfl, rfl⟩
      rw [append_cons] at hnew
      exact hnew
    · have hfree₁ : FreeList h₁ fl := by
        refine ⟨hl.free.head, hl.free.linked.update ?_ _, hl.free.nodup⟩
        rwa [map_fst_nodes]
      have e₂ : SameFree h₁ h₂ := sameFree_setAt h₁ _ fun x => ⟨rfl, rfl⟩
      have e₃ : SameFree h₂ h₃ := sameFree_setAt h₂ _ fun x => ⟨rfl, rfl⟩
      exact hfree₁.congr (e₂.trans e₃) rfl
  obtain ⟨h₄, hins, hl₄, halloc₄⟩ := hl₃.insert hfl
  rw [← append_cons] at hl₄
  obtain ⟨h₅, hset, hl₅, halloc₅⟩ := hl₄.setHeader (by simpa using hnodup₄)
    (w := fun v => v.setSize size) (t := size) (g := true) fun v _ hf =>
      ⟨v.getSize_setSize hltsize, (v.getFree_setSize _).trans hf⟩
  refine ⟨h₅, ?_, ⟨hl₅, htiles, hpool⟩, halloc₅.trans halloc₄⟩
  simp only [split, hn, hnsize, hnnext, Option.bind_eq_bind, Option.bind_some]
  change ((h₁.modifyOpt (firstOr qs none) f₁).bind _) = _
  rw [modifyOpt_eq hsome]
  change (h₂.modify b f₂ >>= _) = _
  rw [modify_eq hx₂]
  change (h₃.insertFreeBlock nb >>= _) = _
  rw [hins]
  exact hset

/-! ## The calls -/

/-- The allocator between two calls: its blocks, of which `fl` are in the free list. -/
structure Layout (start stop : Nat) (h : StaticAllocator) (ps : List PhysBlock) (fl : List Nat) :
    Prop extends Linked h ps fl where
  tiles : Tiles start ps stop
  apart : ps.IsChain Apart
  free_perm : fl.Perm (freeBlocks ps)
  allocSize_eq : h.allocSize.toNat = allocatorSize.toNat + usedBytes ps

theorem not_mem_free (hnodup : ((ps ++ (b, s, f) :: qs).map Prod.fst).Nodup)
    (hperm : fl.Perm (freeBlocks ps ++ freeBlocks qs)) : b ∉ fl := by
  rw [map_append, map_cons] at hnodup
  obtain ⟨hb, -⟩ := nodup_cons.mp (perm_middle.nodup_iff.mp hnodup)
  rw [mem_append, not_or] at hb
  intro hmem
  rcases mem_append.mp (hperm.mem_iff.mp hmem) with hfree | hfree
  · obtain ⟨s, hs⟩ := mem_freeBlocks hfree
    exact hb.1 (mem_map.mpr ⟨_, hs, rfl⟩)
  · obtain ⟨s, hs⟩ := mem_freeBlocks hfree
    exact hb.2 (mem_map.mpr ⟨_, hs, rfl⟩)

/-- The end of `Malloc`. The block may have a free one behind it, which was split off from it. -/
theorem take_spec (hl : Placed a e h (ps ++ (b, s, true) :: qs) fl)
    (hps : (ps ++ [(b, s, true)]).IsChain Apart) (hqs : qs.IsChain Apart)
    (hperm : fl.Perm (freeBlocks (ps ++ (b, s, true) :: qs)))
    (halloc : h.allocSize.toNat = allocatorSize.toNat + usedBytes (ps ++ (b, s, true) :: qs)) :
    ∃ h' fl', h.take b = some (h', some (b + blockSize.toNat)) ∧
      Layout a e h' (ps ++ (b, s, false) :: qs) fl' := by
  rw [freeBlocks_append, freeBlocks_cons_free] at hperm
  obtain ⟨h₁, fl', hremove, hl₁, hperm₁, halloc₁⟩ := hl.remove (hperm.trans perm_middle)
  obtain ⟨h₂, hset, hl₂, halloc₂⟩ := hl₁.setFree hl.tiles.nodup false
  obtain ⟨n, hn, hnsize, -⟩ := hl₂.block
  refine ⟨{ h₂ with allocSize := h₂.allocSize + (blockSize + s) }, fl', ?_, ?_⟩
  · simp only [take, hremove, hset, hn, hnsize, Option.bind_eq_bind, Option.bind_some]
    rfl
  · have htiles' := hl.tiles.setFree false
    refine ⟨hl₂.setAllocSize _, htiles', ?_, ?_, ?_⟩
    · exact isChain_split.mpr ⟨apart_concat_used hps, apart_cons_used hqs⟩
    · rwa [freeBlocks_append, freeBlocks_cons_used]
    · -- the sum does not wrap around, since the blocks are in the pool
      have hbytes := htiles'.usedBytes_le
      have hpool := hl.pool
      rw [usedBytes_append, usedBytes_cons_used] at hbytes ⊢
      rw [usedBytes_append, usedBytes_cons_free] at halloc
      change (h₂.allocSize + (blockSize + s)).toNat = _
      rw [halloc₂, halloc₁, UInt64.toNat_add, UInt64.toNat_add, halloc]
      have hheader : allocatorSize.toNat = 24 := rfl
      rw [blockSize_toNat] at *
      omega

theorem used_perm : ((usedBlocks (ps ++ (b, s, false) :: qs)).map dataPtr).Perm
    ((b + blockSize.toNat) :: (usedBlocks ps ++ usedBlocks qs).map dataPtr) := by
  rw [usedBlocks_append, usedBlocks_cons_used, map_append, map_append]
  exact perm_middle

theorem allocate_spec {size : UInt64} (hl : Layout a e h (ps ++ (b, s, true) :: qs) fl)
    (hpool : e < a + blockSize.toNat + 2 ^ 63) (hsize : ¬ s < size) :
    ∃ h' t rest fl', h.allocate b size = some (h', some (b + blockSize.toNat)) ∧
      Layout a e h' (ps ++ (b, t, false) :: rest) fl' ∧ usedBlocks rest = usedBlocks qs ∧ size ≤ t ∧
      ∀ x ∈ rest.map Prod.fst, x = b + blockSize.toNat + size.toNat ∨ x ∈ qs.map Prod.fst := by
  obtain ⟨n, hn, hnsize, -⟩ := hl.block
  obtain ⟨hps, hqs⟩ := isChain_split.mp hl.apart
  obtain ⟨hnext, hqs⟩ := isChain_cons.mp hqs
  simp only [allocate, hn, hnsize, Option.bind_eq_bind, Option.bind_some]
  by_cases hgt : s - size > blockSize
  · rw [if_pos hgt]
    have hsub : (s - size).toNat = s.toNat - size.toNat :=
      UInt64.toNat_sub_of_le s size (UInt64.not_lt.mp hsize)
    have hsub' : (s - size - blockSize).toNat = s.toNat - size.toNat - blockSize.toNat := by
      rw [UInt64.toNat_sub_of_le _ _ (UInt64.le_of_lt hgt), hsub]
    rw [gt_iff_lt, UInt64.lt_iff_toNat_lt, hsub] at hgt
    have hrest : (s - size - blockSize).toNat + size.toNat + blockSize.toNat = s.toNat := by omega
    obtain ⟨h₁, hsplit, hl₁, halloc⟩ :=
      split_spec ⟨hl.toLinked, hl.tiles, hpool⟩ hl.free_perm hrest
    -- the new block is free, and the one behind it is not, since it stood behind a free block
    have hnew : ((b + blockSize.toNat + size.toNat, s - size - blockSize, true) :: qs).IsChain
        Apart :=
      isChain_cons.mpr ⟨hnext, hqs⟩
    have hperm : ((b + blockSize.toNat + size.toNat) :: fl).Perm
      (freeBlocks (ps ++ (b, size, true) ::
        (b + blockSize.toNat + size.toNat, s - size - blockSize, true) :: qs)) := by
      have hold := hl.free_perm
      simp only [freeBlocks_append, freeBlocks_cons_free] at hold ⊢
      rw [append_cons] at hold ⊢
      exact (hold.cons _).trans perm_middle.symm
    have hbytes := hl.allocSize_eq
    rw [usedBytes_append, usedBytes_cons_free, ← halloc] at hbytes
    obtain ⟨h', fl', htake, hl'⟩ := take_spec hl₁ (apart_concat_resize hps) hnew hperm
      (by rwa [usedBytes_append, usedBytes_cons_free, usedBytes_cons_free])
    refine ⟨h', size, _, fl', ?_, hl', usedBlocks_cons_free, UInt64.le_refl _, fun x hx => ?_⟩
    · rw [hsplit]
      exact htake
    · rwa [map_cons, mem_cons] at hx
  · rw [if_neg hgt]
    obtain ⟨h', fl', htake, hl'⟩ := take_spec ⟨hl.toLinked, hl.tiles, hpool⟩ hps hqs
      hl.free_perm hl.allocSize_eq
    exact ⟨h', s, qs, fl', htake, hl', rfl, UInt64.not_lt.mp hsize, fun x hx => Or.inr hx⟩

/-- The size that `Malloc` looks for. -/
def roundUp (size : UInt64) : UInt64 := (size + 7) &&& ~~~7

theorem toNat_roundUp (size : UInt64) :
    (roundUp size).toNat = (size.toNat + 7) % 2 ^ 64 / 8 * 8 := by
  have hsum : (size + 7).toNat = (size.toNat + 7) % 2 ^ 64 := UInt64.toNat_add size 7
  rw [← hsum]
  exact toNat_and_highMask (show 3 ≤ 64 by decide) (size + 7) rfl

theorem malloc_spec {fuel : Nat} (hl : Layout a e h ps fl)
    (hpool : e < a + blockSize.toNat + 2 ^ 63) (hfuel : ps.length ≤ fuel) (size : UInt64) :
    ∃ h' r ps' fl', h.malloc fuel size = some (h', r) ∧ Layout a e h' ps' fl' ∧
      ((usedBlocks ps').map dataPtr).Perm (r.toList ++ (usedBlocks ps).map dataPtr) ∧
      (Aligned a ps → Aligned a ps') ∧
      (∀ p, r = some p → ∃ b t, (b, t, false) ∈ ps' ∧ p = b + blockSize.toNat ∧ roundUp size ≤ t) ∧
      (r = none ↔ size = 0 ∨ ∀ x ∈ ps, x.2.2 = true → x.2.1 < roundUp size) := by
  unfold malloc
  by_cases hzero : size = 0
  · exact ⟨h, none, ps, fl, if_pos hzero, hl, Perm.refl _, id, nofun,
      iff_of_true rfl (Or.inl hzero)⟩
  rw [if_neg hzero]
  have hlen : fl.length ≤ fuel := by
    have hfilter : (freeBlocks ps).length ≤ ps.length := by
      rw [freeBlocks, length_map]
      exact length_filter_le _ _
    have hperm := hl.free_perm.length_eq
    omega
  dsimp only
  rw [show (size + 7) &&& ~~~7 = roundUp size from rfl]
  obtain ⟨r, hr, hfit, hnone⟩ := firstFit_spec (roundUp size) hl.free.linked hlen
  rw [← hl.free.head] at hr
  rw [hr]
  cases r with
  | none =>
    refine ⟨h, none, ps, fl, rfl, hl, Perm.refl _, id, nofun, iff_of_true rfl (Or.inr ?_)⟩
    rintro ⟨b, s, f⟩ hx rfl
    obtain ⟨n, hn, hsize⟩ := hnone rfl b (hl.free_perm.mem_iff.mpr (mem_freeBlocks_of_mem hx))
    obtain ⟨pre, post, rfl⟩ := append_of_mem hx
    obtain ⟨m, hm, hmsize, -⟩ := hl.block
    obtain rfl : m = n := Option.some_inj.mp (hm.symm.trans hn)
    rwa [hmsize] at hsize
  | some b =>
    obtain ⟨hb, n, hn, hsize⟩ := hfit b rfl
    obtain ⟨s, hs⟩ := mem_freeBlocks (hl.free_perm.mem_iff.mp hb)
    obtain ⟨pre, post, rfl⟩ := append_of_mem hs
    obtain ⟨m, hm, hmsize, -⟩ := hl.block
    obtain rfl : m = n := Option.some_inj.mp (hm.symm.trans hn)
    rw [hmsize] at hsize
    obtain ⟨h', t, rest, fl', halloc, hl', hused, ht, hrest⟩ := allocate_spec hl hpool hsize
    refine ⟨h', _, _, fl', halloc, hl', ?_, fun haligned => ?_, fun p hp => ?_, ?_⟩
    · rw [usedBlocks_append pre ((b, s, true) :: post), usedBlocks_cons_free, ← hused]
      exact used_perm
    · exact haligned.split (toNat_roundUp size ▸ Nat.mul_mod_left _ _) hrest
    · cases hp
      exact ⟨b, t, by simp, rfl, ht⟩
    · refine iff_of_false nofun ?_
      rintro (h0 | hall)
      · exact hzero h0
      · exact hsize (hall _ hs rfl)

/-- The loop of `Free`: the blocks up to the first one that is not free become part of `b`. -/
theorem mergeNext_spec {fuel : Nat} (hl : Placed a e h (ps ++ (b, s, f) :: qs) fl)
    (hperm : fl.Perm (us ++ freeBlocks qs)) (hfuel : qs.length < fuel) :
    ∃ h' t rest fl', mergeNext b fuel h = some h' ∧
      Placed a e h' (ps ++ (b, t, f) :: rest) fl' ∧ fl'.Perm (us ++ freeBlocks rest) ∧
      (∀ z ∈ rest.head?, z.2.2 = false) ∧ rest <:+ qs ∧ usedBlocks rest = usedBlocks qs ∧
      h'.allocSize = h.allocSize := by
  induction qs generalizing h s fl fuel with
  | nil =>
    obtain ⟨fuel, rfl⟩ := Nat.exists_eq_add_one.mpr (Nat.zero_lt_of_lt hfuel)
    obtain ⟨n, hn, -, -, -, hnext⟩ := hl.block
    refine ⟨h, s, [], fl, ?_, hl, hperm, by simp, suffix_rfl, rfl, rfl⟩
    simp [mergeNext, hn, hnext]
  | cons z qs ih =>
    obtain ⟨c, t, g⟩ := z
    obtain ⟨fuel, rfl⟩ := Nat.exists_eq_add_one.mpr (Nat.zero_lt_of_lt hfuel)
    obtain ⟨n, hn, -, -, -, hnext⟩ := hl.block
    have hc : Placed a e h ((ps ++ [(b, s, f)]) ++ (c, t, g) :: qs) fl := by
      rwa [append_cons] at hl
    obtain ⟨m, hm, -, hmfree, -⟩ := hc.block
    cases g with
    | false =>
      refine ⟨h, s, _, fl, ?_, hl, hperm, ?_, suffix_rfl, rfl, rfl⟩
      · simp [mergeNext, hn, hnext, hm, hmfree]
      · rintro z ⟨⟩
        rfl
    | true =>
      obtain ⟨h₁, fl₁, hremove, hl₁, hperm₁, halloc₁⟩ := hl.remove (hperm.trans perm_middle)
      obtain ⟨h₂, r, habsorb, hl₂, halloc₂⟩ := absorb_spec ⟨hl₁, hl.tiles, hl.pool⟩
      obtain ⟨h', r, rest, fl', hmerge, hl', hperm', hhead, hsuffix, hused, halloc⟩ :=
        ih hl₂ hperm₁ (Nat.lt_of_succ_lt_succ hfuel)
      refine ⟨h', r, rest, fl', ?_, hl', hperm', hhead, hsuffix.trans (suffix_cons _ _), hused,
        halloc.trans (halloc₂.trans halloc₁)⟩
      simp [mergeNext, hn, hnext, hm, hmfree, hremove, habsorb, hmerge]

/-- The end of `Free`. -/
theorem insertMerged_spec (hl : Placed a e h (ps ++ (b, s, true) :: qs) fl)
    (hperm : fl.Perm (freeBlocks ps ++ freeBlocks qs)) (hps : ps.IsChain Apart)
    (hqs : qs.IsChain Apart) (hhead : ∀ z ∈ qs.head?, z.2.2 = false) :
    ∃ h' ps' fl', h.insertMerged b = some h' ∧ Placed a e h' ps' fl' ∧
      ps'.IsChain Apart ∧ fl'.Perm (freeBlocks ps') ∧
      usedBlocks ps' = usedBlocks ps ++ usedBlocks qs ∧
      (ps'.map Prod.fst).Sublist ((ps ++ (b, s, true) :: qs).map Prod.fst) ∧
      h'.allocSize = h.allocSize := by
  have hcons : ∀ x t, ((x, t, true) :: qs).IsChain Apart := fun x t =>
    isChain_cons.mpr ⟨fun z hz hboth => Bool.false_ne_true ((hhead z hz).symm.trans hboth.2), hqs⟩
  obtain ⟨n, hn, -, -, hprev, -⟩ := hl.block
  by_cases hfree : ∃ pre c r, ps = pre ++ [(c, r, true)]
  · obtain ⟨pre, c, r, rfl⟩ := hfree
    rw [lastOr_concat] at hprev
    have hc : Placed a e h (pre ++ (c, r, true) :: (b, s, true) :: qs) fl := by
      rwa [← append_cons] at hl
    obtain ⟨m, hm, -, hmfree, -⟩ := hc.block
    rw [freeBlocks_append, freeBlocks_cons_free, append_assoc] at hperm
    obtain ⟨h₁, fl₁, hremove, hl₁, hperm₁, halloc₁⟩ := hc.remove (hperm.trans perm_middle)
    obtain ⟨h₂, t, habsorb, hl₂, halloc₂⟩ := absorb_spec ⟨hl₁, hc.tiles, hc.pool⟩
    obtain ⟨h', hinsert, hl', halloc'⟩ := hl₂.insert (not_mem_free hl₂.tiles.nodup hperm₁)
    refine ⟨h', _, _, ?_, ⟨hl', hl₂.tiles, hl.pool⟩, ?_, ?_, by simp, by simp,
      halloc'.trans (halloc₂.trans halloc₁)⟩
    · simp [insertMerged, hn, hprev, hm, hmfree, hremove, habsorb, hinsert]
    · exact isChain_split.mpr ⟨apart_concat_resize hps, hcons _ _⟩
    · rw [freeBlocks_append, freeBlocks_cons_free]
      exact (hperm₁.cons c).trans perm_middle.symm
  · -- without a free block before it, the block itself enters the list
    obtain ⟨heq, hlast⟩ : h.insertMerged b = h.insertFreeBlock b ∧
        (ps ++ [(b, s, true)]).IsChain Apart := by
      rcases eq_nil_or_concat' ps with rfl | ⟨pre, ⟨c, r, g⟩, rfl⟩
      · exact ⟨by simp [insertMerged, hn, hprev], isChain_singleton _⟩
      obtain rfl : g = false := by
        cases g with
        | false => rfl
        | true => exact absurd ⟨pre, c, r, rfl⟩ hfree
      rw [lastOr_concat] at hprev
      have hc : Placed a e h (pre ++ (c, r, false) :: (b, s, true) :: qs) fl := by
        rwa [← append_cons] at hl
      obtain ⟨m, hm, -, hmfree, -⟩ := hc.block
      refine ⟨by simp [insertMerged, hn, hprev, hm, hmfree], ?_⟩
      rw [isChain_append]
      refine ⟨hps, isChain_singleton _, fun u hu v _ hboth => ?_⟩
      rw [getLast?_concat] at hu
      cases hu
      exact Bool.false_ne_true hboth.1
    obtain ⟨h', hinsert, hl', halloc⟩ := hl.insert (not_mem_free hl.tiles.nodup hperm)
    refine ⟨h', _, _, heq.trans hinsert, ⟨hl', hl.tiles, hl.pool⟩,
      isChain_split.mpr ⟨hlast, hcons b s⟩, ?_, ?_, Sublist.refl _, halloc⟩
    · rw [freeBlocks_append, freeBlocks_cons_free]
      exact (hperm.cons b).trans perm_middle.symm
    · rw [usedBlocks_append, usedBlocks_cons_free]

theorem free_spec {fuel : Nat} (hl : Layout a e h ps fl) (hpool : e < a + blockSize.toNat + 2 ^ 63)
    (hfuel : ps.length ≤ fuel) (hb : (b, s, false) ∈ ps) :
    ∃ h' ps' fl', h.free fuel (b + blockSize.toNat) = some (h', true) ∧ Layout a e h' ps' fl' ∧
      ((usedBlocks ps).map dataPtr).Perm
        ((b + blockSize.toNat) :: (usedBlocks ps').map dataPtr) ∧
      (ps'.map Prod.fst).Sublist (ps.map Prod.fst) := by
  obtain ⟨pre, post, rfl⟩ := append_of_mem hb
  obtain ⟨n, hn, hnsize, hnfree, -⟩ := hl.block
  obtain ⟨hpre, hpost⟩ := isChain_split.mp hl.apart
  have hpost := (isChain_cons.mp hpost).2
  have hpre := (isChain_append.mp hpre).1
  obtain ⟨h₁, hset, hl₁, halloc₁⟩ := hl.setFree hl.tiles.nodup true
  have hperm := hl.free_perm
  rw [freeBlocks_append, freeBlocks_cons_used] at hperm
  have hlen : post.length < fuel := by
    rw [length_append, length_cons] at hfuel
    omega
  obtain ⟨h₂, t, rest, fl₂, hmerge, hl₂, hperm₂, hhead, hsuffix, hused₂, halloc₂⟩ :=
    mergeNext_spec ⟨hl₁.setAllocSize (h₁.allocSize - (blockSize + s)), hl.tiles.setFree true, hpool⟩
      hperm hlen
  obtain ⟨h', ps', fl', hinsert, hl', hchain, hperm', hused', hplaces, halloc'⟩ :=
    insertMerged_spec hl₂ hperm₂ hpre (hpost.suffix hsuffix) hhead
  rw [hused₂] at hused'
  refine ⟨h', ps', fl', ?_, ⟨hl'.toLinked, hl'.tiles, hchain, hperm', ?_⟩, ?_, ?_⟩
  · have hne : b + blockSize.toNat ≠ 0 := by rw [blockSize_toNat]; omega
    unfold free
    rw [if_neg hne, Nat.add_sub_cancel]
    simp [hn, hnsize, hnfree, hset, hmerge, hinsert]
  · -- the counter had the bytes of the block
    have hbytes := hl.allocSize_eq
    have hbound := hl.tiles.usedBytes_le
    rw [usedBytes_append, usedBytes_cons_used] at hbytes hbound
    have hused : usedBytes ps' = usedBytes pre + usedBytes post := by
      rw [← usedBytes_append, usedBytes, usedBytes, hused', usedBlocks_append]
    have halloc := halloc'.trans halloc₂
    dsimp only at halloc
    have hsum : (blockSize + s).toNat = blockSize.toNat + s.toNat := by
      rw [UInt64.toNat_add]
      rw [blockSize_toNat] at *
      omega
    rw [halloc, halloc₁, UInt64.toNat_sub_of_le, hsum, hbytes, hused]
    · omega
    · rw [UInt64.le_iff_toNat_le, hsum, hbytes]
      omega
  · rw [hused']
    exact used_perm
  · refine hplaces.trans ?_
    simp only [map_append, map_cons]
    exact (Sublist.refl _).append ((hsuffix.sublist.map _).cons_cons b)

/-- The physical blocks from a block on, along the `next` links. -/
def blocksFrom (h : StaticAllocator) : (fuel : Nat) → Option Nat → List PhysBlock
  | _, none => []
  | 0, some _ => []
  | fuel + 1, some b =>
    match h.mem b with
    | none => []
    | some n => (b, n.header.getSize, n.header.getFree) :: blocksFrom h fuel n.next

theorem blocksFrom_none (h : StaticAllocator) (fuel : Nat) : h.blocksFrom fuel none = [] := by
  cases fuel <;> rfl

theorem blocksFrom_eq {b : Option Nat} {fuel : Nat} (hlinked : Dlseg physLinks h.mem b ps none)
    (hfuel : ps.length ≤ fuel) : h.blocksFrom fuel (firstOr ps none) = ps := by
  induction ps generalizing b fuel with
  | nil => exact h.blocksFrom_none fuel
  | cons x ps ih =>
    obtain ⟨p, d⟩ := x
    obtain ⟨fuel, rfl⟩ := Nat.exists_eq_add_one.mpr (Nat.zero_lt_of_lt hfuel)
    obtain ⟨⟨n, hn, rfl, -, hnext⟩, htail⟩ := hlinked
    have hnext : n.next = firstOr ps none := hnext
    simp only [firstOr_cons, blocksFrom, hn, hnext, ih htail (Nat.le_of_succ_le_succ hfuel)]
    rfl

end StaticAllocator

namespace Pool

open StaticAllocator

variable {s : Pool}

/-- The first block is behind the header of the allocator. -/
def firstBlock (s : Pool) : Nat := s.memory + allocatorSize.toNat

/-- The physical blocks of a pool. -/
def blocks (s : Pool) : List PhysBlock := s.allocator.blocksFrom s.size.toNat (some s.firstBlock)

/-- The end of the last block. -/
def stop (s : Pool) : Nat := s.firstBlock + blockSize.toNat + (s.size.toNat - 64) % 2 ^ 63

/-- The blocks are in the pool, aligned, and the live pointers are those of the allocated blocks. -/
structure InPlace (s : Pool) : Prop where
  headers : 64 ≤ s.size.toNat
  layout : ∃ fl, Layout s.firstBlock s.stop s.allocator s.blocks fl
  live : s.live.Perm ((usedBlocks s.blocks).map dataPtr)
  aligned : Aligned s.firstBlock s.blocks

theorem stop_le (hsize : 64 ≤ s.size.toNat) : s.stop ≤ s.memory + s.size.toNat := by
  have hallocator : allocatorSize.toNat = 24 := rfl
  rw [stop, firstBlock, hallocator, blockSize_toNat]
  omega

theorem stop_lt (s : Pool) : s.stop < s.firstBlock + blockSize.toNat + 2 ^ 63 := by
  have hmod : (s.size.toNat - 64) % 2 ^ 63 < 2 ^ 63 := Nat.mod_lt _ (by decide)
  rw [stop]
  omega

/-- A block has a header, so there are fewer blocks than bytes. -/
theorem length_le_size {ps : List PhysBlock} {fl : List Nat} (hsize : 64 ≤ s.size.toNat)
    (hl : Layout s.firstBlock s.stop s.allocator ps fl) : ps.length ≤ s.size.toNat := by
  have hle := hl.tiles.le
  have hstop := stop_le hsize
  rw [blockSize_toNat, firstBlock] at hle
  omega

theorem blocks_eq {ps : List PhysBlock} {fl : List Nat} (hsize : 64 ≤ s.size.toNat)
    (hl : Layout s.firstBlock s.stop s.allocator ps fl) : s.blocks = ps := by
  have hfirst : firstOr ps none = some s.firstBlock := by
    cases ps with
    | nil =>
      have hempty : s.firstBlock = s.stop := hl.tiles
      rw [stop, blockSize_toNat] at hempty
      omega
    | cons x ps => exact congrArg some hl.tiles.1
  rw [blocks, ← hfirst]
  exact blocksFrom_eq hl.phys (length_le_size hsize hl)

theorem InPlace.of_layout {ps : List PhysBlock} {fl : List Nat} (hsize : 64 ≤ s.size.toNat)
    (hl : Layout s.firstBlock s.stop s.allocator ps fl)
    (hlive : s.live.Perm ((usedBlocks ps).map dataPtr)) (haligned : Aligned s.firstBlock ps) :
    s.InPlace ∧ s.blocks = ps := by
  have hblocks := blocks_eq hsize hl
  exact ⟨⟨hsize, ⟨fl, hblocks ▸ hl⟩, hblocks ▸ hlive, hblocks ▸ haligned⟩, hblocks⟩

/-- A new pool has one block, which is free. Its header has 63 bits for the size of the data. -/
theorem new_layout {memory : Nat} {size : UInt64} (hnew : Pool.new memory size = some s) :
    s.memory = memory ∧ s.size = size ∧ s.live = [] ∧ 64 ≤ size.toNat ∧
      ∃ data : UInt64, data.toNat = (size.toNat - 64) % 2 ^ 63 ∧
        Layout (memory + allocatorSize.toNat)
          (memory + allocatorSize.toNat + blockSize.toNat + data.toNat) s.allocator
          [(memory + allocatorSize.toNat, data, true)] [memory + allocatorSize.toNat] := by
  unfold Pool.new newStaticAllocator at hnew
  split at hnew
  · cases hnew
  split at hnew
  · cases hnew
  cases hnew
  rename_i hfits
  have hheaders : (allocatorSize + blockSize).toNat = 64 := rfl
  rw [UInt64.lt_iff_toNat_lt, hheaders] at hfits
  have hrest : (size - allocatorSize - blockSize).toNat = size.toNat - 64 := by
    have hallocator : allocatorSize.toNat = 24 := rfl
    have hlt := size.toNat_lt
    rw [UInt64.toNat_sub, UInt64.toNat_sub, hallocator, blockSize_toNat]
    omega
  set rest := size - allocatorSize - blockSize
  let n : Block := ⟨BlockHeader.setFree (BlockHeader.setSize 0 rest) true, none, none, none, none⟩
  have hn : Function.update (fun _ => none) (memory + allocatorSize.toNat) (some n)
      (memory + allocatorSize.toNat) = some n := Function.update_self ..
  refine ⟨rfl, rfl, rfl, Nat.le_of_not_lt hfits, n.header.getSize, ?_,
    ⟨⟨⟨n, hn, Prod.ext rfl ?_, rfl, rfl⟩, trivial⟩, rfl,
      ⟨⟨n, hn, rfl, rfl, rfl⟩, trivial⟩, nodup_singleton _⟩, ⟨rfl, rfl⟩,
      isChain_singleton _, Perm.refl _, rfl⟩
  · rw [BlockHeader.getSize_setFree, BlockHeader.toNat_getSize, BlockHeader.toNat_setSize, hrest]
    omega
  · exact BlockHeader.getFree_setFree _ _

theorem inPlace_new {memory : Nat} {size : UInt64} (hnew : Pool.new memory size = some s) :
    s.InPlace := by
  obtain ⟨rfl, rfl, hlive, hsize, data, hdata, hl⟩ := new_layout hnew
  rw [hdata] at hl
  refine (InPlace.of_layout hsize hl (hlive ▸ List.Perm.refl _) fun x hx => ?_).1
  rw [List.map_singleton, List.mem_singleton] at hx
  rw [hx]
  rfl

/-- What `Malloc` does to a pool. -/
theorem InPlace.malloc (hs : s.InPlace) (size : UInt64) :
    ∃ s' r, s.malloc size = some (s', r) ∧ s'.InPlace ∧ s'.size = s.size ∧ s'.memory = s.memory ∧
      s'.live = r.toList ++ s.live ∧
      (∀ p, r = some p → ∃ b t, (b, t, false) ∈ s'.blocks ∧ p = b + blockSize.toNat ∧
        roundUp size ≤ t) ∧
      (r = none ↔ size = 0 ∨ ∀ x ∈ s.blocks, x.2.2 = true → x.2.1 < roundUp size) := by
  obtain ⟨fl, hl⟩ := hs.layout
  obtain ⟨h', r, ps', fl', hmalloc, hl', hused, haligned, hroom, hnone⟩ :=
    malloc_spec hl s.stop_lt (length_le_size hs.headers hl) size
  let s' : Pool := { s with allocator := h', live := r.toList ++ s.live }
  have hlive : s'.live.Perm ((usedBlocks ps').map dataPtr) :=
    (hs.live.append_left _).trans hused.symm
  obtain ⟨hs', hblocks⟩ := InPlace.of_layout (s := s') hs.headers hl' hlive (haligned hs.aligned)
  refine ⟨s', r, ?_, hs', rfl, rfl, rfl, hblocks ▸ hroom, hnone⟩
  simp [Pool.malloc, hmalloc, s']

/-- What `Free` of a live pointer does to a pool. -/
theorem InPlace.free (hs : s.InPlace) {p : Nat} (hp : p ∈ s.live) :
    ∃ s', s.free p = some (s', true) ∧ s'.InPlace ∧ s'.live = s.live.erase p ∧ s'.size = s.size ∧
      s'.memory = s.memory := by
  obtain ⟨fl, hl⟩ := hs.layout
  obtain ⟨⟨b, t, f⟩, hmem, rfl⟩ := List.mem_map.mp (hs.live.mem_iff.mp hp)
  obtain ⟨hmem, hused⟩ := List.mem_filter.mp hmem
  obtain rfl : f = false := by simpa using hused
  obtain ⟨h', ps', fl', hfree, hl', hused, hplaces⟩ :=
    free_spec hl s.stop_lt (length_le_size hs.headers hl) hmem
  let s' : Pool := { s with allocator := h', live := s.live.erase (dataPtr (b, t, false)) }
  have hlive : s'.live.Perm ((usedBlocks ps').map dataPtr) := by
    have herase := (hs.live.trans hused).erase (dataPtr (b, t, false))
    have hhead : dataPtr (b, t, false) = b + blockSize.toNat := rfl
    rwa [hhead, List.erase_cons_head] at herase
  obtain ⟨hs', -⟩ := InPlace.of_layout (s := s') hs.headers hl' hlive (hs.aligned.mono hplaces)
  refine ⟨s', ?_, hs', rfl, rfl, rfl⟩
  have hptr : dataPtr (b, t, false) = b + blockSize.toNat := rfl
  simp [Pool.free, hptr, hfree, s']

theorem InPlace.step (hs : s.InPlace) (ev : PoolEvent) :
    ∃ s', s.step ev = some s' ∧ s'.InPlace ∧ s'.memory = s.memory ∧ s'.size = s.size := by
  cases ev with
  | malloc size =>
    obtain ⟨s', r, hmalloc, hs', hsize, hmemory, -⟩ := hs.malloc size
    exact ⟨s', by simp [Pool.step, hmalloc], hs', hmemory, hsize⟩
  | free p =>
    by_cases hp : p ∈ s.live
    · obtain ⟨s', hfree, hs', -, hsize, hmemory⟩ := hs.free hp
      exact ⟨s', by simp [Pool.step, hp, hfree], hs', hmemory, hsize⟩
    · exact ⟨s, if_neg hp, hs, rfl, rfl⟩

theorem InPlace.run (hs : s.InPlace) (es : List PoolEvent) :
    ∃ s', s.run es = some s' ∧ s'.InPlace ∧ s'.memory = s.memory ∧ s'.size = s.size := by
  induction es generalizing s with
  | nil => exact ⟨s, rfl, hs, rfl, rfl⟩
  | cons ev es ih =>
    obtain ⟨s₁, hstep, hs₁, hmemory₁, hsize₁⟩ := hs.step ev
    obtain ⟨s', hrun, hs', hmemory, hsize⟩ := ih hs₁
    refine ⟨s', ?_, hs', hmemory.trans hmemory₁, hsize.trans hsize₁⟩
    simp only [Pool.run, hstep, Option.bind_eq_bind, Option.bind_some]
    exact hrun

/-- Every sequence of calls on a new pool has a result. Its blocks tile the pool, no two adjacent
ones are free, the free list has exactly the free ones, and the counter is right. -/
theorem pool_layout {memory : Nat} {size : UInt64} (hsize : size.toNat < 2 ^ 63)
    (hnew : Pool.new memory size = some s) (es : List PoolEvent) :
    ∃ s' ps fl, s.run es = some s' ∧
      Dlseg physLinks s'.allocator.mem none ps none ∧
      Tiles (memory + allocatorSize.toNat) ps (memory + size.toNat) ∧
      ps.IsChain Apart ∧
      FreeList s'.allocator fl ∧ fl.Perm (freeBlocks ps) ∧
      s'.allocator.allocSize.toNat = allocatorSize.toNat + usedBytes ps ∧
      s'.live.Perm ((usedBlocks ps).map dataPtr) := by
  obtain ⟨rfl, rfl, -⟩ := new_layout hnew
  obtain ⟨s', hrun, hs', hmemory, hsize'⟩ := (inPlace_new hnew).run es
  obtain ⟨fl, hl⟩ := hs'.layout
  have hstop : s'.stop = s.memory + s.size.toNat := by
    have hheaders := hsize' ▸ hs'.headers
    have hallocator : allocatorSize.toNat = 24 := rfl
    rw [stop, firstBlock, hmemory, hsize', hallocator, blockSize_toNat]
    omega
  rw [hstop, firstBlock, hmemory] at hl
  exact ⟨s', s'.blocks, fl, hrun, hl.phys, hl.tiles, hl.apart, hl.free, hl.free_perm,
    hl.allocSize_eq, hs'.live⟩

/-- In a pool of 512 bytes: three allocations, of which the second is freed, then the first, which
merges the two. -/
def mergingCalls : List PoolEvent :=
  [.malloc 16, .malloc 8, .malloc 100, .free 4216, .free 4160, .malloc 300]

theorem pool_layout_mergingCalls : ∃ s, Pool.new 4096 512 = some s ∧
    (s.run mergingCalls).map Pool.live = some [4264] ∧
    ∃ s' ps fl, s.run mergingCalls = some s' ∧
      Dlseg physLinks s'.allocator.mem none ps none ∧
      Tiles (4096 + allocatorSize.toNat) ps (4096 + (512 : UInt64).toNat) ∧
      ps.IsChain Apart ∧
      FreeList s'.allocator fl ∧ fl.Perm (freeBlocks ps) ∧
      s'.allocator.allocSize.toNat = allocatorSize.toNat + usedBytes ps ∧
      s'.live.Perm ((usedBlocks ps).map dataPtr) :=
  ⟨_, rfl, by decide +kernel, pool_layout (by decide) rfl mergingCalls⟩

end Pool

end Halo
