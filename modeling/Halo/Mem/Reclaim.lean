import Halo.Mem.Capacity

/-!
# The reclamation of a pool

When no pointer is live, all blocks are free; since no two adjacent blocks are free there is only
one, and it fills the pool (`InPlace.single`). So the order in which the live pointers are freed
does not matter.
-/

namespace Halo.Pool

open StaticAllocator

variable {s : Pool}

/-- `Free` of several pointers, one after the other, with the results. -/
def freeEach (s : Pool) : List Nat → Option (Pool × List Bool)
  | [] => some (s, [])
  | p :: ps => do
    let (s, freed) ← s.free p
    let (s, rest) ← freeEach s ps
    return (s, freed :: rest)

/-- The pool is one free block that fills it. -/
structure Fresh (s : Pool) : Prop where
  blocks : ∃ data : UInt64, s.blocks = [(s.firstBlock, data, true)] ∧
    data.toNat = (s.size.toNat - 64) % 2 ^ 63
  freeList : FreeList s.allocator [s.firstBlock]
  allocSize : s.allocator.allocSize = allocatorSize

/-- All live pointers can be freed, in any order. -/
theorem InPlace.freeEach (hs : s.InPlace) {ps : List Nat} (hps : ps.Perm s.live) :
    ∃ s', s.freeEach ps = some (s', ps.map fun _ => true) ∧ s'.InPlace ∧ s'.live = [] ∧
      s'.size = s.size ∧ s'.memory = s.memory := by
  induction ps generalizing s with
  | nil => exact ⟨s, rfl, hs, List.Perm.nil_eq hps |>.symm, rfl, rfl⟩
  | cons p ps ih =>
    obtain ⟨s₁, hfree, hs₁, hlive₁, hsize₁, hmemory₁⟩ := hs.free (hps.subset List.mem_cons_self)
    have hrest : ps.Perm s₁.live := by
      have herase := hps.erase p
      rwa [List.erase_cons_head, ← hlive₁] at herase
    obtain ⟨s', hrun, hs', hlive', hsize', hmemory'⟩ := ih hs₁ hrest
    refine ⟨s', ?_, hs', hlive', hsize'.trans hsize₁, hmemory'.trans hmemory₁⟩
    simp [Pool.freeEach, hfree, hrun]

theorem usedBlocks_eq_nil {ps : List PhysBlock} (h : usedBlocks ps = []) {x : PhysBlock}
    (hx : x ∈ ps) : x.2.2 = true := by
  by_contra hused
  have hmem : x ∈ usedBlocks ps := List.mem_filter.mpr ⟨hx, by simpa using hused⟩
  rw [h] at hmem
  cases hmem

/-- Without live pointers a pool is one free block. -/
theorem InPlace.single (hs : s.InPlace) (hlive : s.live = []) : s.Fresh := by
  obtain ⟨fl, hl⟩ := hs.layout
  have hused : usedBlocks s.blocks = [] := by
    have hperm := hs.live
    rw [hlive] at hperm
    exact List.map_eq_nil_iff.mp hperm.nil_eq.symm
  have hfree : ∀ x ∈ s.blocks, x.2.2 = true := fun x hx => usedBlocks_eq_nil hused hx
  -- there is a block, and there are not two
  obtain ⟨data, hblocks⟩ : ∃ data, s.blocks = [(s.firstBlock, data, true)] := by
    have htiles := hl.tiles
    have hchain := hl.apart
    generalize s.blocks = blocks at htiles hchain hfree
    match blocks, htiles with
    | [], hempty =>
      have hempty : s.firstBlock = s.stop := hempty
      rw [stop, blockSize_toNat] at hempty
      omega
    | [(b, data, f)], htiles =>
      obtain rfl : f = true := hfree _ List.mem_cons_self
      exact ⟨data, by rw [htiles.1]⟩
    | x :: y :: rest, _ =>
      have hapart : Apart x y := (List.isChain_cons_cons.mp hchain).1
      exact absurd ⟨hfree x (by simp), hfree y (by simp)⟩ hapart
  rw [hblocks] at hl
  refine ⟨⟨data, hblocks, ?_⟩, ?_, ?_⟩
  · have htiles : s.firstBlock + blockSize.toNat + data.toNat = s.stop := hl.tiles.2
    rw [stop] at htiles
    omega
  · have hperm : fl.Perm [s.firstBlock] := hl.free_perm
    have hfl := hl.free
    rwa [List.perm_singleton.mp hperm] at hfl
  · rw [← UInt64.toNat_inj, hl.allocSize_eq]
    rfl

theorem Fresh.blocks_eq {s' : Pool} (h : s.Fresh) (h' : s'.Fresh) (hsize : s'.size = s.size)
    (hmemory : s'.memory = s.memory) : s'.blocks = s.blocks := by
  obtain ⟨data, hblocks, hdata⟩ := h.blocks
  obtain ⟨data', hblocks', hdata'⟩ := h'.blocks
  have hsame : data' = data := by
    rw [← UInt64.toNat_inj, hdata, hdata', hsize]
  rw [hblocks, hblocks', hsame, firstBlock, firstBlock, hmemory]

/-- After any calls the live pointers can be freed in any order: each `Free` returns true, and then
the pool is the one free block that it was at first. A request is served then just if it was served
at first. -/
theorem full_reclamation {memory : Nat} {size : UInt64} (hnew : Pool.new memory size = some s)
    (es : List PoolEvent) :
    ∃ s', s.run es = some s' ∧ ∀ order, order.Perm s'.live →
      ∃ s'', s'.freeEach order = some (s'', order.map fun _ => true) ∧ s.Fresh ∧ s''.Fresh ∧
        s''.blocks = s.blocks ∧ s''.live = [] ∧
        ∀ request, ∃ t r t' r', s.malloc request = some (t, r) ∧
          s''.malloc request = some (t', r') ∧ (r'.isSome ↔ r.isSome) := by
  have hs := inPlace_new hnew
  obtain ⟨-, -, hlive, -⟩ := new_layout hnew
  obtain ⟨s', hrun, hs', hmemory', hsize'⟩ := hs.run es
  refine ⟨s', hrun, fun order horder => ?_⟩
  obtain ⟨s'', hfree, hs'', hlive'', hsize'', hmemory''⟩ := hs'.freeEach horder
  have hfresh := hs.single hlive
  have hfresh'' := hs''.single hlive''
  have hblocks := hfresh.blocks_eq hfresh'' (hsize''.trans hsize') (hmemory''.trans hmemory')
  refine ⟨s'', hfree, hfresh, hfresh'', hblocks, hlive'', fun request => ?_⟩
  obtain ⟨t, r, hmalloc, -, -, -, -, -, hnone⟩ := hs.malloc request
  obtain ⟨t', r', hmalloc', -, -, -, -, -, hnone'⟩ := hs''.malloc request
  refine ⟨t, r, t', r', hmalloc, hmalloc', ?_⟩
  rw [hblocks] at hnone'
  rw [← not_iff_not, Option.not_isSome_iff_eq_none, Option.not_isSome_iff_eq_none, hnone, hnone']

/-- In a pool of 512 bytes, with two live pointers freed in either order. -/
theorem full_reclamation_mergingCalls : ∃ s, Pool.new 4096 512 = some s ∧
    (s.run (mergingCalls ++ [.malloc 8])).map Pool.live = some [4160, 4264] ∧
    ∃ s', s.run (mergingCalls ++ [.malloc 8]) = some s' ∧ ∀ order, order.Perm s'.live →
      ∃ s'', s'.freeEach order = some (s'', order.map fun _ => true) ∧ s.Fresh ∧ s''.Fresh ∧
        s''.blocks = s.blocks ∧ s''.live = [] ∧
        ∀ request, ∃ t r t' r', s.malloc request = some (t, r) ∧
          s''.malloc request = some (t', r') ∧ (r'.isSome ↔ r.isSome) :=
  ⟨_, rfl, by decide +kernel, full_reclamation (show Pool.new 4096 512 = some _ from rfl) _⟩

end Halo.Pool
