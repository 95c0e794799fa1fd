import Halo.Base.Bytes
import Halo.Mem.StaticAllocator

/-!
# Block headers and the free list

* `BlockHeader.getSize_setFree` and its companions: the two parts of a block header are independent.
* `FreeList h fl`: the free list of the allocator has the blocks `fl`.
* `insertFreeBlock_spec`, `removeFreeBlock_spec`: the two operations return, change the list as
  their names say, and leave the physical links, the sizes and the flags of all blocks as they are
  (`SamePhys`).
* `firstFit_spec`: the search returns a block of the list that is large enough, or none.
-/

namespace Halo

namespace BlockHeader

theorem toNat_getSize (h : BlockHeader) : h.getSize.toNat = h.toNat % 2 ^ 63 := by
  unfold getSize sizeMask
  rw [UInt64.toNat_and]
  exact Nat.and_two_pow_sub_one_eq_mod h.toNat 63

theorem toNat_and_freeBit (h : BlockHeader) :
    (h &&& freeBit).toNat = 2 ^ 63 * (h.toNat / 2 ^ 63) := by
  have hlt := h.toNat_lt
  unfold freeBit
  rw [UInt64.toNat_and]
  change h.toNat &&& 2 ^ 63 = _
  rw [Nat.and_two_pow, Nat.testBit_eq_decide_div_mod_eq]
  have hq : h.toNat / 2 ^ 63 < 2 := by omega
  rw [Nat.mod_eq_of_lt hq]
  interval_cases h.toNat / 2 ^ 63 <;> rfl

theorem getFree_eq (h : BlockHeader) : h.getFree = decide (h.toNat / 2 ^ 63 = 1) := by
  unfold getFree
  rw [Bool.eq_iff_iff, beq_iff_eq, decide_eq_true_eq, ← UInt64.toNat_inj]
  rw [UInt64.toNat_shiftRight, Nat.shiftRight_eq_div_pow]
  rfl

theorem toNat_setFree (h : BlockHeader) (free : Bool) :
    (h.setFree free).toNat = 2 ^ 63 * free.toNat + h.toNat % 2 ^ 63 := by
  unfold setFree
  have hsize := toNat_getSize h
  unfold getSize at hsize
  rw [UInt64.toNat_or, hsize, Nat.two_pow_add_eq_or_of_lt (Nat.mod_lt _ (by decide))]
  cases free <;> rfl

theorem toNat_setSize (h : BlockHeader) (size : UInt64) :
    (h.setSize size).toNat = 2 ^ 63 * (h.toNat / 2 ^ 63) + size.toNat % 2 ^ 63 := by
  unfold setSize
  have hsize := toNat_getSize size
  unfold getSize at hsize
  rw [UInt64.toNat_or, hsize, toNat_and_freeBit,
    Nat.two_pow_add_eq_or_of_lt (Nat.mod_lt _ (by decide))]

@[simp] theorem getSize_setFree (h : BlockHeader) (free : Bool) :
    (h.setFree free).getSize = h.getSize := by
  rw [← UInt64.toNat_inj, toNat_getSize, toNat_getSize, toNat_setFree]
  omega

@[simp] theorem getFree_setFree (h : BlockHeader) (free : Bool) :
    (h.setFree free).getFree = free := by
  have hmod : h.toNat % 2 ^ 63 < 2 ^ 63 := Nat.mod_lt _ (by decide)
  rw [getFree_eq, toNat_setFree]
  cases free
  · simp only [Bool.toNat_false, decide_eq_false_iff_not]
    omega
  · simp only [Bool.toNat_true, decide_eq_true_eq]
    omega

theorem getSize_setSize (h : BlockHeader) {size : UInt64} (hsize : size.toNat < 2 ^ 63) :
    (h.setSize size).getSize = size := by
  rw [← UInt64.toNat_inj, toNat_getSize, toNat_setSize]
  omega

@[simp] theorem getFree_setSize (h : BlockHeader) (size : UInt64) :
    (h.setSize size).getFree = h.getFree := by
  have hmod : size.toNat % 2 ^ 63 < 2 ^ 63 := Nat.mod_lt _ (by decide)
  rw [getFree_eq, getFree_eq, toNat_setSize]
  congr 2
  omega

end BlockHeader

/-- The free list links of a block, which have no payload. -/
def freeLinks : Links Block Unit where
  next := Block.freeNext
  prev := Block.freePrev
  data _ := ()

/-- The physical links of a block; the payload is the size and the free flag. -/
def physLinks : Links Block (UInt64 × Bool) where
  next := Block.next
  prev := Block.prev
  data n := (n.header.getSize, n.header.getFree)

/-- Addresses as the nodes of a list without payload. -/
abbrev nodes (fl : List Nat) : List (Nat × Unit) := fl.map fun p => (p, ())

@[simp] theorem map_fst_nodes (fl : List Nat) : (nodes fl).map Prod.fst = fl := by
  simp [Function.comp_def]

namespace StaticAllocator

variable {h h' h'' : StaticAllocator}

/-- The free list has the blocks `fl`. -/
structure FreeList (h : StaticAllocator) (fl : List Nat) : Prop where
  head : h.freeBlockList = firstOr (nodes fl) none
  linked : Dlseg freeLinks h.mem none (nodes fl) none
  nodup : fl.Nodup

/-- Every block of `h` is one of `h'` with the same header and physical links. -/
def SamePhys (h h' : StaticAllocator) : Prop :=
  ∀ p n, h.mem p = some n → ∃ n', h'.mem p = some n' ∧ n'.header = n.header ∧ n'.next = n.next ∧
    n'.prev = n.prev

/-- Every block of `h` is one of `h'` with the same links of the free list. -/
def SameFree (h h' : StaticAllocator) : Prop :=
  ∀ p n, h.mem p = some n → ∃ n', h'.mem p = some n' ∧ n'.freeNext = n.freeNext ∧
    n'.freePrev = n.freePrev

theorem SamePhys.trans (h₁ : SamePhys h h') (h₂ : SamePhys h' h'') : SamePhys h h'' := by
  intro p n hn
  obtain ⟨n', hn', e1, e2, e3⟩ := h₁ p n hn
  obtain ⟨n'', hn'', e1', e2', e3'⟩ := h₂ p n' hn'
  exact ⟨n'', hn'', e1'.trans e1, e2'.trans e2, e3'.trans e3⟩

theorem SameFree.trans (h₁ : SameFree h h') (h₂ : SameFree h' h'') : SameFree h h'' := by
  intro p n hn
  obtain ⟨n', hn', e1, e2⟩ := h₁ p n hn
  obtain ⟨n'', hn'', e1', e2'⟩ := h₂ p n' hn'
  exact ⟨n'', hn'', e1'.trans e1, e2'.trans e2⟩

variable {b : Option Nat} {fl : List Nat} {f : Block → Block} {q p : Nat} {n : Block}

theorem SamePhys.linked (hsame : SamePhys h h') {a : Option Nat} {ps : List (Nat × (UInt64 × Bool))}
    (hs : Dlseg physLinks h.mem b ps a) : Dlseg physLinks h'.mem b ps a := by
  refine hs.congrView fun p _ n hn => ?_
  obtain ⟨n', hn', hheader, hnext, hprev⟩ := hsame p n hn
  refine ⟨n', hn', hnext, hprev, ?_⟩
  change (n'.header.getSize, n'.header.getFree) = (n.header.getSize, n.header.getFree)
  rw [hheader]

/-- The free list depends on its links only. -/
theorem FreeList.congr (hfl : FreeList h fl) (hsame : SameFree h h')
    (hhead : h'.freeBlockList = h.freeBlockList) : FreeList h' fl := by
  refine ⟨hhead.trans hfl.head, hfl.linked.congrView fun p _ n hn => ?_, hfl.nodup⟩
  obtain ⟨n', hn', hnext, hprev⟩ := hsame p n hn
  exact ⟨n', hn', hnext, hprev, rfl⟩

/-! ## Writes -/

/-- The allocator after a write to the header of the block at `p`, if there is one. -/
def setAt (h : StaticAllocator) (p : Option Nat) (f : Block → Block) : StaticAllocator :=
  { h with mem := h.mem.modifyAt p f }

@[simp] theorem allocSize_setAt (p : Option Nat) (f : Block → Block) :
    (h.setAt p f).allocSize = h.allocSize := rfl

@[simp] theorem freeBlockList_setAt (p : Option Nat) (f : Block → Block) :
    (h.setAt p f).freeBlockList = h.freeBlockList := rfl

theorem mem_setAt (p : Option Nat) (f : Block → Block) :
    (h.setAt p f).mem = h.mem.modifyAt p f := rfl

/-- A write keeps every block; the written one gets the new fields. -/
theorem mem_setAt_some {p : Option Nat}
    (hn : h.mem q = some n) : (h.setAt p f).mem q = some (if p = some q then f n else n) := by
  rw [mem_setAt]
  by_cases hq : p = some q
  · rw [hq, Heap.modifyAt_self f hn, Function.update_self, if_pos rfl]
  · rw [Heap.modifyAt_of_ne f hq, hn, if_neg hq]

theorem mem_setAt_of_ne {p : Option Nat} (hq : p ≠ some q) : (h.setAt p f).mem q = h.mem q :=
  Heap.modifyAt_of_ne f hq

theorem mem_setAt_self (hn : h.mem q = some n) : (h.setAt (some q) f).mem q = some (f n) := by
  rw [mem_setAt_some hn, if_pos rfl]

theorem modify_eq {b : Nat} (hn : h.mem b = some n) (f : Block → Block) :
    h.modify b f = some (h.setAt (some b) f) := by
  unfold setAt
  rw [Heap.modifyAt_self f hn]
  simp [modify, hn]

theorem modifyOpt_eq (hb : ∀ q, b = some q → ∃ n, h.mem q = some n)
    (f : Block → Block) : h.modifyOpt b f = some (h.setAt b f) := by
  cases b with
  | none => rfl
  | some q =>
    obtain ⟨n, hn⟩ := hb q rfl
    exact modify_eq hn f

theorem samePhys_setAt (h : StaticAllocator) (p : Option Nat)
    (hf : ∀ n, (f n).header = n.header ∧ (f n).next = n.next ∧ (f n).prev = n.prev) :
    SamePhys h (h.setAt p f) := by
  intro q n hn
  refine ⟨_, mem_setAt_some hn, ?_⟩
  split
  · exact hf n
  · exact ⟨rfl, rfl, rfl⟩

theorem sameFree_setAt (h : StaticAllocator) (p : Option Nat)
    (hf : ∀ n, (f n).freeNext = n.freeNext ∧ (f n).freePrev = n.freePrev) :
    SameFree h (h.setAt p f) := by
  intro q n hn
  refine ⟨_, mem_setAt_some hn, ?_⟩
  split
  · exact hf n
  · exact ⟨rfl, rfl⟩

/-- The head pointer is not part of a block. -/
theorem SamePhys.setHead (hsame : SamePhys h h') (l : Option Nat) :
    SamePhys h { h' with freeBlockList := l } := hsame

/-- The blocks of the free list are there. -/
theorem FreeList.mem (hfl : FreeList h fl) (hp : p ∈ fl) : ∃ n, h.mem p = some n := by
  obtain ⟨n, hn, -⟩ := hfl.linked.mem (p := p) (d := ()) (List.mem_map_of_mem hp)
  exact ⟨n, hn⟩

theorem firstOr_nodes_mem (hp : firstOr (nodes fl) none = some p) : p ∈ fl := by
  by_contra hmem
  exact firstOr_ne (by rwa [map_fst_nodes]) hp

/-! ## The operations -/

theorem insertFreeBlock_spec {b : Nat} (hfl : FreeList h fl) (hb : b ∉ fl) (hn : h.mem b = some n) :
    ∃ h', h.insertFreeBlock b = some h' ∧ FreeList h' (b :: fl) ∧ SamePhys h h' ∧
      h'.allocSize = h.allocSize := by
  have hne : h.freeBlockList ≠ some b := fun he => hb (firstOr_nodes_mem (hfl.head.symm.trans he))
  let f₁ : Block → Block := fun x => { x with freeNext := h.freeBlockList }
  let f₂ : Block → Block := fun x => { x with freePrev := some b }
  let f₃ : Block → Block := fun x => { x with freePrev := none }
  let h₁ := h.setAt (some b) f₁
  let h₂ := h₁.setAt h.freeBlockList f₂
  have hb₁ : h₁.mem b = some (f₁ n) := mem_setAt_self hn
  have hb₂ : h₂.mem b = some (f₁ n) := (mem_setAt_of_ne hne).trans hb₁
  have hsome : ∀ q, h.freeBlockList = some q → ∃ x, h₁.mem q = some x := by
    intro q hq
    obtain ⟨x, hx⟩ := hfl.mem (firstOr_nodes_mem (hfl.head.symm.trans hq))
    exact ⟨_, mem_setAt_some hx⟩
  refine ⟨{ h₂.setAt (some b) f₃ with freeBlockList := some b }, ?_, ⟨rfl, ?_, ?_⟩, ?_, rfl⟩
  · unfold insertFreeBlock
    rw [modify_eq hn]
    change (h₁.modifyOpt h.freeBlockList f₂ >>= _) = _
    rw [modifyOpt_eq hsome]
    change (h₂.modify b f₃ >>= _) = _
    rw [modify_eq hb₂]
    rfl
  · change Dlseg freeLinks (h₂.mem.modifyAt (some b) f₃) none ((b, ()) :: nodes fl) none
    have hout : ∀ q ∈ (nodes fl).map Prod.fst, some b ≠ some q := by
      rintro q hq ⟨⟩
      exact hb (map_fst_nodes fl ▸ hq)
    have hold : Dlseg freeLinks h₁.mem none (nodes fl) none :=
      hfl.linked.modifyAt (p := some b) (f := f₁) hout
    have hh₂ : h₂.mem = h₁.mem.modifyAt (firstOr (nodes fl) none) f₂ := by rw [← hfl.head]; rfl
    rw [Heap.modifyAt_self f₃ hb₂, hh₂]
    refine hold.push ?_ ?_ rfl rfl hfl.head fun x => ⟨rfl, rfl, rfl⟩
    · rw [map_fst_nodes]
      exact hfl.nodup
    · rw [map_fst_nodes]
      exact hb
  · exact List.nodup_cons.mpr ⟨hb, hfl.nodup⟩
  · have e₁ : SamePhys h h₁ := samePhys_setAt h _ fun x => ⟨rfl, rfl, rfl⟩
    have e₂ : SamePhys h₁ h₂ := samePhys_setAt h₁ _ fun x => ⟨rfl, rfl, rfl⟩
    have e₃ : SamePhys h₂ (h₂.setAt (some b) f₃) := samePhys_setAt h₂ _ fun x => ⟨rfl, rfl, rfl⟩
    exact ((e₁.trans e₂).trans e₃).setHead _

theorem bypass_eq {pre post : List Nat} {b : Nat} (hfl : FreeList h (pre ++ b :: post))
    (hprev : n.freePrev = lastOr none (nodes pre))
    (hnext : n.freeNext = firstOr (nodes post) none) :
    h.bypass n = some { h.setAt (lastOr none (nodes pre))
      (fun x => { x with freeNext := firstOr (nodes post) none }) with
      freeBlockList := firstOr (nodes (pre ++ post)) none } := by
  unfold bypass
  rw [hprev, hnext]
  rcases List.eq_nil_or_concat' pre with rfl | ⟨init, p, rfl⟩
  · rfl
  · obtain ⟨x, hx⟩ := hfl.mem (p := p) (by simp)
    have hlast : lastOr none (nodes (init ++ [p])) = some p := by
      rw [nodes, List.map_append]
      exact lastOr_concat none _ _
    have hhead : h.freeBlockList = firstOr (nodes ((init ++ [p]) ++ post)) none := by
      rw [hfl.head]
      cases init <;> rfl
    rw [hlast, ← hhead]
    exact modify_eq hx _

theorem removeFreeBlock_spec {pre post : List Nat} {b : Nat} (hfl : FreeList h (pre ++ b :: post)) :
    ∃ h', h.removeFreeBlock b = some h' ∧ FreeList h' (pre ++ post) ∧ SamePhys h h' ∧
      h'.allocSize = h.allocSize := by
  have hnodup := hfl.nodup
  obtain ⟨hbn, hrest⟩ := List.nodup_cons.mp (List.perm_middle.nodup_iff.mp hnodup)
  rw [List.mem_append, not_or] at hbn
  have hnodes : nodes (pre ++ b :: post) = nodes pre ++ (b, ()) :: nodes post := by simp
  have hlinked := hfl.linked
  rw [hnodes] at hlinked
  obtain ⟨n, hn, -, hprev, hnext⟩ := hlinked.node
  have hprev : n.freePrev = lastOr none (nodes pre) := hprev
  have hnext : n.freeNext = firstOr (nodes post) none := hnext
  let f₁ : Block → Block := fun x => { x with freeNext := firstOr (nodes post) none }
  let f₂ : Block → Block := fun x => { x with freePrev := lastOr none (nodes pre) }
  let f₃ : Block → Block := fun x => { x with freeNext := none, freePrev := none }
  let h₁ : StaticAllocator := { h.setAt (lastOr none (nodes pre)) f₁ with
    freeBlockList := firstOr (nodes (pre ++ post)) none }
  let h₂ := h₁.setAt (firstOr (nodes post) none) f₂
  have hb₁ : h₁.mem b = some n :=
    (mem_setAt_of_ne (lastOr_ne (by simpa using hbn.1))).trans hn
  have hb₂ : h₂.mem b = some n :=
    (mem_setAt_of_ne fun he => hbn.2 (firstOr_nodes_mem he)).trans hb₁
  have hsome : ∀ q, firstOr (nodes post) none = some q → ∃ x, h₁.mem q = some x := by
    intro q hq
    obtain ⟨x, hx⟩ := hfl.mem (p := q) (by simp [firstOr_nodes_mem hq])
    exact ⟨_, mem_setAt_some (h := h) (p := lastOr none (nodes pre)) (f := f₁) hx⟩
  refine ⟨h₂.setAt (some b) f₃, ?_, ⟨rfl, ?_, hrest⟩, ?_, rfl⟩
  · unfold removeFreeBlock
    rw [hn]
    change (h.bypass n >>= _) = _
    rw [bypass_eq hfl hprev hnext]
    change (h₁.mem b >>= _) = _
    rw [hb₁]
    change (h₁.modifyOpt n.freeNext (fun x => { x with freePrev := n.freePrev }) >>= _) = _
    rw [hprev, hnext, modifyOpt_eq hsome]
    exact modify_eq hb₂ f₃
  · have hnew : Dlseg freeLinks h₂.mem none (nodes pre ++ nodes post) none := by
      refine hlinked.unlink ?_ (fun x => ⟨rfl, rfl, rfl⟩) fun x => ⟨rfl, rfl, rfl⟩
      rw [← hnodes, map_fst_nodes]
      exact hnodup
    have hout : ∀ q ∈ (nodes pre ++ nodes post).map Prod.fst, some b ≠ some q := by
      rintro q hq ⟨⟩
      rw [List.map_append, map_fst_nodes, map_fst_nodes, List.mem_append] at hq
      exact hq.elim hbn.1 hbn.2
    rw [nodes, List.map_append]
    exact hnew.modifyAt hout
  · have e₁ : SamePhys h (h.setAt (lastOr none (nodes pre)) f₁) :=
      samePhys_setAt h _ fun x => ⟨rfl, rfl, rfl⟩
    have e₂ : SamePhys h₁ h₂ := samePhys_setAt h₁ _ fun x => ⟨rfl, rfl, rfl⟩
    have e₃ : SamePhys h₂ (h₂.setAt (some b) f₃) := samePhys_setAt h₂ _ fun x => ⟨rfl, rfl, rfl⟩
    exact ((e₁.setHead _).trans e₂).trans e₃

/-- The search of `Malloc`. -/
theorem firstFit_spec (size : UInt64) {fuel : Nat} {mem : Heap Block}
    (hlinked : Dlseg freeLinks mem b (nodes fl) none) (hfuel : fl.length ≤ fuel) :
    ∃ r, firstFit mem size fuel (firstOr (nodes fl) none) = some r ∧
      (∀ p, r = some p → p ∈ fl ∧ ∃ n, mem p = some n ∧ ¬ n.header.getSize < size) ∧
      (r = none → ∀ p ∈ fl, ∃ n, mem p = some n ∧ n.header.getSize < size) := by
  induction fl generalizing b fuel with
  | nil =>
    refine ⟨none, by cases fuel <;> rfl, fun p hp => ?_, fun _ p hp => ?_⟩
    · cases hp
    · cases hp
  | cons q fl ih =>
    obtain ⟨fuel, rfl⟩ := Nat.exists_eq_add_one.mpr (Nat.zero_lt_of_lt hfuel)
    obtain ⟨⟨n, hn, -, -, hnext⟩, htail⟩ := hlinked
    have hnext : n.freeNext = firstOr (nodes fl) none := hnext
    by_cases hlt : n.header.getSize < size
    · obtain ⟨r, hr, hfound, hnone⟩ := ih htail (Nat.le_of_succ_le_succ hfuel)
      refine ⟨r, ?_, fun p hp => ?_, fun hrnone p hp => ?_⟩
      · simp [firstFit, hn, hlt, hnext, hr]
      · obtain ⟨hmem, hp⟩ := hfound p hp
        exact ⟨List.mem_cons_of_mem _ hmem, hp⟩
      · rcases List.mem_cons.mp hp with rfl | hp
        · exact ⟨n, hn, hlt⟩
        · exact hnone hrnone p hp
    · refine ⟨some q, by simp [firstFit, hn, hlt], fun p hp => ?_, fun hrnone => ?_⟩
      · cases hp
        exact ⟨List.mem_cons_self, n, hn, hlt⟩
      · cases hrnone

end StaticAllocator

end Halo
