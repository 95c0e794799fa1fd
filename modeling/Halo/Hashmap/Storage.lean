import Halo.Base.Blocks
import Halo.Hashmap.Refine

/-!
# The memory of hash maps

`Halo.Hashmap.Hashmap` has the entries of a map in a heap of its own. Here all blocks of a map (the
map, the list of its buckets, the array of that list, the entries) come from one allocator, which
other maps use too. The entries are freed by the loops of `Halo.Hashmap.Hashmap`, which read an
entry before they free it; a read of an entry that is not allocated has no result.

* `StoredMap`: a map with its blocks. `newHashMapWithCap`, `grow`, `set`, `del`, `clear`, `free`
  follow the calls of the allocator one by one; the maps that they leave are those of `HashMap`.
* `Holds hash m t`: the blocks of `m` are apart from each other, and it has the contents of `t`.
* `newHashMapWithCap_spec`, `set_spec`, `del_spec`, `clear_spec`, `free_spec`: every operation
  returns, it does on the contents what it does on a finite map, and all other blocks stay.
-/

namespace Halo

open List

/-- The entries of a map that were those of `old` are those of `new`. -/
def Blocks.setEntries {α : Type} (live : Blocks) (old new : Heap α) : Blocks :=
  live.replace (fun p => (old p).isSome) fun p => (new p).isSome

/-- A map with its blocks. -/
structure StoredMap (K V : Type) where
  map : HashMap K V
  self : Nat
  list : Nat
  data : Nat

/-- What the allocator does during a `Set`: the addresses for a new entry, and for the list, the
array and the entries of `Grow`. -/
structure SetBlocks where
  entry : Option Nat
  growList : Option Nat
  growData : Option Nat
  growEntries : List (Option Nat)

namespace StoredMap

/-- `NewArrayListWithCap` and the loop that fills the array with `n` pointers. Where the size of the
array in bytes wraps around, the loop leaves the block, and there is no result. -/
def newArrayListWithCap (live : Blocks) (n : Nat) (list data : Option Nat) :
    Option (Blocks × Option (Nat × Nat)) :=
  match live.malloc list with
  | none => some (live, none)
  | some a =>
    let live := live.alloc a
    match live.malloc data with
    | none => (live.free a).map fun live => (live, none)
    | some d => if HashMap.bucketFits n then some (live.alloc d, some (a, d)) else none

/-- `ArrayList.Free`. -/
def freeArrayList (live : Blocks) (list data : Nat) : Option Blocks := do
  let live ← live.free data
  live.free list

/-- The number of buckets of a new map. -/
def initialCap (cap : Int) : Nat :=
  if cap < HashMap.initBucketSize then HashMap.initBucketSize else cap.toNat

variable {K V : Type} [DecidableEq K] (hash : K → UInt64)

/-- `NewHashMapWithCap`. -/
def newHashMapWithCap (live : Blocks) (cap : Int) (self list data : Option Nat) :
    Option (Blocks × Option (StoredMap K V)) :=
  match live.malloc self with
  | none => some (live, none)
  | some p => do
    match ← newArrayListWithCap (live.alloc p) (initialCap cap) list data with
    | (live, none) => (live.free p).map fun live => (live, none)
    | (live, some (a, d)) => return (live, some {
        map := ⟨List.replicate (initialCap cap) none, 0, fun _ => none⟩
        self := p
        list := a
        data := d })

/-- `NewHashMap`. -/
def newHashMap (live : Blocks) (self list data : Option Nat) :
    Option (Blocks × Option (StoredMap K V)) :=
  newHashMapWithCap live HashMap.initBucketSize self list data

/-- `HashMap.Grow`. The entries and the array of a map whose next array has a size that wraps around
do not fit in the address space (`HashMap.bucketFits`), so that the allocation of this array
fails. -/
def grow (live : Blocks) (m : StoredMap K V) (alloc : SetBlocks) :
    Option (Blocks × StoredMap K V) := do
  let n := m.map.bucket.length * 2
  match ← newArrayListWithCap live n alloc.growList
    (if HashMap.bucketFits n then alloc.growData else none) with
  | (live, none) => return (live, m)
  | (live, some (a, d)) =>
    let (g, ok) ← HashMap.growChains hash (m.map.len + 1)
      ⟨List.replicate n none, 0, m.map.heap, alloc.growEntries.map live.malloc⟩ m.map.bucket
    if ok then
      let old ← { m.map with heap := g.heap }.clear
      let live ← freeArrayList (live.setEntries m.map.heap old.heap) m.list m.data
      return (live, { m with map := ⟨g.bucket, g.len, old.heap⟩, list := a, data := d })
    else
      let heap ← HashMap.freeChains (m.map.len + 1) g.heap g.bucket
      let live ← freeArrayList (live.setEntries m.map.heap heap) a d
      return (live, { m with map := { m.map with heap } })

/-- `HashMap.Set`. -/
def set (live : Blocks) (m : StoredMap K V) (alloc : SetBlocks) (key : K) (value : V) :
    Option (Blocks × StoredMap K V × Bool) := do
  match ← HashMap.insertEntry hash m.map.bucket m.map.heap (live.malloc alloc.entry)
    (m.map.len + 1) key value with
  | .failed => return (live, m, false)
  | .updated heap =>
    return (live.setEntries m.map.heap heap, { m with map := { m.map with heap } }, true)
  | .added bucket heap =>
    let live := live.setEntries m.map.heap heap
    let m := { m with map := ⟨bucket, m.map.len + 1, heap⟩ }
    if m.map.len > m.map.bucket.length * 3 / 4 then
      let (live, m) ← grow hash live m alloc
      return (live, m, true)
    else return (live, m, true)

/-- `HashMap.Del`. -/
def del (live : Blocks) (m : StoredMap K V) (key : K) : Option (Blocks × StoredMap K V) := do
  let map ← m.map.del hash key
  return (live.setEntries m.map.heap map.heap, { m with map })

/-- `HashMap.Clear`. -/
def clear (live : Blocks) (m : StoredMap K V) : Option (Blocks × StoredMap K V) := do
  let map ← m.map.clear
  return (live.setEntries m.map.heap map.heap, { m with map })

/-- `HashMap.Free`. -/
def free (live : Blocks) (m : StoredMap K V) : Option Blocks := do
  let (live, m) ← clear live m
  let live ← freeArrayList live m.list m.data
  live.free m.self

/-! ## The blocks of a map -/

section

omit [DecidableEq K]

variable {base live : Blocks} {m : StoredMap K V} {a d : Nat}

/-- The addresses of the entries. -/
def entries (m : StoredMap K V) : Blocks := fun p => (m.map.heap p).isSome

/-- The addresses of all blocks of a map. -/
def store (m : StoredMap K V) : Blocks :=
  ((m.entries.alloc m.self).alloc m.list).alloc m.data

/-- No address is that of two blocks of a map. -/
structure Distinct (m : StoredMap K V) : Prop where
  self : m.entries m.self = false
  list : (m.entries.alloc m.self) m.list = false
  data : ((m.entries.alloc m.self).alloc m.list) m.data = false

theorem store_apply (m : StoredMap K V) (p : Nat) : m.store p =
    (decide (p = m.data) || (decide (p = m.list) || (decide (p = m.self) || m.entries p))) := by
  simp only [store, Blocks.alloc_apply]

theorem Distinct.not_entries (hm : m.Distinct) {p : Nat}
    (hp : p = m.data ∨ p = m.list ∨ p = m.self) : m.entries p = false := by
  have hlist := hm.list
  have hdata := hm.data
  simp only [Blocks.alloc_apply, Bool.or_eq_false_iff] at hlist hdata
  rcases hp with rfl | rfl | rfl
  · exact hdata.2.2
  · exact hlist.2
  · exact hm.self

/-- Other entries, in place of the old ones or at addresses that are not allocated. -/
theorem owns_setEntries (h : Owns base live m.store) (hm : m.Distinct) (map : HashMap K V)
    (hnew : ∀ p, map.heap p ≠ none → m.map.heap p ≠ none ∨ live p = false) :
    Owns base (live.setEntries m.map.heap map.heap) { m with map : StoredMap K V }.store ∧
      { m with map : StoredMap K V }.Distinct := by
  have hentries : ∀ p, m.entries p = true → m.store p = true := by
    intro p hp
    simp [store_apply, hp]
  have hnew' : ∀ p, (map.heap p).isSome = true → m.entries p = true ∨ live p = false := by
    intro p hp
    simpa [entries, Option.isSome_iff_ne_none] using hnew p (Option.isSome_iff_ne_none.mp hp)
  have hparts : ∀ p, p = m.data ∨ p = m.list ∨ p = m.self → map.heap p = none := by
    intro p hp
    by_contra hne
    rcases hnew p hne with hold | hlive
    · exact hold (by simpa [entries] using hm.not_entries hp)
    · have hstore := (h.not_live hlive).2
      simp only [store_apply, Bool.or_eq_false_iff, decide_eq_false_iff_not] at hstore
      tauto
  constructor
  · have hstore : { m with map : StoredMap K V }.store =
        m.store.replace m.entries fun p => (map.heap p).isSome := by
      funext p
      have hold := hm.not_entries (p := p)
      simp only [Blocks.replace, store_apply, entries] at hold ⊢
      grind
    rw [hstore]
    exact h.replace hentries fun p hp => (hnew' p hp).imp_left (hentries p)
  · have hlist := hm.list
    have hdata := hm.data
    simp only [Blocks.alloc_apply, Bool.or_eq_false_iff] at hlist hdata
    exact ⟨by simp [entries, hparts], by simp [entries, hparts, Blocks.alloc_apply, hlist.1],
      by simp [entries, hparts, Blocks.alloc_apply, hdata.1, hdata.2.1]⟩

theorem owns_freeArrayList (h : Owns ((base.alloc a).alloc d) live m.store) (ha : base a = false)
    (hd : base.alloc a d = false) :
    ∃ live', freeArrayList live a d = some live' ∧ Owns base live' m.store := by
  obtain ⟨live₁, hfree₁, h₁⟩ := h.dealloc hd
  obtain ⟨live', hfree, h'⟩ := h₁.dealloc ha
  exact ⟨live', by simp [freeArrayList, hfree₁, hfree], h'⟩

/-- The map gets the array that was somebody else's, and frees its own. -/
theorem owns_exchange (h : Owns ((base.alloc a).alloc d) live m.store) (hm : m.Distinct)
    (ha : base a = false) (hd : base.alloc a d = false) :
    ∃ live', freeArrayList live m.list m.data = some live' ∧
      Owns base live' { m with list := a, data := d }.store ∧
      { m with list := a, data := d }.Distinct := by
  obtain ⟨hself, hlist, hdata⟩ := hm
  -- the new array is not part of the map
  have hstore : ∀ p, p = a ∨ p = d → m.store p = false := by
    intro p hp
    rw [← Bool.not_eq_true]
    intro hown
    have hbase := h.apart p hown
    simp only [Blocks.alloc_apply, Bool.or_eq_false_iff, decide_eq_false_iff_not] at hbase
    tauto
  have hsa := hstore a (.inl rfl)
  have hsd := hstore d (.inr rfl)
  simp only [store_apply, Blocks.alloc_apply, Bool.or_eq_false_iff, decide_eq_false_iff_not]
    at hlist hdata hd hsa hsd
  have hall : (m.store.alloc d).alloc a =
      (((((m.entries.alloc m.self).alloc a).alloc d).alloc m.list).alloc m.data) := by
    funext p
    simp only [store_apply, Blocks.alloc_apply]
    grind
  have htaken := (h.take (by simp [Blocks.alloc_apply, hd])).take ha
  rw [hall] at htaken
  obtain ⟨live₁, hfree₁, h₁⟩ := htaken.release (by
    simp only [Blocks.alloc_apply]
    grind)
  obtain ⟨live', hfree, h'⟩ := h₁.release (by
    simp only [Blocks.alloc_apply]
    grind)
  refine ⟨live', by simp [freeArrayList, hfree₁, hfree], h', hself, ?_, ?_⟩
  · show (m.entries.alloc m.self) a = false
    simp [Blocks.alloc_apply, hsa]
  · show ((m.entries.alloc m.self).alloc a) d = false
    simp [Blocks.alloc_apply, hsd, hd]

end

/-! ## Where new entries come from -/

section

variable {heap : Heap (MapEntry K V)} {choice : Option Nat}

variable {heap' : Heap (MapEntry K V)} {bucket : List (Option Nat)} {key : K} {value : V}
  {fuel p : Nat} {g g' : HashMap.Growing K V} {ok : Bool}

omit [DecidableEq K] in
theorem choice_of_malloc {q : Nat} (h : HashMap.malloc heap choice = some q) : choice = some q :=
  (Option.filter_eq_some_iff.mp h).1

/-- The entries of `Grow` are old ones or at addresses that were chosen for it. -/
structure GrowTakes (g g' : HashMap.Growing K V) : Prop where
  heap : ∀ p, g'.heap p ≠ none → g.heap p ≠ none ∨ some p ∈ g.choices
  choices : ∀ c ∈ g'.choices, c ∈ g.choices

omit [DecidableEq K] in
theorem GrowTakes.refl (g : HashMap.Growing K V) : GrowTakes g g := ⟨fun _ => .inl, fun _ => id⟩

omit [DecidableEq K] in
theorem GrowTakes.trans {g'' : HashMap.Growing K V} (h : GrowTakes g g') (h' : GrowTakes g' g'') :
    GrowTakes g g'' where
  heap p hp := (h'.heap p hp).elim (h.heap p) fun hc => .inr (h.choices _ hc)
  choices c hc := h.choices c (h'.choices c hc)

theorem growEntry_takes (h : HashMap.growEntry hash fuel g key value = some (g', ok)) :
    GrowTakes g g' := by
  simp only [HashMap.growEntry, Option.bind_eq_bind, Option.bind_eq_some_iff] at h
  obtain ⟨res, hres, h⟩ := h
  have htakes := HashMap.insertEntry_malloc hres
  cases res with
  | failed =>
    cases h
    exact .refl g
  | updated heap =>
    cases h
    exact ⟨fun p hp => .inl (htakes p hp), fun _ => id⟩
  | added bucket heap =>
    cases h
    obtain ⟨q, hq, htakes⟩ := htakes
    have hhead : some q ∈ g.choices := by
      have hchoice := choice_of_malloc hq
      cases hg : g.choices with
      | nil =>
        rw [hg] at hchoice
        cases hchoice
      | cons c cs =>
        rw [hg] at hchoice
        exact hchoice ▸ mem_cons_self
    exact ⟨fun p hp => (htakes p hp).elim (fun h => .inr (h ▸ hhead)) .inl,
      fun _ => mem_of_mem_tail⟩

theorem growChain_takes {callbackFuel : Nat} {e : Option Nat}
    (h : HashMap.growChain hash callbackFuel fuel g e = some (g', ok)) : GrowTakes g g' := by
  fun_induction HashMap.growChain hash callbackFuel fuel g e with
  | case1 =>
    cases h
    exact .refl _
  | case2 => cases h
  | case3 fuel g e ih =>
    simp only [Option.bind_eq_bind, Option.bind_eq_some_iff] at h
    obtain ⟨n, -, ⟨g₁, ok₁⟩, hentry, h⟩ := h
    have hfirst := growEntry_takes hash hentry
    dsimp only at h
    split at h
    · exact hfirst.trans (ih _ _ h)
    · cases h
      exact hfirst

theorem growChains_takes (h : HashMap.growChains hash fuel g bucket = some (g', ok)) :
    GrowTakes g g' := by
  induction bucket generalizing g with
  | nil =>
    cases h
    exact .refl _
  | cons e bucket ih =>
    simp only [HashMap.growChains, Option.bind_eq_bind, Option.bind_eq_some_iff] at h
    obtain ⟨⟨g₁, ok₁⟩, hchain, h⟩ := h
    have hfirst := growChain_takes hash hchain
    dsimp only at h
    split at h
    · exact hfirst.trans (ih h)
    · cases h
      exact hfirst

omit [DecidableEq K] in
/-- The loop that frees chains allocates nothing. -/
theorem freeChain_takes {heap : Heap (MapEntry K V)} {e : Option Nat}
    (h : HashMap.freeChain fuel heap e = some heap') (hp : heap' p ≠ none) : heap p ≠ none := by
  fun_induction HashMap.freeChain fuel heap e with
  | case1 =>
    cases h
    exact hp
  | case2 => cases h
  | case3 fuel heap e ih =>
    simp only [Option.bind_eq_bind, Option.bind_eq_some_iff] at h
    obtain ⟨n, -, h⟩ := h
    have hfree := ih _ h
    by_cases hpe : p = e
    · rw [hpe, HashMap.free, Function.update_self] at hfree
      exact absurd rfl hfree
    · rwa [HashMap.free, Function.update_of_ne hpe] at hfree

omit [DecidableEq K] in
theorem freeChains_takes {heap : Heap (MapEntry K V)}
    (h : HashMap.freeChains fuel heap bucket = some heap') (hp : heap' p ≠ none) :
    heap p ≠ none := by
  induction bucket generalizing heap with
  | nil =>
    cases h
    exact hp
  | cons e bucket ih =>
    simp only [HashMap.freeChains, Option.bind_eq_bind, Option.bind_eq_some_iff] at h
    obtain ⟨heap₁, hchain, h⟩ := h
    exact freeChain_takes hchain (ih h)

omit [DecidableEq K] in
theorem clear_takes {m m' : HashMap K V} (h : m.clear = some m') (hp : m'.heap p ≠ none) :
    m.heap p ≠ none := by
  simp only [HashMap.clear, Option.bind_eq_bind, Option.bind_eq_some_iff] at h
  obtain ⟨heap, hfree, h⟩ := h
  cases h
  exact freeChains_takes hfree hp

end

/-! ## The operations -/

section

variable {hash} {base live : Blocks} {m : StoredMap K V} {cs : List (HashMap.Chain K V)}
  {t : Table K V}

omit [DecidableEq K]

/-- A list is allocated as a whole or not at all. -/
theorem newArrayListWithCap_spec (live : Blocks) (n : Nat) (list data : Option Nat) :
    newArrayListWithCap live n list data = some (live, none) ∨
      (newArrayListWithCap live n list data = none ∧ HashMap.bucketFits n = false ∧ data ≠ none) ∨
      ∃ a d, newArrayListWithCap live n list data = some ((live.alloc a).alloc d, some (a, d)) ∧
        HashMap.bucketFits n = true ∧ live a = false ∧ live.alloc a d = false := by
  unfold newArrayListWithCap
  cases hlist : live.malloc list with
  | none => exact .inl rfl
  | some a =>
    have ha := (Blocks.malloc_eq_some hlist).2
    dsimp only
    cases hdata : (live.alloc a).malloc data with
    | none =>
      left
      dsimp only
      rw [Blocks.free_alloc ha]
      rfl
    | some d =>
      obtain ⟨hchoice, hd⟩ := Blocks.malloc_eq_some hdata
      right
      cases hfits : HashMap.bucketFits n with
      | false => exact .inl ⟨rfl, rfl, by simp [hchoice]⟩
      | true => exact .inr ⟨a, d, rfl, rfl, ha, hd⟩

/-- The map has the contents of `t`, in blocks that are apart from each other. -/
structure Holds (hash : K → UInt64) (m : StoredMap K V) (t : Table K V) : Prop extends
    m.Distinct where
  rep : HashMap.Represents hash m.map t

/-- A new map, or nothing. -/
theorem newHashMapWithCap_spec (hash : K → UInt64) (live : Blocks) (cap : Int)
    (self list data : Option Nat) :
    newHashMapWithCap (K := K) (V := V) live cap self list data = some (live, none) ∨
      (newHashMapWithCap (K := K) (V := V) live cap self list data = none ∧
        HashMap.bucketFits (initialCap cap) = false) ∨
      ∃ live' m, newHashMapWithCap (K := K) (V := V) live cap self list data =
          some (live', some m) ∧ Owns live live' m.store ∧ m.Holds hash ∅ := by
  unfold newHashMapWithCap
  cases hself : live.malloc self with
  | none => exact .inl rfl
  | some p =>
    have hp := (Blocks.malloc_eq_some hself).2
    dsimp only
    rcases newArrayListWithCap_spec (live.alloc p) (initialCap cap) list data with
      hnone | ⟨hbad, hfits, -⟩ | ⟨a, d, hsome, hfits, ha, hd⟩
    · left
      simp only [hnone, Option.bind_eq_bind, Option.bind_some, Blocks.free_alloc hp]
      rfl
    · exact .inr (.inl ⟨by rw [hbad]; rfl, hfits⟩)
    · right; right
      have hnew : HashMap.newHashMapWithCap (K := K) (V := V) true true cap =
          some ⟨List.replicate (initialCap cap) none, 0, fun _ => none⟩ := if_pos hfits
      simp only [Blocks.alloc_apply, Bool.or_eq_false_iff, decide_eq_false_iff_not] at ha hd
      refine ⟨_, _, by rw [hsome]; rfl, ⟨fun q => ?_, fun q hq => ?_⟩, ⟨rfl, ?_, ?_⟩,
        HashMap.represents_new hnew⟩
      · simp only [store_apply, entries, Blocks.alloc_apply]
        grind
      · simp only [store_apply, entries] at hq
        grind
      · simp [entries, Blocks.alloc_apply, ha.1]
      · simp [entries, Blocks.alloc_apply, hd.1, hd.2.1]

theorem newHashMap_spec (hash : K → UInt64) (live : Blocks) (self list data : Option Nat) :
    newHashMap (K := K) (V := V) live self list data = some (live, none) ∨
      ∃ live' m, newHashMap (K := K) (V := V) live self list data = some (live', some m) ∧
        Owns live live' m.store ∧ m.Holds hash ∅ := by
  rcases newHashMapWithCap_spec hash live HashMap.initBucketSize self list data with
    hnone | ⟨-, hfits⟩ | hsome
  · exact .inl hnone
  · cases hfits
  · exact .inr hsome

/-- `Clear` frees all entries. -/
theorem clear_spec (h : Owns base live m.store) (hm : m.Holds hash t) :
    ∃ live' m', clear live m = some (live', m') ∧ Owns base live' m'.store ∧ m'.Holds hash ∅ ∧
      ∀ p, m'.entries p = false := by
  obtain ⟨cs, hrep, -⟩ := hm.rep
  obtain ⟨map, hclear, hrep'⟩ := HashMap.clear_spec hrep
  obtain ⟨howns, hdistinct⟩ := owns_setEntries h hm.toDistinct map fun p hp =>
    .inl (clear_takes hclear hp)
  refine ⟨_, _, by rw [clear, hclear]; rfl, howns, ⟨hdistinct, _, hrep', by simp⟩, fun p => ?_⟩
  rw [entries, Option.isSome_eq_false_iff, Option.isNone_iff_eq_none]
  by_contra hp
  have hmem := hrep'.dom p hp
  simp at hmem

/-- `Free` leaves the other blocks. -/
theorem free_spec (h : Owns base live m.store) (hm : m.Holds hash t) : free live m = some base := by
  obtain ⟨live₁, m₁, hclear, h₁, hm₁, hempty⟩ := clear_spec h hm
  obtain ⟨live₂, hfree₂, h₂⟩ := h₁.release hm₁.data
  obtain ⟨live₃, hfree₃, h₃⟩ := h₂.release hm₁.list
  obtain ⟨live₄, hfree₄, h₄⟩ := h₃.release hm₁.self
  simp [free, freeArrayList, hclear, hfree₂, hfree₃, hfree₄, h₄.eq_base hempty]

theorem len_spec {map : HashMap K V} (ht : HashMap.Represents hash map t) :
    map.len = t.entries.length := by
  obtain ⟨cs, hrep, hperm⟩ := ht
  have hlen := hperm.length_eq
  rwa [HashMap.contents, List.length_map, ← hrep.len_eq] at hlen

/-- The addresses that the allocator gives to the entries of `Grow`. -/
theorem not_live_of_mem {choices : List (Option Nat)} {p : Nat}
    (h : some p ∈ choices.map live.malloc) : live p = false := by
  obtain ⟨c, -, hc⟩ := mem_map.mp h
  exact (Blocks.malloc_eq_some hc).2

variable [DecidableEq K]

theorem get_spec {map : HashMap K V} (ht : HashMap.Represents hash map t) (key : K) :
    map.get hash key = some (t.lookup key) := by
  obtain ⟨m₁, r, t', hstep, hspec, -⟩ := HashMap.step_refines ht (.get key)
  obtain ⟨v, hget, heq⟩ := Option.map_eq_some_iff.mp hstep
  cases heq
  cases hspec
  exact hget

/-- `Grow` has the new array as a block of somebody else until it exchanges the two arrays, or frees
it again. -/
theorem grow_owns (h : Owns base live m.store) (hm : m.Distinct) (hrep : HashMap.Rep hash m.map cs)
    (alloc : SetBlocks) (entry : Option Nat) :
    ∃ live' m' growBucket growEntries, grow hash live m alloc = some (live', m') ∧
      Owns base live' m'.store ∧ m'.Distinct ∧
      HashMap.grow hash m.map ⟨entry, growBucket, growEntries⟩ = some m'.map := by
  unfold grow
  dsimp only
  rcases newArrayListWithCap_spec live (m.map.bucket.length * 2) alloc.growList
      (if HashMap.bucketFits (m.map.bucket.length * 2) then alloc.growData else none) with
    hnone | ⟨-, hfits, hdata⟩ | ⟨a, d, hsome, hfits, ha, hd⟩
  · exact ⟨live, m, false, [], by rw [hnone]; rfl, h, hm, by simp [HashMap.grow]⟩
  · rw [hfits] at hdata
    exact absurd rfl hdata
  · have hbase := (h.not_live ha).1
    have hbase' := ((h.alloc ha).not_live hd).1
    have h₁ := (h.alloc ha).alloc hd
    obtain ⟨m', hgrow, -⟩ := HashMap.grow_spec hrep
      ⟨entry, true, alloc.growEntries.map ((live.alloc a).alloc d).malloc⟩
    have hmap := hgrow
    simp only [HashMap.grow, hfits, Bool.and_self, not_true_eq_false, if_false, Option.bind_eq_bind,
      Option.bind_eq_some_iff] at hgrow
    obtain ⟨⟨g, ok⟩, hchains, hgrow⟩ := hgrow
    have htakes := growChains_takes hash hchains
    -- an entry that is there now is an old one, or at an address that was free
    have hnew : ∀ p, g.heap p ≠ none → m.map.heap p ≠ none ∨ (live.alloc a).alloc d p = false :=
      fun p hp => (htakes.heap p hp).imp_right not_live_of_mem
    simp only [hsome, hchains, Option.bind_eq_bind, Option.bind_some]
    cases ok with
    | true =>
      simp only [if_true, Option.bind_eq_some_iff] at hgrow ⊢
      obtain ⟨old, hclear, heq⟩ := hgrow
      cases heq
      obtain ⟨h₂, hm₂⟩ := owns_setEntries h₁ hm ⟨g.bucket, g.len, old.heap⟩ fun p hp =>
        hnew p (clear_takes hclear hp)
      obtain ⟨live', hfree, h', hm'⟩ := owns_exchange h₂ hm₂ hbase hbase'
      exact ⟨live', _, true, _, ⟨old, hclear, live', hfree, rfl⟩, h', hm', hmap⟩
    | false =>
      simp only [Bool.false_eq_true, if_false, Option.bind_eq_some_iff] at hgrow ⊢
      obtain ⟨heap, hchains', heq⟩ := hgrow
      cases heq
      obtain ⟨h₂, hm₂⟩ := owns_setEntries h₁ hm { m.map with heap } fun p hp =>
        hnew p (freeChains_takes hchains' hp)
      obtain ⟨live', hfree, h'⟩ := owns_freeArrayList h₂ hbase hbase'
      exact ⟨live', _, true, _, ⟨heap, hchains', live', hfree, rfl⟩, h', hm₂, hmap⟩

theorem set_owns (h : Owns base live m.store) (hm : m.Distinct) (hrep : HashMap.Rep hash m.map cs)
    (alloc : SetBlocks) (key : K) (value : V) :
    ∃ live' m' ok growBucket growEntries, set hash live m alloc key value = some (live', m', ok) ∧
      Owns base live' m'.store ∧ m'.Distinct ∧ (ok = false → live' = live ∧ m' = m) ∧
      HashMap.set hash m.map ⟨live.malloc alloc.entry, growBucket, growEntries⟩ key value =
        some (m'.map, ok) := by
  -- a `Set` whose `Grow` gets no memory leaves the map with the new entry
  obtain ⟨m₁, ok, hset, cs', hrep₁, -⟩ :=
    HashMap.set_spec hrep ⟨live.malloc alloc.entry, false, []⟩ key value
  simp only [HashMap.set, Option.bind_eq_bind, Option.bind_eq_some_iff] at hset
  obtain ⟨res, hres, hset⟩ := hset
  have htakes := HashMap.insertEntry_malloc hres
  simp only [set, HashMap.set, hres, Option.bind_eq_bind, Option.bind_some]
  cases res with
  | failed => exact ⟨live, m, false, false, [], rfl, h, hm, fun _ => ⟨rfl, rfl⟩, rfl⟩
  | updated heap =>
    obtain ⟨h', hm'⟩ := owns_setEntries h hm { m.map with heap } fun p hp => .inl (htakes p hp)
    exact ⟨_, _, true, false, [], rfl, h', hm', (fun hok => by cases hok), rfl⟩
  | added bucket heap =>
    have hrep' : HashMap.Rep hash ⟨bucket, m.map.len + 1, heap⟩ cs' := by
      dsimp only [HashMap.grow] at hset
      split at hset <;> (cases hset; exact hrep₁)
    obtain ⟨q, hq, htakes⟩ := htakes
    have hlive : live q = false := (Blocks.malloc_eq_some (choice_of_malloc hq)).2
    obtain ⟨h', hm'⟩ := owns_setEntries h hm ⟨bucket, m.map.len + 1, heap⟩
      fun p hp => (htakes p hp).elim (fun h => .inr (h ▸ hlive)) .inl
    dsimp only
    split
    · obtain ⟨live₂, m₂, growBucket, growEntries, hgrow, h₂, hm₂, hmap⟩ :=
        grow_owns h' hm' hrep' alloc (live.malloc alloc.entry)
      refine ⟨live₂, m₂, true, growBucket, growEntries, by simp [hgrow], h₂, hm₂,
        (fun hok => by cases hok), ?_⟩
      simp [hmap]
    · exact ⟨_, _, true, false, [], rfl, h', hm', (fun hok => by cases hok), rfl⟩

/-- `Set` returns. It adds the value, or it fails for a new key and changes nothing. -/
theorem set_spec (h : Owns base live m.store) (hm : m.Holds hash t) (alloc : SetBlocks) (key : K)
    (value : V) :
    ∃ live' m' ok, set hash live m alloc key value = some (live', m', ok) ∧
      Owns base live' m'.store ∧
      if ok then m'.Holds hash (t.insert key value)
      else t.lookup key = none ∧ live' = live ∧ m' = m := by
  obtain ⟨cs, hrep, -⟩ := hm.rep
  obtain ⟨live', m', ok, growBucket, growEntries, hset, h', hm', hfail, hmap⟩ :=
    set_owns h hm.toDistinct hrep alloc key value
  obtain ⟨m₁, r, t', hstep, hspec, ht'⟩ := HashMap.step_refines hm.rep
    (.set ⟨live.malloc alloc.entry, growBucket, growEntries⟩ key value)
  rw [HashMap.step, hmap] at hstep
  cases hstep
  refine ⟨live', m', ok, hset, h', ?_⟩
  cases ok with
  | true =>
    cases hspec
    exact ⟨hm', ht'⟩
  | false =>
    cases hspec with
    | setFailed _ _ _ hkey => exact ⟨hkey, hfail rfl⟩

theorem del_spec (h : Owns base live m.store) (hm : m.Holds hash t) (key : K) :
    ∃ live' m', del hash live m key = some (live', m') ∧ Owns base live' m'.store ∧
      m'.Holds hash (t.erase key) := by
  obtain ⟨cs, hrep, -⟩ := hm.rep
  obtain ⟨map, hdel, hrep'⟩ := HashMap.del_chains hrep key
  obtain ⟨m₁, r, t', hstep, hspec, ht'⟩ := HashMap.step_refines hm.rep (.del key)
  rw [HashMap.step, hdel] at hstep
  cases hstep
  cases hspec
  obtain ⟨h', hm'⟩ := owns_setEntries h hm.toDistinct map fun p hp => by
    left
    have hmem : p ∈ HashMap.ptrs cs.flatten := by
      have hsub := hrep'.dom p hp
      rw [HashMap.without, ← filter_flatten] at hsub
      exact (filter_sublist.map Prod.fst).subset hsub
    exact fun hnone => hrep.buckets.not_mem_of_none hnone hmem
  exact ⟨_, _, by rw [del, hdel]; rfl, h', hm', ht'⟩

end

end StoredMap

end Halo
