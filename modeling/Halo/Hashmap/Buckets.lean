import Halo.Hashmap.Chains

/-!
# The bucket array of a hash map

* `Buckets hash heap bucket cs`: the array `bucket` has the heads of the chains `cs`. The chains are
  linked in `heap`, have no entry and no key in common, and each key is in the chain of its hash.
* `Buckets.split`: the chain that a key belongs to, between the others.
* `Buckets.replace`: one chain is exchanged for another.
* `insertEntry_spec`, `freeChains_spec`: insertion into the array and the release of all entries.
-/

namespace Halo

open Function List

namespace HashMap

variable {K V : Type}

/-- The array `bucket` has the heads of the chains `cs`. -/
structure Buckets (hash : K → UInt64) (heap : Heap (MapEntry K V)) (bucket : List (Option Nat))
    (cs : List (Chain K V)) : Prop where
  heads : bucket = cs.map fun c => firstOr c none
  linked : ∀ c ∈ cs, Linked heap none c
  ptrs_nodup : (ptrs cs.flatten).Nodup
  keys_nodup : (keys cs.flatten).Nodup
  placed : ∀ i c, cs[i]? = some c → ∀ x ∈ c, slot hash cs.length x.2.1 = i
  pos : 0 < cs.length
  fits : cs.length < 2 ^ 61

variable {hash : K → UInt64} {heap heap' : Heap (MapEntry K V)} {bucket : List (Option Nat)}
  {cs l r : List (Chain K V)} {c c' : Chain K V}

theorem slot_lt (hash : K → UInt64) {n : Nat} (hpos : 0 < n) (hfits : n < 2 ^ 61) (key : K) :
    slot hash n key < n := by
  unfold slot
  rw [UInt64.toNat_mod, UInt64.toNat_ofNat_of_lt' (hfits.trans (by decide))]
  exact Nat.mod_lt _ hpos

theorem Buckets.length_eq (hb : Buckets hash heap bucket cs) : bucket.length = cs.length := by
  rw [hb.heads, length_map]

/-- An array of empty buckets. -/
theorem buckets_replicate (hash : K → UInt64) (heap : Heap (MapEntry K V)) {n : Nat} (hpos : 0 < n)
    (hfits : n < 2 ^ 61) :
    Buckets hash heap (List.replicate n none) (List.replicate n []) where
  heads := by simp
  linked := by
    intro c hc
    rw [eq_of_mem_replicate hc]
    trivial
  ptrs_nodup := by simp
  keys_nodup := by simp
  placed := by
    intro i c hc x hx
    rw [eq_of_mem_replicate (mem_of_getElem? hc)] at hx
    cases hx
  pos := by simpa using hpos
  fits := by simpa using hfits

/-- The array depends on the memory of its entries only. -/
theorem Buckets.congr (hb : Buckets hash heap bucket cs)
    (heq : ∀ p ∈ ptrs cs.flatten, heap' p = heap p) : Buckets hash heap' bucket cs where
  heads := hb.heads
  linked := by
    intro c hc
    refine (hb.linked c hc).congr fun p hp => heq p ?_
    obtain ⟨x, hx, rfl⟩ := mem_map.mp hp
    exact mem_map_of_mem (mem_flatten_of_mem hc hx)
  ptrs_nodup := hb.ptrs_nodup
  keys_nodup := hb.keys_nodup
  placed := hb.placed
  pos := hb.pos
  fits := hb.fits

/-- The entries of an array with one chain `c` among others. -/
theorem flatten_middle (l r : List (Chain K V)) (c : Chain K V) :
    (l ++ c :: r).flatten = l.flatten ++ c ++ r.flatten := by
  simp

/-- The chain of a key: the array has its head, and no other chain has the key. -/
theorem Buckets.split (hb : Buckets hash heap bucket cs) (key : K) :
    ∃ l c r, cs = l ++ c :: r ∧ l.length = slot hash bucket.length key ∧
      bucket.getD (slot hash bucket.length key) none = firstOr c none ∧
      ∀ x ∈ l.flatten ++ r.flatten, x.2.1 ≠ key := by
  rw [hb.length_eq]
  have hlt := slot_lt hash hb.pos hb.fits key
  set i := slot hash cs.length key with hi
  have hcs : cs = cs.take i ++ cs[i] :: cs.drop (i + 1) := by
    rw [getElem_cons_drop, take_append_drop]
  refine ⟨cs.take i, cs[i], cs.drop (i + 1), hcs, by simp [hlt.le], ?_, ?_⟩
  · rw [hb.heads]
    simp [getD_eq_getElem?_getD, hlt]
  · -- a key elsewhere would have another index
    intro x hx hkey
    rw [mem_append, mem_flatten, mem_flatten] at hx
    obtain ⟨j, hj, hmem⟩ : ∃ j, j ≠ i ∧ ∃ c, cs[j]? = some c ∧ x ∈ c := by
      rcases hx with ⟨c, hc, hxc⟩ | ⟨c, hc, hxc⟩
      · obtain ⟨j, hj, rfl⟩ := mem_iff_getElem.mp hc
        rw [length_take] at hj
        refine ⟨j, by omega, _, ?_, hxc⟩
        rw [getElem_take]
        exact getElem?_eq_getElem _
      · obtain ⟨j, hj, rfl⟩ := mem_iff_getElem.mp hc
        rw [length_drop] at hj
        refine ⟨i + 1 + j, by omega, _, ?_, hxc⟩
        rw [getElem_drop]
        exact getElem?_eq_getElem _
    obtain ⟨c, hc, hxc⟩ := hmem
    have hslot := hb.placed j c hc x hxc
    rw [hkey] at hslot
    exact hj (hslot.symm.trans hi.symm)

/-- The chain `c` of the array is exchanged for `c'`, with a change of the memory of these chains
only. -/
theorem Buckets.replace (hb : Buckets hash heap bucket (l ++ c :: r))
    (hlinked : Linked heap' none c')
    (hframe : ∀ p ∈ ptrs (l.flatten ++ r.flatten), heap' p = heap p)
    (hptrs : (ptrs (l ++ c' :: r).flatten).Nodup) (hkeys : (keys (l ++ c' :: r).flatten).Nodup)
    (hplaced : ∀ x ∈ c', slot hash bucket.length x.2.1 = l.length) :
    Buckets hash heap' (bucket.set l.length (firstOr c' none)) (l ++ c' :: r) := by
  have hlen : (l ++ c' :: r).length = (l ++ c :: r).length := by simp
  constructor
  · rw [hb.heads]
    simp
  · intro d hd
    have hother : ∀ d ∈ l ++ c :: r,
        (∀ x ∈ d, x ∈ l.flatten ++ r.flatten) → Linked heap' none d := by
      intro d hd hsub
      refine (hb.linked d hd).congr fun p hp => hframe p ?_
      obtain ⟨x, hx, rfl⟩ := mem_map.mp hp
      exact mem_map_of_mem (hsub x hx)
    rw [mem_append, mem_cons] at hd
    rcases hd with hd | rfl | hd
    · exact hother d (by simp [hd]) fun x hx =>
        mem_append_left _ (mem_flatten_of_mem hd hx)
    · exact hlinked
    · exact hother d (by simp [hd]) fun x hx =>
        mem_append_right _ (mem_flatten_of_mem hd hx)
  · exact hptrs
  · exact hkeys
  · intro i d hd x hx
    rw [hlen]
    by_cases hi : i = l.length
    · subst hi
      rw [getElem?_append_right (Nat.le_refl _)] at hd
      simp only [Nat.sub_self, getElem?_cons_zero, Option.some.injEq] at hd
      subst hd
      rw [← hb.length_eq]
      exact hplaced x hx
    · refine hb.placed i d ?_ x hx
      rw [getElem?_append] at hd ⊢
      split at hd
      · rename_i hlt
        rw [if_pos hlt]
        exact hd
      · rename_i hge
        rw [if_neg hge]
        obtain ⟨k, hk⟩ : ∃ k, i - l.length = k + 1 := ⟨i - l.length - 1, by omega⟩
        rw [hk, getElem?_cons_succ] at hd ⊢
        exact hd
  · rw [hlen]
    exact hb.pos
  · rw [hlen]
    exact hb.fits

theorem freeChains_spec {fuel : Nat} (hlinked : ∀ c ∈ cs, Linked heap none c)
    (hnodup : (ptrs cs.flatten).Nodup) (hfuel : cs.flatten.length ≤ fuel) :
    freeChains fuel heap (cs.map fun c => firstOr c none) =
      some (eraseAll heap (ptrs cs.flatten)) := by
  induction cs generalizing heap with
  | nil => simp [freeChains, eraseAll_nil]
  | cons c cs ih =>
    rw [flatten_cons, length_append] at hfuel
    rw [flatten_cons, ptrs, map_append] at hnodup
    obtain ⟨hc, hcs, hdisj⟩ := nodup_append.mp hnodup
    have hhead : freeChain fuel heap (firstOr c none) = some (eraseAll heap (ptrs c)) :=
      freeChain_spec (hlinked c mem_cons_self) hc (by omega)
    have hrest : ∀ d ∈ cs, Linked (eraseAll heap (ptrs c)) none d := by
      intro d hd
      refine linked_eraseAll (hlinked d (mem_cons_of_mem _ hd)) fun p hp hpc => ?_
      obtain ⟨x, hx, rfl⟩ := mem_map.mp hp
      exact hdisj x.1 hpc x.1 (mem_map_of_mem (mem_flatten_of_mem hd hx)) rfl
    simp only [map_cons, freeChains, hhead, Option.bind_eq_bind, Option.bind_some]
    rw [ih hrest hcs (by omega), eraseAll_eraseAll, flatten_cons, ptrs, ptrs, ptrs,
      map_append]

variable {p q : Nat} {key : K}

theorem malloc_spec {choice : Option Nat} (h : malloc heap choice = some p) : heap p = none := by
  unfold malloc at h
  exact Option.isNone_iff_eq_none.mp (Option.filter_eq_some_iff.mp h).2

/-- What an insertion into the array does. Each outcome says what the chains are then, and that
no other memory changes. -/
inductive InsertResult (hash : K → UInt64) (heap : Heap (MapEntry K V)) (bucket : List (Option Nat))
    (cs : List (Chain K V)) (key : K) (value : V) : Inserted K V → Prop
  | failed (hkey : key ∉ keys cs.flatten) : InsertResult hash heap bucket cs key value .failed
  | updated (heap' : Heap (MapEntry K V)) (cs' : List (Chain K V)) (old : V) (rest : Chain K V)
      (q : Nat) (hb : Buckets hash heap' bucket cs') (hptrs : ptrs cs'.flatten = ptrs cs.flatten)
      (hold : cs.flatten.Perm ((q, (key, old)) :: rest))
      (hnew : cs'.flatten.Perm ((q, (key, value)) :: rest))
      (hframe : ∀ p, p ∉ ptrs cs.flatten → heap' p = heap p) :
      InsertResult hash heap bucket cs key value (.updated heap')
  | added (heap' : Heap (MapEntry K V)) (bucket' : List (Option Nat)) (cs' : List (Chain K V))
      (p : Nat) (hb : Buckets hash heap' bucket' cs') (hkey : key ∉ keys cs.flatten)
      (hp : heap p = none) (hnew : cs'.flatten.Perm ((p, (key, value)) :: cs.flatten))
      (hframe : ∀ q, q ∉ ptrs cs.flatten → q ≠ p → heap' q = heap q) :
      InsertResult hash heap bucket cs key value (.added bucket' heap')

/-- The keys of an array, by the chain of a key. -/
theorem not_mem_keys_middle (hc : key ∉ keys c)
    (hother : ∀ x ∈ l.flatten ++ r.flatten, x.2.1 ≠ key) : key ∉ keys (l ++ c :: r).flatten := by
  intro hmem
  obtain ⟨x, hx, hxk⟩ := mem_map.mp hmem
  rw [flatten_middle, mem_append, mem_append] at hx
  rcases hx with (hx | hx) | hx
  · exact hother x (mem_append_left _ hx) hxk
  · exact hc (mem_map.mpr ⟨x, hx, hxk⟩)
  · exact hother x (mem_append_right _ hx) hxk

/-- The pointers of one chain of an array. -/
theorem Buckets.chain_nodup (hb : Buckets hash heap bucket (l ++ c :: r)) :
    (ptrs c).Nodup := by
  have hnodup := hb.ptrs_nodup
  rw [flatten_middle, ptrs, map_append, map_append] at hnodup
  exact (nodup_append.mp (nodup_append.mp hnodup).1).2.1

/-- A chain has no entry of another one. -/
theorem Buckets.not_mem_chain (hb : Buckets hash heap bucket (l ++ c :: r))
    (hq : q ∈ ptrs (l.flatten ++ r.flatten)) : q ∉ ptrs c := by
  intro hqc
  have hnodup := hb.ptrs_nodup
  rw [flatten_middle] at hnodup
  simp only [ptrs, map_append] at hnodup hq hqc
  rw [append_assoc, nodup_append] at hnodup
  rcases mem_append.mp hq with hql | hqr
  · exact hnodup.2.2 q hql q (mem_append_left _ hqc) rfl
  · exact (nodup_append.mp hnodup.2.1).2.2 q hqc q hqr rfl

/-- The entries of a chain are placed by their keys. -/
theorem Buckets.placed_chain (hb : Buckets hash heap bucket (l ++ c :: r)) :
    ∀ x ∈ c, slot hash bucket.length x.2.1 = l.length := by
  intro x hx
  have := hb.placed l.length c (by simp) x hx
  rwa [← hb.length_eq] at this

theorem mem_ptrs_middle : q ∈ ptrs (l ++ c :: r).flatten ↔
    q ∈ ptrs (l.flatten ++ r.flatten) ∨ q ∈ ptrs c := by
  rw [flatten_middle]
  simp only [ptrs, map_append, mem_append]
  tauto

/-- No entry of the array is at an address that is not allocated. -/
theorem Buckets.not_mem_of_none (hb : Buckets hash heap bucket cs) (hp : heap p = none) :
    p ∉ ptrs cs.flatten := by
  intro hmem
  obtain ⟨⟨q, d⟩, hx, rfl⟩ := mem_map.mp hmem
  obtain ⟨e, he, hxe⟩ := mem_flatten.mp hx
  obtain ⟨n, hn, -⟩ := (hb.linked e he).mem hxe
  rw [hp] at hn
  cases hn

/-- An entry behind the last one of a chain, or the first one of an empty chain. -/
theorem Buckets.concat (hb : Buckets hash heap bucket (l ++ c :: r)) {value : V}
    (hslot : l.length = slot hash bucket.length key) (hkey : key ∉ keys (l ++ c :: r).flatten)
    (hp : heap p = none) (hlinked : Linked heap' none (c ++ [(p, (key, value))]))
    (hframe : ∀ q, q ∉ ptrs c → q ≠ p → heap' q = heap q) :
    InsertResult hash heap bucket (l ++ c :: r) key value
      (.added (bucket.set l.length (firstOr (c ++ [(p, (key, value))]) none)) heap') := by
  have hperm : (l ++ (c ++ [(p, (key, value))]) :: r).flatten.Perm
      ((p, (key, value)) :: (l ++ c :: r).flatten) := by
    rw [flatten_middle, flatten_middle]
    simp only [append_assoc, singleton_append]
    rw [← append_assoc l.flatten c, ← append_assoc l.flatten c]
    exact perm_middle
  have hfresh := hb.not_mem_of_none hp
  have hptrsPerm := hperm.map Prod.fst
  have hkeysPerm := hperm.map fun x => x.2.1
  have hptrs := (hptrsPerm.nodup_iff).mpr (nodup_cons.mpr ⟨hfresh, hb.ptrs_nodup⟩)
  refine .added heap' _ (l ++ (c ++ [(p, (key, value))]) :: r) p
    (hb.replace hlinked (fun q hq => hframe q (hb.not_mem_chain hq) ?_) hptrs
      ((hkeysPerm.nodup_iff).mpr (nodup_cons.mpr ⟨hkey, hb.keys_nodup⟩)) fun x hx => ?_)
    hkey hp hperm fun q hq hqp => hframe q (fun hqc => hq (mem_ptrs_middle.mpr (.inr hqc))) hqp
  · rintro rfl
    exact hfresh (mem_ptrs_middle.mpr (.inl hq))
  · rw [mem_append, mem_singleton] at hx
    rcases hx with hx | rfl
    · exact hb.placed_chain x hx
    · exact hslot.symm

/-- A new value for an entry of a chain. -/
theorem Buckets.setValue {pre post : Chain K V} {old : V} {n : MapEntry K V}
    (hb : Buckets hash heap bucket (l ++ (pre ++ (q, (key, old)) :: post) :: r)) (value : V)
    (hn : heap q = some n) :
    InsertResult hash heap bucket (l ++ (pre ++ (q, (key, old)) :: post) :: r) key value
      (.updated (update heap q (some { n with key := key, value := value }))) := by
  have hchain := hb.linked (pre ++ (q, (key, old)) :: post) (by simp)
  obtain ⟨n', hn', -, hprev, hnext⟩ := hchain.node
  rw [hn] at hn'
  cases hn'
  have hmem : q ∈ ptrs (pre ++ (q, (key, old)) :: post) := by simp
  have hnodup := hb.chain_nodup
  simp only [ptrs, map_append, map_cons] at hnodup
  obtain ⟨hq, -⟩ := nodup_cons.mp (nodup_middle.mp hnodup)
  rw [mem_append, not_or] at hq
  have hptrs : ptrs (l ++ (pre ++ (q, (key, value)) :: post) :: r).flatten =
      ptrs (l ++ (pre ++ (q, (key, old)) :: post) :: r).flatten := by simp [ptrs]
  have hkeys : keys (l ++ (pre ++ (q, (key, value)) :: post) :: r).flatten =
      keys (l ++ (pre ++ (q, (key, old)) :: post) :: r).flatten := by simp [keys]
  have hother : ∀ p, p ≠ q →
      update heap q (some { n with key := key, value := value }) p = heap p :=
    fun p hp => update_of_ne hp _ _
  have hlinked : Linked (update heap q (some { n with key := key, value := value })) none
      (pre ++ (q, (key, value)) :: post) := hchain.setData hq.1 hq.2 rfl hprev hnext
  have hb' := hb.replace hlinked
    (fun p hp => hother p ?_) (hptrs ▸ hb.ptrs_nodup) (hkeys ▸ hb.keys_nodup) fun x hx => ?_
  · have hset : bucket.set l.length (firstOr (pre ++ (q, (key, value)) :: post) none) = bucket := by
      rw [hb.heads]
      cases pre <;> simp
    rw [hset] at hb'
    refine .updated _ _ old (l.flatten ++ pre ++ post ++ r.flatten) q hb' hptrs ?_ ?_
      fun p hp => hother p ?_
    · rw [flatten_middle]
      simp only [append_assoc, cons_append]
      rw [← append_assoc l.flatten, ← append_assoc l.flatten]
      exact perm_middle
    · rw [flatten_middle]
      simp only [append_assoc, cons_append]
      rw [← append_assoc l.flatten, ← append_assoc l.flatten]
      exact perm_middle
    · rintro rfl
      exact hp (mem_ptrs_middle.mpr (.inr hmem))
  · rintro rfl
    exact hb.not_mem_chain hp hmem
  · rw [mem_append, mem_cons] at hx
    rcases hx with hx | rfl | hx
    · exact hb.placed_chain x (by simp [hx])
    · exact hb.placed_chain (q, (key, old)) (by simp)
    · exact hb.placed_chain x (by simp [hx])

variable [DecidableEq K]

theorem insertEntry_spec (hb : Buckets hash heap bucket cs) (choice : Option Nat) (key : K)
    (value : V) {fuel : Nat} (hfuel : cs.flatten.length < fuel) :
    ∃ res, insertEntry hash bucket heap choice fuel key value = some res ∧
      InsertResult hash heap bucket cs key value res := by
  obtain ⟨l, c, r, rfl, hslot, hget, hother⟩ := hb.split key
  have hnotin : key ∉ keys c → key ∉ keys (l ++ c :: r).flatten :=
    fun hc => not_mem_keys_middle hc hother
  cases c with
  | nil =>
    have hget : bucket.getD (slot hash bucket.length key) none = none := hget
    cases hp : malloc heap choice with
    | none => exact ⟨.failed, by simp only [insertEntry, hget, hp], .failed (hnotin (by simp))⟩
    | some p =>
      refine ⟨_, by simp only [insertEntry, hget, hp]; rfl, ?_⟩
      rw [← hslot]
      refine hb.concat hslot (hnotin (by simp)) (malloc_spec hp) ?_ fun q _ hq =>
        update_of_ne hq _ _
      exact ⟨⟨_, update_self .., rfl, rfl, rfl⟩, trivial⟩
  | cons x c =>
    obtain ⟨p, d⟩ := x
    have hget : bucket.getD (slot hash bucket.length key) none = some p := hget
    have hlinked := hb.linked ((p, d) :: c) (by simp)
    have hlen : c.length < fuel := by
      rw [flatten_middle] at hfuel
      simp only [length_append, length_cons] at hfuel
      omega
    obtain ⟨res, hres, hspec⟩ := insertLoop_spec bucket choice key value hlinked hlen
    refine ⟨res, by simp only [insertEntry, hget, hres], ?_⟩
    cases hspec with
    | updated pre post q n hc hn =>
      rw [hc] at hb ⊢
      exact hb.setValue value hn
    | failed hkey => exact .failed (hnotin hkey)
    | added init q p' d' n hc hkey hn hp =>
      have hfree := malloc_spec hp
      have hne : q ≠ p' := by
        rintro rfl
        rw [hfree] at hn
        cases hn
      have hset : bucket.set l.length (firstOr (((p, d) :: c) ++ [(p', (key, value))]) none) =
          bucket := by
        rw [hb.heads]
        simp
      have hfresh : p' ∉ ptrs ((p, d) :: c) := fun h =>
        hb.not_mem_of_none hfree (mem_ptrs_middle.mpr (.inr h))
      have hq : q ∉ ptrs init := by
        have hnodup := hb.chain_nodup
        rw [hc, ptrs, map_append] at hnodup
        exact fun h => (nodup_append.mp hnodup).2.2 q h q (by simp) rfl
      obtain ⟨n', hn', hdata, hprev, -⟩ := (hc ▸ hlinked :
        Linked heap none (init ++ (q, d') :: [])).node
      rw [hn] at hn'
      cases hn'
      -- the last entry points to the new one, which points back to it
      have hnew : Linked (update (update heap p'
          (some ⟨key, value, some q, none⟩)) q (some { n with next := some p' })) none
          (((p, d) :: c) ++ [(p', (key, value))]) := by
        rw [hc] at hlinked hfresh ⊢
        refine (dlseg_append none (init ++ [(q, d')]) _ none).mpr ⟨?_, ?_, trivial⟩
        · exact (hlinked.update hfresh _).setAfter hq hdata hprev rfl
        · refine ⟨⟨key, value, some q, none⟩, ?_, rfl, (lastOr_concat none init (q, d')).symm, rfl⟩
          rw [update_of_ne hne.symm, update_self]
      have hadded := hb.concat hslot (hnotin hkey) hfree hnew fun s hs hsp => ?_
      · rwa [hset] at hadded
      · have hsq : s ≠ q := by
          rintro rfl
          rw [hc] at hs
          exact hs (by simp)
        rw [update_of_ne hsq, update_of_ne hsp]

end HashMap

end Halo
