import Halo.Base.Table
import Halo.Hashmap.Buckets

/-!
# The hash map is a finite map

* `SpecStep`, `SpecRun`: the operations of a finite map, where a `Set` of a new key may fail.
* `Represents hash m t`: the hash map `m` has the contents of the finite map `t`, in well-formed
  chains.
* `get_spec`, `set_spec`, `del_spec`, `clear_spec`: the operations return and keep the
  representation. `grow_spec` says that `Grow` keeps the contents, whether it completes or not.
* `hashMap_refines`: every sequence of operations returns what a finite map returns.
-/

namespace Halo

open List

/-- The operations of a finite map. A `Set` that fails leaves it as it was, and only a `Set` of a
new key fails. -/
inductive SpecStep {K V : Type} [DecidableEq K] :
    Table K V → MapEvent K V → MapResult V → Table K V → Prop
  | get (t : Table K V) (key : K) : SpecStep t (.get key) (.value (t.lookup key)) t
  | set (t : Table K V) (alloc : SetAlloc) (key : K) (value : V) :
      SpecStep t (.set alloc key value) (.ok true) (t.insert key value)
  | setFailed (t : Table K V) (alloc : SetAlloc) (key : K) (value : V)
      (hkey : t.lookup key = none) :
      SpecStep t (.set alloc key value) (.ok false) t
  | del (t : Table K V) (key : K) : SpecStep t (.del key) .unit (t.erase key)
  | clear (t : Table K V) : SpecStep t .clear .unit ∅
  | len (t : Table K V) : SpecStep t .len (.count t.entries.length) t

/-- A sequence of operations of a finite map with what they return. -/
inductive SpecRun {K V : Type} [DecidableEq K] :
    Table K V → List (MapEvent K V) → List (MapResult V) → Table K V → Prop
  | nil (t : Table K V) : SpecRun t [] [] t
  | cons {t t' t'' : Table K V} {e : MapEvent K V} {r : MapResult V} {es : List (MapEvent K V)}
      {rs : List (MapResult V)} (hstep : SpecStep t e r t') (hrun : SpecRun t' es rs t'') :
      SpecRun t (e :: es) (r :: rs) t''

namespace HashMap

variable {K V : Type} {hash : K → UInt64} {m : HashMap K V} {cs ds : List (Chain K V)}

/-- The map has the chains `cs`, and no other memory. -/
structure Rep (hash : K → UInt64) (m : HashMap K V) (cs : List (Chain K V)) : Prop where
  buckets : Buckets hash m.heap m.bucket cs
  len_eq : m.len = cs.flatten.length
  dom : ∀ p, m.heap p ≠ none → p ∈ ptrs cs.flatten

variable {heap : Heap (MapEntry K V)} {bucket : List (Option Nat)} {l r : List (Chain K V)}
  {pre post done : Chain K V} {q fuel : Nat} {g : Growing K V} {key : K} {value : V}

theorem Buckets.nodupKeys (hb : Buckets hash heap bucket cs) : (contents cs.flatten).NodupKeys := by
  rw [List.NodupKeys, keys_contents]
  exact hb.keys_nodup

/-- All entries are freed. -/
theorem clear_spec (hm : Rep hash m cs) :
    ∃ m', m.clear = some m' ∧ Rep hash m' (cs.map fun _ => []) := by
  have hfree : freeChains (m.len + 1) m.heap m.bucket =
      some (eraseAll m.heap (ptrs cs.flatten)) := by
    rw [hm.buckets.heads]
    exact freeChains_spec hm.buckets.linked hm.buckets.ptrs_nodup (by rw [hm.len_eq]; omega)
  have hnil : (cs.map fun _ => ([] : Chain K V)) = List.replicate cs.length [] := map_const' ..
  refine ⟨_, by rw [clear, hfree]; rfl, ?_⟩
  rw [hnil]
  constructor
  · have := buckets_replicate hash (eraseAll m.heap (ptrs cs.flatten)) hm.buckets.pos
      hm.buckets.fits
    rwa [← hm.buckets.length_eq, ← map_const', hm.buckets.length_eq] at this
  · simp
  · intro p hp
    dsimp only at hp
    by_cases hmem : p ∈ ptrs cs.flatten
    · exact absurd (eraseAll_of_mem hmem) hp
    · rw [eraseAll_of_not_mem hmem] at hp
      exact absurd (hm.dom p hp) hmem

/-- The array without one entry of the chain `pre ++ x :: post`. -/
theorem Rep.remove {d : K × V} {heap' : Heap (MapEntry K V)}
    (hm : Rep hash m (l ++ (pre ++ (q, d) :: post) :: r))
    (hlinked : Linked (free heap' q) none (pre ++ post))
    (hframe : ∀ p, p ∉ ptrs (pre ++ (q, d) :: post) → heap' p = m.heap p) :
    Rep hash ⟨m.bucket.set l.length (firstOr (pre ++ post) none), m.len - 1, free heap' q⟩
        (l ++ (pre ++ post) :: r) ∧
      (l ++ (pre ++ (q, d) :: post) :: r).flatten.Perm
        ((q, d) :: (l ++ (pre ++ post) :: r).flatten) := by
  have hb := hm.buckets
  have hperm : (l ++ (pre ++ (q, d) :: post) :: r).flatten.Perm
      ((q, d) :: (l ++ (pre ++ post) :: r).flatten) := by
    rw [flatten_middle, flatten_middle]
    simp only [append_assoc, cons_append]
    rw [← append_assoc l.flatten, ← append_assoc l.flatten]
    exact perm_middle
  obtain ⟨hq, hptrs⟩ := nodup_cons.mp ((hperm.map Prod.fst).nodup_iff.mp hb.ptrs_nodup)
  obtain ⟨-, hkeys⟩ := nodup_cons.mp ((hperm.map fun x => x.2.1).nodup_iff.mp hb.keys_nodup)
  have hfree : ∀ p, p ≠ q → free heap' q p = heap' p := fun p hp => Function.update_of_ne hp _ _
  refine ⟨⟨hb.replace hlinked (fun p hp => ?_) hptrs hkeys fun x hx => ?_, ?_, ?_⟩, hperm⟩
  · dsimp only
    rw [hfree p, hframe p (hb.not_mem_chain hp)]
    rintro rfl
    exact hb.not_mem_chain hp (by simp)
  · refine hb.placed_chain x ?_
    rw [mem_append] at hx ⊢
    exact hx.imp_right (mem_cons_of_mem _)
  · rw [hm.len_eq, hperm.length_eq]
    rfl
  · intro p hp
    have hpq : p ≠ q := by
      rintro rfl
      exact hp (Function.update_self ..)
    dsimp only at hp
    rw [hfree p hpq] at hp
    have hmem : p ∈ ptrs (l ++ (pre ++ (q, d) :: post) :: r).flatten := by
      by_cases hpc : p ∈ ptrs (pre ++ (q, d) :: post)
      · exact mem_ptrs_middle.mpr (.inr hpc)
      · exact hm.dom p (hframe p hpc ▸ hp)
    rcases mem_cons.mp ((hperm.map Prod.fst).mem_iff.mp hmem) with h | h
    · exact absurd h hpq
    · exact h

/-! ## Grow -/

/-- The state of `Grow` after it has inserted the entries `done` of the chains `cs`: the new array
has the chains `ds`, the old chains are as they were, and there is no other memory. -/
structure GrowInv (hash : K → UInt64) (cs : List (Chain K V)) (done : Chain K V) (g : Growing K V)
    (ds : List (Chain K V)) : Prop where
  old : ∀ c ∈ cs, Linked g.heap none c
  new : Buckets hash g.heap g.bucket ds
  disjoint : ∀ p ∈ ptrs ds.flatten, p ∉ ptrs cs.flatten
  dom : ∀ p, g.heap p ≠ none → p ∈ ptrs cs.flatten ∨ p ∈ ptrs ds.flatten
  len_eq : g.len = ds.flatten.length
  same : (contents ds.flatten).Perm (contents done)

theorem GrowInv.length_eq (h : GrowInv hash cs done g ds) : ds.flatten.length = done.length := by
  have hlen := h.same.length_eq
  rwa [contents, contents, length_map, length_map] at hlen

theorem GrowInv.mem_keys_iff (h : GrowInv hash cs done g ds) (key : K) :
    key ∈ keys ds.flatten ↔ key ∈ keys done := by
  have hkeys := (h.same.map Sigma.fst).mem_iff (a := key)
  simpa [keys] using hkeys

/-- The entries of the old chains are allocated. -/
theorem GrowInv.not_mem_old (h : GrowInv hash cs done g ds) {p : Nat} (hp : g.heap p = none) :
    p ∉ ptrs cs.flatten := by
  intro hmem
  obtain ⟨⟨q, d⟩, hx, rfl⟩ := mem_map.mp hmem
  obtain ⟨c, hc, hxc⟩ := mem_flatten.mp hx
  obtain ⟨n, hn, -⟩ := (h.old c hc).mem hxc
  rw [hp] at hn
  cases hn

/-- The memory that is left after that of `ps` is freed. -/
theorem eraseAll_dom {ps qs : List Nat} (hdom : ∀ p, heap p ≠ none → p ∈ ps ∨ p ∈ qs) :
    ∀ p, eraseAll heap ps p ≠ none → p ∈ qs := by
  intro p hp
  by_cases hmem : p ∈ ps
  · exact absurd (eraseAll_of_mem hmem) hp
  · rw [eraseAll_of_not_mem hmem] at hp
    exact (hdom p hp).resolve_left hmem

variable [DecidableEq K]

theorem kerase_contents_cons (q : Nat) (key : K) (value : V) (c : Chain K V) :
    (contents ((q, (key, value)) :: c)).kerase key = contents c :=
  kerase_cons_eq rfl

/-- The callback inserts a new key, or there is no memory. -/
theorem growEntry_spec (h : GrowInv hash cs done g ds) (x : Nat × (K × V))
    (hkey : x.2.1 ∉ keys done) (hfuel : done.length < fuel) :
    ∃ g' ok, growEntry hash fuel g x.2.1 x.2.2 = some (g', ok) ∧
      if ok then ∃ ds', GrowInv hash cs (done ++ [x]) g' ds' else g' = g := by
  obtain ⟨res, hres, hspec⟩ := insertEntry_spec h.new (g.choices.headD none) x.2.1 x.2.2
    (h.length_eq ▸ hfuel)
  cases hspec with
  | failed =>
    refine ⟨g, false, ?_, ?_⟩
    · unfold growEntry
      rw [hres]
      rfl
    · rw [if_neg (by simp)]
  | updated heap' cs' old rest q hb hptrs hold hnew hframe =>
    -- the key would be one of those already inserted
    have hmem : x.2.1 ∈ keys ds.flatten := by
      have := (hold.map fun y => y.2.1).mem_iff (a := x.2.1)
      exact this.mpr (by simp)
    exact absurd ((h.mem_keys_iff _).mp hmem) hkey
  | added heap' bucket' cs' p hb hnotin hp hnew hframe =>
    refine ⟨⟨bucket', g.len + 1, heap', g.choices.tail⟩, true, ?_, ?_⟩
    · unfold growEntry
      rw [hres]
      rfl
    rw [if_pos rfl]
    have hmem : ∀ q, q ∈ ptrs cs'.flatten ↔ q = p ∨ q ∈ ptrs ds.flatten := by
      intro q
      have := (hnew.map Prod.fst).mem_iff (a := q)
      simpa [ptrs] using this
    have hpold := h.not_mem_old hp
    refine ⟨cs', ?_, hb, ?_, ?_, ?_, ?_⟩
    · intro c hc
      refine (h.old c hc).congr fun q hq => hframe q (fun hqd => ?_) ?_
      · obtain ⟨y, hy, rfl⟩ := mem_map.mp hq
        exact h.disjoint _ hqd (mem_map_of_mem (mem_flatten_of_mem hc hy))
      · rintro rfl
        obtain ⟨y, hy, hyq⟩ := mem_map.mp hq
        exact hpold (hyq ▸ mem_map_of_mem (mem_flatten_of_mem hc hy))
    · intro q hq
      rcases (hmem q).mp hq with rfl | hq
      · exact hpold
      · exact h.disjoint q hq
    · intro q hq
      by_cases hqp : q = p
      · exact .inr ((hmem q).mpr (.inl hqp))
      by_cases hqd : q ∈ ptrs ds.flatten
      · exact .inr ((hmem q).mpr (.inr hqd))
      · exact (h.dom q (hframe q hqd hqp ▸ hq)).imp_right fun hd => absurd hd hqd
    · rw [hnew.length_eq, length_cons, h.len_eq]
    · refine ((contents_perm hnew).trans (h.same.cons _)).trans ?_
      rw [contents, contents, map_append, map_cons, map_nil]
      exact (perm_append_singleton _ _).symm

/-- `For` over the rest `suf` of an old chain with the callback of `Grow`. -/
theorem growChain_spec {cf : Nat} {suf : Chain K V} (h : GrowInv hash cs done g ds)
    (hc : pre ++ suf ∈ cs) (hkeys : (keys (done ++ suf)).Nodup) (hcf : (done ++ suf).length < cf)
    (hfuel : suf.length ≤ fuel) :
    ∃ g' ok, growChain hash cf fuel g (firstOr suf none) = some (g', ok) ∧
      ∃ done' ds', GrowInv hash cs done' g' ds' ∧ done'.length < cf ∧
        (ok = true → done' = done ++ suf) := by
  induction suf generalizing pre done g ds fuel with
  | nil =>
    refine ⟨g, true, by cases fuel <;> rfl, done, ds, h, by simpa using hcf, fun _ => by simp⟩
  | cons x suf ih =>
    obtain ⟨p, d⟩ := x
    obtain ⟨fuel, rfl⟩ := Nat.exists_eq_add_one.mpr (Nat.zero_lt_of_lt hfuel)
    obtain ⟨n, hn, hdata, -, hnext⟩ := (h.old _ hc).node
    have hnext : n.next = firstOr suf none := hnext
    have hkey : d.1 ∉ keys done := by
      simp only [keys, map_append, map_cons] at hkeys
      exact fun hmem => (nodup_append.mp hkeys).2.2 d.1 hmem d.1 (by simp) rfl
    simp only [length_append, length_cons] at hcf
    obtain ⟨g₁, ok, hstep, hspec⟩ := growEntry_spec h (p, d) hkey
      (by omega : done.length < cf)
    have hnode : growEntry hash cf g n.key n.value = some (g₁, ok) := by
      have hk : (n.key, n.value) = d := hdata
      rw [← hk] at hstep
      exact hstep
    cases ok with
    | false =>
      have hg : g₁ = g := hspec
      refine ⟨g₁, false, ?_, done, ds, hg ▸ h, by omega, fun h => by cases h⟩
      simp [growChain, firstOr_cons, hn, hnode]
    | true =>
      obtain ⟨ds₁, h₁⟩ : ∃ ds', GrowInv hash cs (done ++ [(p, d)]) g₁ ds' := hspec
      have happ : done ++ [(p, d)] ++ suf = done ++ (p, d) :: suf := by simp
      obtain ⟨g', ok', hrun, done', ds', h', hlen, hdone⟩ := ih h₁
        (by simpa using hc : (pre ++ [(p, d)]) ++ suf ∈ cs) (happ ▸ hkeys)
        (by simp only [happ, length_append, length_cons]; omega)
        (Nat.le_of_succ_le_succ hfuel)
      refine ⟨g', ok', ?_, done', ds', h', hlen, fun hok => (hdone hok).trans happ⟩
      simp [growChain, firstOr_cons, hn, hnode, hnext, hrun]

/-- `For` over the rest `suf` of the old array with the callback of `Grow`. -/
theorem growChains_spec {pre suf : List (Chain K V)} (h : GrowInv hash cs pre.flatten g ds)
    (hcs : cs = pre ++ suf) (hkeys : (keys cs.flatten).Nodup) (hfuel : cs.flatten.length < fuel) :
    ∃ g' ok, growChains hash fuel g (suf.map fun c => firstOr c none) = some (g', ok) ∧
      ∃ done ds', GrowInv hash cs done g' ds' ∧ done.length < fuel ∧
        (ok = true → done = cs.flatten) := by
  induction suf generalizing pre g ds with
  | nil =>
    rw [append_nil] at hcs
    refine ⟨g, true, rfl, pre.flatten, ds, h, hcs ▸ hfuel, fun _ => by rw [hcs]⟩
  | cons c suf ih =>
    have hcs' : cs = (pre ++ [c]) ++ suf := by rw [hcs]; simp
    have hflat : cs.flatten = (pre.flatten ++ c) ++ suf.flatten := by rw [hcs']; simp
    have hkeys' : (keys (pre.flatten ++ c)).Nodup := by
      rw [hflat, keys, map_append] at hkeys
      exact (nodup_append.mp hkeys).1
    rw [hflat, length_append] at hfuel
    obtain ⟨g₁, ok, hrun, done, ds₁, h₁, hlen, hdone⟩ := growChain_spec h
      (by rw [hcs]; simp : [] ++ c ∈ cs) hkeys' (by omega : (pre.flatten ++ c).length < fuel)
      (by rw [length_append] at hfuel; omega : c.length ≤ fuel)
    cases ok with
    | false =>
      refine ⟨g₁, false, ?_, done, ds₁, h₁, hlen, fun h => by cases h⟩
      simp [growChains, hrun]
    | true =>
      have hdone : done = (pre ++ [c]).flatten := by rw [hdone rfl]; simp
      obtain ⟨g', ok', hrest, hspec⟩ := ih (hdone ▸ h₁) hcs'
      refine ⟨g', ok', ?_, hspec⟩
      simp [growChains, hrun, hrest]

/-- `Grow` keeps the contents: it completes with new chains, or it releases them. -/
theorem grow_spec (hm : Rep hash m cs) (alloc : SetAlloc) :
    ∃ m', grow hash m alloc = some m' ∧ ∃ cs', Rep hash m' cs' ∧
      (contents cs'.flatten).Perm (contents cs.flatten) := by
  unfold grow
  split
  · exact ⟨m, rfl, cs, hm, .refl _⟩
  rename_i hfits
  have hb := hm.buckets
  have hsize : m.bucket.length * 2 < 2 ^ 61 := by
    simp only [bucketFits, Bool.and_eq_true, decide_eq_true_eq, not_not] at hfits
    omega
  have hpos : 0 < m.bucket.length * 2 := by
    rw [hb.length_eq]
    have := hb.pos
    omega
  have hempty := buckets_replicate hash m.heap hpos hsize
  have hinit : GrowInv hash cs ([] : List (Chain K V)).flatten
      ⟨List.replicate (m.bucket.length * 2) none, 0, m.heap, alloc.growEntries⟩
      (List.replicate (m.bucket.length * 2) []) :=
    ⟨hb.linked, hempty, by simp, fun p hp => .inl (hm.dom p hp), by simp, by simp⟩
  obtain ⟨g, ok, hrun, done, ds, hinv, hlen, hdone⟩ := growChains_spec hinit rfl hb.keys_nodup
    (by rw [hm.len_eq]; omega : cs.flatten.length < m.len + 1)
  rw [← hb.heads] at hrun
  simp only [hrun, Option.bind_eq_bind, Option.bind_some]
  cases ok with
  | true =>
    rw [if_pos rfl]
    have hfree : freeChains (m.len + 1) g.heap m.bucket =
        some (eraseAll g.heap (ptrs cs.flatten)) := by
      rw [hb.heads]
      exact freeChains_spec hinv.old hb.ptrs_nodup (by rw [hm.len_eq]; omega)
    refine ⟨_, by simp only [clear, hfree]; rfl, ds, ⟨?_, hinv.len_eq, ?_⟩, ?_⟩
    · exact hinv.new.congr fun p hp => eraseAll_of_not_mem (hinv.disjoint p hp)
    · exact eraseAll_dom hinv.dom
    · rw [← hdone rfl]
      exact hinv.same
  | false =>
    rw [if_neg (by simp)]
    have hfree : freeChains (m.len + 1) g.heap g.bucket =
        some (eraseAll g.heap (ptrs ds.flatten)) := by
      rw [hinv.new.heads]
      exact freeChains_spec hinv.new.linked hinv.new.ptrs_nodup
        (by rw [hinv.length_eq]; omega)
    refine ⟨{ m with heap := eraseAll g.heap (ptrs ds.flatten) }, by rw [hfree]; rfl, cs,
      ⟨⟨hb.heads, fun c hc => ?_, hb.ptrs_nodup, hb.keys_nodup, hb.placed, hb.pos, hb.fits⟩,
        hm.len_eq, ?_⟩, .refl _⟩
    · refine linked_eraseAll (hinv.old c hc) fun p hp hpd => hinv.disjoint p hpd ?_
      obtain ⟨x, hx, rfl⟩ := mem_map.mp hp
      exact mem_map_of_mem (mem_flatten_of_mem hc hx)
    · exact eraseAll_dom fun p hp => (hinv.dom p hp).symm

/-! ## The operations -/

theorem get_spec (hm : Rep hash m cs) (key : K) :
    m.get hash key = some ((contents cs.flatten).dlookup key) := by
  obtain ⟨l, c, r, rfl, hslot, hget, hother⟩ := hm.buckets.split key
  have hnone : ∀ d : Chain K V, (∀ x ∈ d, x.2.1 ≠ key) → (contents d).dlookup key = none := by
    intro d hd
    rw [dlookup_eq_none, keys_contents]
    intro hmem
    obtain ⟨x, hx, hxk⟩ := mem_map.mp hmem
    exact hd x hx hxk
  have hlook : (contents (l ++ c :: r).flatten).dlookup key = (contents c).dlookup key := by
    rw [flatten_middle, contents, map_append, map_append, dlookup_append,
      dlookup_append, hnone l.flatten fun x hx => hother x (mem_append_left _ hx),
      hnone r.flatten fun x hx => hother x (mem_append_right _ hx), Option.none_or,
      Option.or_none]
  unfold get
  rw [hget, hlook]
  cases c with
  | nil => rfl
  | cons x c =>
    obtain ⟨p, d⟩ := x
    refine getLoop_spec (hm.buckets.linked ((p, d) :: c) (by simp)) ?_
    rw [hm.len_eq, flatten_middle]
    simp only [length_append, length_cons]
    omega

/-- What `Set` does to the contents. -/
theorem set_spec (hm : Rep hash m cs) (alloc : SetAlloc) (key : K) (value : V) :
    ∃ m' ok, m.set hash alloc key value = some (m', ok) ∧ ∃ cs', Rep hash m' cs' ∧
      if ok then (contents cs'.flatten).Perm (⟨key, value⟩ :: (contents cs.flatten).kerase key)
      else m' = m ∧ key ∉ keys cs.flatten := by
  obtain ⟨res, hres, hspec⟩ := insertEntry_spec hm.buckets alloc.entry key value
    (by rw [hm.len_eq]; omega : cs.flatten.length < m.len + 1)
  cases hspec with
  | failed hkey =>
    refine ⟨m, false, ?_, cs, hm, ?_⟩
    · unfold set
      rw [hres]
      rfl
    · rw [if_neg (by simp)]
      exact ⟨rfl, hkey⟩
  | updated heap' cs' old rest q hb hptrs hold hnew hframe =>
    refine ⟨{ m with heap := heap' }, true, ?_, cs', ⟨hb, ?_, ?_⟩, ?_⟩
    · unfold set
      rw [hres]
      rfl
    · rw [hm.len_eq, hold.length_eq, hnew.length_eq]
      rfl
    · intro p hp
      rw [hptrs]
      by_cases hmem : p ∈ ptrs cs.flatten
      · exact hmem
      · exact hm.dom p (hframe p hmem ▸ hp)
    · rw [if_pos rfl]
      have herase := (contents_perm hold).kerase hm.buckets.nodupKeys (a := key)
      rw [kerase_contents_cons] at herase
      exact (contents_perm hnew).trans (herase.symm.cons _)
  | added heap' bucket' cs' p hb hkey hp hnew hframe =>
    have hrep : Rep hash ⟨bucket', m.len + 1, heap'⟩ cs' := by
      refine ⟨hb, ?_, ?_⟩
      · rw [hnew.length_eq, length_cons, hm.len_eq]
      · intro q hq
        refine (hnew.map Prod.fst).mem_iff.mpr ?_
        by_cases hqp : q = p
        · exact hqp ▸ mem_cons_self
        by_cases hmem : q ∈ ptrs cs.flatten
        · exact mem_cons_of_mem _ hmem
        · exact mem_cons_of_mem _ (hm.dom q (hframe q hmem hqp ▸ hq))
    have hcontents : (contents cs'.flatten).Perm
        (⟨key, value⟩ :: (contents cs.flatten).kerase key) := by
      rw [kerase_of_notMem_keys (by rw [keys_contents]; exact hkey)]
      exact contents_perm hnew
    by_cases hgrow : m.len + 1 > bucket'.length * 3 / 4
    · obtain ⟨m', hm', cs'', hrep', hsame⟩ := grow_spec hrep alloc
      refine ⟨m', true, ?_, cs'', hrep', ?_⟩
      · unfold set
        simp only [hres, Option.bind_eq_bind, Option.bind_some]
        rw [if_pos hgrow, hm']
        rfl
      · rw [if_pos rfl]
        exact hsame.trans hcontents
    · refine ⟨_, true, ?_, cs', hrep, ?_⟩
      · unfold set
        simp only [hres, Option.bind_eq_bind, Option.bind_some]
        rw [if_neg hgrow]
        rfl
      · rw [if_pos rfl]
        exact hcontents

/-- The search for the place of a key fails for want of memory only, and adds an entry only if there
is memory. All other entries are old ones. -/
def MallocDecides (heap : Heap (MapEntry K V)) (choice : Option Nat) : Inserted K V → Prop
  | .failed => malloc heap choice = none
  | .updated heap' => ∀ p, heap' p ≠ none → heap p ≠ none
  | .added _ heap' => ∃ q, malloc heap choice = some q ∧ ∀ p, heap' p ≠ none → p = q ∨ heap p ≠ none

omit [DecidableEq K] in
theorem eq_or_ne_none {p : Nat} {n : MapEntry K V} (h : Function.update heap q (some n) p ≠ none) :
    p = q ∨ heap p ≠ none := by
  by_cases hpq : p = q
  · exact .inl hpq
  · rw [Function.update_of_ne hpq] at h
    exact .inr h

theorem insertLoop_malloc {choice : Option Nat} {e : Nat} {res : Inserted K V}
    (h : insertLoop bucket heap choice key value fuel e = some res) :
    MallocDecides heap choice res := by
  induction fuel generalizing e with
  | zero => cases h
  | succ fuel ih =>
    simp only [insertLoop, Option.bind_eq_bind, Option.bind_eq_some_iff] at h
    obtain ⟨n, hn, h⟩ := h
    have he : ∀ p, p = e → heap p ≠ none := by
      rintro p rfl
      simp [hn]
    split at h
    · cases h
      exact fun p hp => (eq_or_ne_none hp).elim (he p) id
    · split at h
      · split at h
        · rename_i hnone
          cases h
          exact hnone
        · rename_i q hq
          cases h
          exact ⟨q, hq, fun p hp => (eq_or_ne_none hp).elim (.inr ∘ he p) eq_or_ne_none⟩
      · exact ih h

theorem insertEntry_malloc {choice : Option Nat} {res : Inserted K V}
    (h : insertEntry hash bucket heap choice fuel key value = some res) :
    MallocDecides heap choice res := by
  unfold insertEntry at h
  dsimp only at h
  split at h
  · split at h
    · rename_i hnone
      cases h
      exact hnone
    · rename_i q hq
      cases h
      exact ⟨q, hq, fun p => eq_or_ne_none⟩
  · exact insertLoop_malloc h

/-- A `Set` of a new key succeeds if there is memory for the entry. -/
theorem set_new (hm : Rep hash m cs) {alloc : SetAlloc} {m' : HashMap K V} {ok : Bool}
    (hkey : key ∉ keys cs.flatten) (hset : m.set hash alloc key value = some (m', ok)) :
    ok = true ↔ malloc m.heap alloc.entry ≠ none := by
  obtain ⟨res, hres, hspec⟩ := insertEntry_spec hm.buckets alloc.entry key value
    (by rw [hm.len_eq]; omega : cs.flatten.length < m.len + 1)
  have hmalloc := insertEntry_malloc hres
  simp only [set, hres, Option.bind_eq_bind, Option.bind_some] at hset
  cases hspec with
  | failed =>
    cases hset
    exact ⟨nofun, fun hne => absurd hmalloc hne⟩
  | updated heap' cs' old rest q hb hptrs hold hnew hframe =>
    exact absurd ((hold.map fun y => y.2.1).mem_iff.mpr (by simp)) hkey
  | added heap' bucket' cs' p hb hnotin hp hnew hframe =>
    obtain ⟨q, hq, -⟩ := hmalloc
    refine iff_of_true ?_ (by simp [hq])
    dsimp only at hset
    split at hset
    · simp only [Option.bind_eq_some_iff] at hset
      obtain ⟨m₁, -, heq⟩ := hset
      cases heq
      rfl
    · cases hset
      rfl

/-- What `Del` does to the contents. -/
def Deleted (hash : K → UInt64) (cs : List (Chain K V)) (key : K) (m' : HashMap K V) : Prop :=
  ∃ cs', Rep hash m' cs' ∧ (contents cs'.flatten).Perm ((contents cs.flatten).kerase key)

/-- The chains without the entry of a key. -/
def without (key : K) (cs : List (Chain K V)) : List (Chain K V) :=
  cs.map fun c => c.filter fun x => x.2.1 ≠ key

theorem filter_ne_key {c : Chain K V} (hkey : ∀ x ∈ c, x.2.1 ≠ key) :
    (c.filter fun x => x.2.1 ≠ key) = c :=
  filter_eq_self.mpr fun x hx => decide_eq_true (hkey x hx)

theorem without_of_forall (hkey : ∀ x ∈ cs.flatten, x.2.1 ≠ key) : without key cs = cs := by
  refine (map_congr_left fun c hc => ?_).trans (map_id cs)
  exact filter_ne_key fun x hx => hkey x (mem_flatten_of_mem hc hx)

theorem without_of_not_mem (hkey : key ∉ keys cs.flatten) : without key cs = cs :=
  without_of_forall fun x hx heq => hkey (mem_map.mpr ⟨x, hx, heq⟩)

/-- The entry of a key, taken out of its chain. -/
theorem without_middle
    (hkeys : (keys (l ++ (pre ++ (q, (key, value)) :: post) :: r).flatten).Nodup) :
    without key (l ++ (pre ++ (q, (key, value)) :: post) :: r) = l ++ (pre ++ post) :: r := by
  have hother : ∀ x ∈ (l ++ (pre ++ post) :: r).flatten, x.2.1 ≠ key := by
    have hperm : (keys (l ++ (pre ++ (q, (key, value)) :: post) :: r).flatten).Perm
        (key :: keys (l ++ (pre ++ post) :: r).flatten) := by
      simp only [keys, flatten_middle, map_append, map_cons, append_assoc, cons_append]
      rw [← append_assoc, ← append_assoc (l.flatten.map _)]
      exact perm_middle
    intro x hx heq
    exact (nodup_cons.mp (hperm.nodup_iff.mp hkeys)).1 (mem_map.mpr ⟨x, hx, heq⟩)
  have hkeep := without_of_forall hother
  simp only [without, map_append, map_cons, filter_append] at hkeep ⊢
  rwa [filter_cons_of_neg (by simp)]

/-- With every key at most once, the first entry of a key is all of them. -/
theorem kerase_eq_filter {l : List (Σ _ : K, V)} (hl : l.NodupKeys) (key : K) :
    l.kerase key = l.filter fun x => x.1 ≠ key := by
  induction l with
  | nil => rfl
  | cons x l ih =>
    obtain ⟨hx, hl⟩ := nodupKeys_cons.mp hl
    by_cases hkey : key = x.1
    · rw [kerase_cons_eq hkey, filter_cons_of_neg (by simp [hkey])]
      refine (filter_eq_self.mpr fun y hy => decide_eq_true ?_).symm
      rintro rfl
      exact hx (hkey ▸ mem_map_of_mem hy)
    · rw [kerase_cons_ne hkey, ih hl, filter_cons_of_pos (by simpa using Ne.symm hkey)]

theorem Rep.deleted {m' : HashMap K V} (hm : Rep hash m cs) (hm' : Rep hash m' (without key cs)) :
    Deleted hash cs key m' := by
  refine ⟨_, hm', .of_eq ?_⟩
  rw [kerase_eq_filter hm.buckets.nodupKeys, without, ← filter_flatten, contents, filter_map]
  rfl

/-- The loop of `Del` at the entry of the key, behind another entry. -/
theorem delLoop_found {f : Nat} {e : K × V}
    (hm : Rep hash m (l ++ (pre ++ (f, e) :: (q, (key, value)) :: post) :: r)) :
    ∃ m', delLoop m key (fuel + 1) q = some m' ∧
      Rep hash m' (without key (l ++ (pre ++ (f, e) :: (q, (key, value)) :: post) :: r)) := by
  have hsplit : ∀ c : Chain K V, pre ++ (f, e) :: c = (pre ++ [(f, e)]) ++ c := fun c => by simp
  have hlinked := hm.buckets.linked (pre ++ (f, e) :: (q, (key, value)) :: post) (by simp)
  obtain ⟨n, hn, hdata, -⟩ := (hsplit _ ▸ hlinked :
    Linked m.heap none ((pre ++ [(f, e)]) ++ (q, (key, value)) :: post)).node
  have hkey : n.key = key := congrArg Prod.fst hdata
  rw [hsplit] at hm hlinked ⊢
  obtain ⟨heap₁, heap₂, hmod₁, hmod₂, hfree, hframe⟩ :=
    unlink_spec hlinked hm.buckets.chain_nodup hn
  refine ⟨⟨m.bucket, m.len - 1, free heap₂ q⟩, ?_, ?_⟩
  · simp only [delLoop, hn, hkey, hmod₁, hmod₂, Option.bind_eq_bind, Option.bind_some, if_true]
    rfl
  · have hset : m.bucket.set l.length (firstOr ((pre ++ [(f, e)]) ++ post) none) = m.bucket := by
      rw [hm.buckets.heads]
      cases pre <;> simp
    obtain ⟨hm', -⟩ := hm.remove hfree hframe
    rwa [hset, ← without_middle hm.buckets.keys_nodup] at hm'

/-- The loop of `Del` behind the entries `pre` and `f` of a chain, of which none has the key. -/
theorem delLoop_spec {suf : Chain K V} {p f : Nat} {d e : K × V}
    (hm : Rep hash m (l ++ (pre ++ (f, e) :: (p, d) :: suf) :: r))
    (hpre : key ∉ keys (pre ++ [(f, e)])) (hother : ∀ x ∈ l.flatten ++ r.flatten, x.2.1 ≠ key)
    (hfuel : suf.length < fuel) :
    ∃ m', delLoop m key fuel p = some m' ∧
      Rep hash m' (without key (l ++ (pre ++ (f, e) :: (p, d) :: suf) :: r)) := by
  induction suf generalizing pre f e p d fuel with
  | nil =>
    obtain ⟨fuel, rfl⟩ := Nat.exists_eq_add_one.mpr hfuel
    by_cases hkey : d.1 = key
    · obtain ⟨k, value⟩ := d
      cases hkey
      exact delLoop_found hm
    · have hlinked := hm.buckets.linked (pre ++ (f, e) :: [(p, d)]) (by simp)
      have hsplit : pre ++ (f, e) :: [(p, d)] = (pre ++ [(f, e)]) ++ [(p, d)] := by simp
      rw [hsplit] at hlinked
      obtain ⟨n, hn, hdata, -, hnext⟩ := hlinked.node
      have hnext : n.next = none := hnext
      have hn' : n.key ≠ key := fun h => hkey ((congrArg Prod.fst hdata).symm.trans h)
      refine ⟨m, by simp [delLoop, hn, hn', hnext], ?_⟩
      rwa [without_of_not_mem]
      refine not_mem_keys_middle ?_ hother
      rw [hsplit, keys, map_append, mem_append, not_or]
      exact ⟨hpre, by simpa using Ne.symm hkey⟩
  | cons x suf ih =>
    obtain ⟨q, d'⟩ := x
    obtain ⟨fuel, rfl⟩ := Nat.exists_eq_add_one.mpr (Nat.zero_lt_of_lt hfuel)
    by_cases hkey : d.1 = key
    · obtain ⟨k, value⟩ := d
      cases hkey
      exact delLoop_found hm
    · have hsplit : pre ++ (f, e) :: (p, d) :: (q, d') :: suf =
          (pre ++ [(f, e)]) ++ (p, d) :: (q, d') :: suf := by simp
      rw [hsplit] at hm ⊢
      have hlinked := hm.buckets.linked ((pre ++ [(f, e)]) ++ (p, d) :: (q, d') :: suf) (by simp)
      obtain ⟨n, hn, hdata, -, hnext⟩ := hlinked.node
      have hnext : n.next = some q := hnext
      have hn' : n.key ≠ key := fun h => hkey ((congrArg Prod.fst hdata).symm.trans h)
      have hpre' : key ∉ keys ((pre ++ [(f, e)]) ++ [(p, d)]) := by
        rw [keys, map_append, mem_append, not_or]
        exact ⟨hpre, by simpa using Ne.symm hkey⟩
      obtain ⟨m', hrun, hspec⟩ := ih hm hpre' (Nat.lt_of_succ_lt_succ hfuel)
      exact ⟨m', by simp [delLoop, hn, hn', hnext, hrun], hspec⟩

/-- `Del` takes the entry of the key out of its chain and leaves the others where they are. -/
theorem del_chains (hm : Rep hash m cs) (key : K) :
    ∃ m', m.del hash key = some m' ∧ Rep hash m' (without key cs) := by
  obtain ⟨l, c, r, rfl, hslot, hget, hother⟩ := hm.buckets.split key
  cases c with
  | nil =>
    have hget : m.bucket.getD (slot hash m.bucket.length key) none = none := hget
    refine ⟨m, by simp only [del, hget], ?_⟩
    rwa [without_of_not_mem (not_mem_keys_middle (by simp) hother)]
  | cons x c =>
    obtain ⟨p, d⟩ := x
    have hget : m.bucket.getD (slot hash m.bucket.length key) none = some p := hget
    have hlinked := hm.buckets.linked ((p, d) :: c) (by simp)
    obtain ⟨⟨n, hn, hdata, hfront, hnext⟩, -⟩ := id hlinked
    have hnext : n.next = firstOr c none := hnext
    by_cases hkey : d.1 = key
    · -- the first entry of the chain has the key
      have hn' : n.key = key := (congrArg Prod.fst hdata).trans hkey
      have hm₀ : Rep hash m (l ++ ([] ++ (p, d) :: c) :: r) := hm
      obtain ⟨heap₁, heap', hmod₁, hmod, hfree, hframe⟩ :=
        unlink_spec (hm₀.buckets.linked _ (by simp)) hm₀.buckets.chain_nodup hn
      have hfront : n.front = none := hfront
      rw [hfront] at hmod₁ hmod
      cases hmod₁
      obtain ⟨hm', -⟩ := hm₀.remove hfree hframe
      refine ⟨⟨m.bucket.set l.length (firstOr c none), m.len - 1, free heap' p⟩, ?_, ?_⟩
      · unfold del
        dsimp only
        rw [hget]
        dsimp only
        simp only [hn, hn', hmod, Option.bind_eq_bind, Option.bind_some, if_true]
        rw [hnext, hslot]
        rfl
      · obtain ⟨k, value⟩ := d
        cases hkey
        rwa [← without_middle hm₀.buckets.keys_nodup] at hm'
    · have hn' : n.key ≠ key := fun h => hkey ((congrArg Prod.fst hdata).symm.trans h)
      -- the loop visits the first entry once more
      have hdel : m.del hash key = delLoop m key (m.len + 1) p := by
        unfold del
        dsimp only
        rw [hget]
        simp [hn, hn']
      have hlen : c.length + 1 ≤ m.len := by
        rw [hm.len_eq, flatten_middle]
        simp only [length_append, length_cons]
        omega
      rw [hdel]
      cases c with
      | nil =>
        have hnext : n.next = none := hnext
        refine ⟨m, by simp [delLoop, hn, hn', hnext], ?_⟩
        rwa [without_of_not_mem (not_mem_keys_middle (by simpa using Ne.symm hkey) hother)]
      | cons y c =>
        obtain ⟨q, d'⟩ := y
        have hnext : n.next = some q := hnext
        have hm₀ : Rep hash m (l ++ ([] ++ (p, d) :: (q, d') :: c) :: r) := hm
        obtain ⟨m', hrun, hspec⟩ := delLoop_spec hm₀
          (by simpa using Ne.symm hkey) hother
          (by rw [length_cons] at hlen; omega : c.length < m.len)
        exact ⟨m', by simp [delLoop, hn, hn', hnext, hrun], hspec⟩

theorem del_spec (hm : Rep hash m cs) (key : K) :
    ∃ m', m.del hash key = some m' ∧ Deleted hash cs key m' := by
  obtain ⟨m', hdel, hm'⟩ := del_chains hm key
  exact ⟨m', hdel, hm.deleted hm'⟩

/-! ## Runs -/

/-- The hash map has the contents of the finite map `t`. -/
def Represents (hash : K → UInt64) (m : HashMap K V) (t : Table K V) : Prop :=
  ∃ cs, Rep hash m cs ∧ (contents cs.flatten).Perm t.entries

theorem step_refines {t : Table K V} (h : Represents hash m t) (e : MapEvent K V) :
    ∃ m' r t', m.step hash e = some (m', r) ∧ SpecStep t e r t' ∧ Represents hash m' t' := by
  obtain ⟨cs, hm, ht⟩ := h
  have hnodup := hm.buckets.nodupKeys
  have hlook : ∀ key, (contents cs.flatten).dlookup key = t.lookup key :=
    fun key => perm_dlookup key hnodup ht
  cases e with
  | get key =>
    refine ⟨m, _, t, by rw [step, get_spec hm]; rfl, ?_, cs, hm, ht⟩
    rw [hlook]
    exact .get t key
  | set alloc key value =>
    obtain ⟨m', ok, hset, cs', hm', hspec⟩ := set_spec hm alloc key value
    cases ok with
    | true =>
      rw [if_pos rfl] at hspec
      refine ⟨m', _, t.insert key value, by rw [step, hset]; rfl, .set t alloc key value,
        cs', hm', ?_⟩
      rw [AList.entries_insert]
      exact hspec.trans ((ht.kerase hnodup).cons _)
    | false =>
      rw [if_neg (by simp)] at hspec
      obtain ⟨rfl, hkey⟩ := hspec
      refine ⟨m', _, t, by rw [step, hset]; rfl, .setFailed t alloc key value ?_, cs, hm, ht⟩
      rw [← hlook, dlookup_eq_none, keys_contents]
      exact hkey
  | del key =>
    obtain ⟨m', hdel, cs', hm', hspec⟩ := del_spec hm key
    exact ⟨m', _, t.erase key, by rw [step, hdel]; rfl, .del t key, cs', hm',
      hspec.trans (ht.kerase hnodup)⟩
  | clear =>
    obtain ⟨m', hclear, hm'⟩ := clear_spec hm
    refine ⟨m', _, ∅, by rw [step, hclear]; rfl, .clear t, _, hm', ?_⟩
    simp
  | len =>
    refine ⟨m, _, t, rfl, ?_, cs, hm, ht⟩
    have hlen := ht.length_eq
    rw [contents, length_map, ← hm.len_eq] at hlen
    rw [hlen]
    exact .len t

theorem runOps_refines {t : Table K V} (h : Represents hash m t) (es : List (MapEvent K V)) :
    ∃ m' rs t', m.runOps hash es = some (m', rs) ∧ SpecRun t es rs t' ∧ Represents hash m' t' := by
  induction es generalizing m t with
  | nil => exact ⟨m, [], t, rfl, .nil t, h⟩
  | cons e es ih =>
    obtain ⟨m₁, r, t₁, hstep, hspec, h₁⟩ := step_refines h e
    obtain ⟨m', rs, t', hrun, hspecs, h'⟩ := ih h₁
    exact ⟨m', r :: rs, t', by simp [runOps, hstep, hrun], .cons hspec hspecs, h'⟩

omit [DecidableEq K] in
theorem represents_new {mapOk bucketOk : Bool} {cap : Int}
    (h : newHashMapWithCap mapOk bucketOk cap = some m) : Represents hash m ∅ := by
  unfold newHashMapWithCap at h
  dsimp only at h
  generalize hn : (if cap < initBucketSize then initBucketSize else cap.toNat) = n at h
  have hpos : 0 < n := by
    rw [← hn]
    unfold initBucketSize
    split <;> omega
  split at h
  · rename_i hok
    cases h
    simp only [Bool.and_eq_true, bucketFits, decide_eq_true_eq] at hok
    exact ⟨_, ⟨buckets_replicate hash _ hpos (by omega), by simp, fun p hp => absurd rfl hp⟩,
      by simp⟩
  · cases h

/-- Every sequence of operations on a new map returns, and what it returns is what a finite map
returns, for every hash function and every behaviour of the allocator. -/
theorem hashMap_refines (hash : K → UInt64) (mapOk bucketOk : Bool) (cap : Int) (m : HashMap K V)
    (h : newHashMapWithCap mapOk bucketOk cap = some m) (es : List (MapEvent K V)) :
    ∃ m' rs t, m.runOps hash es = some (m', rs) ∧ SpecRun ∅ es rs t := by
  obtain ⟨m', rs, t, hrun, hspec, -⟩ := runOps_refines (represents_new h) es
  exact ⟨m', rs, t, hrun, hspec⟩

/-- Operations on a map whose keys all have one hash. The first `Grow` fails at its third entry,
the second one completes. -/
def collidingOps : List (MapEvent Nat Nat) :=
  (List.range 6).map (fun k => .set ⟨some (k + 10), true, []⟩ k (k * k)) ++
    [.set ⟨some 16, true, [some 20, some 21, none]⟩ 6 36, .get 6,
      .set ⟨some 17, true, (List.range 8).map fun k => some (k + 30)⟩ 7 49, .get 3,
      .set ⟨none, true, []⟩ 8 64, .get 8, .del 3, .get 3, .len, .clear, .len]

theorem hashMap_refines_collidingOps :
    ∃ m : HashMap Nat Nat, newHashMapWithCap true true 0 = some m ∧
      (m.runOps (fun _ => 0) collidingOps).map Prod.snd = some (List.replicate 7 (.ok true) ++
        [.value (some 36), .ok true, .value (some 9), .ok false, .value none, .unit, .value none,
          .count 7, .unit, .count 0]) ∧
      ∃ m' rs t, m.runOps (fun _ => 0) collidingOps = some (m', rs) ∧
        SpecRun ∅ collidingOps rs t :=
  ⟨_, rfl, by decide +kernel, hashMap_refines (fun _ => 0) true true 0 _ rfl collidingOps⟩

end HashMap

end Halo
