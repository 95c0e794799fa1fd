import Halo.Hashmap.Refine

/-!
# Deletion during an iteration (`HashMap.For` with `Del` in its callback)

`For` walks through the buckets and through the chain of each one. It reads the link to the next
entry before it calls back, so that the callback may delete the entry that it is called for.

* `forChain`, `forBuckets`, `forEach`: `For` with a callback that works on the map and on a state of
  its own.
* `DeletesBy`: a callback that deletes the entry it is called for, or leaves the map alone; `sweep`
  is what it does along a list of entries.
* `forChain_sweep`, `forBuckets_sweep`, `forEach_sweep`: such a callback finds the chains in front
  of it as they were at the start.
* `for_deletes_while_visiting`: with a callback that deletes the keys of a set, every entry is
  visited once, and the entries of the other keys stay.

A read of an entry that was freed has no result here, so that a result means that there is no such
read.
-/

namespace Halo.HashMap

variable {K V τ : Type} [DecidableEq K] (hash : K → UInt64)

/-- A callback: it gets a key and a value, and says whether it wants more. -/
abbrev Callback (K V τ : Type) := HashMap K V × τ → K → V → Option ((HashMap K V × τ) × Bool)

/-- `For` over a chain from the entry `e`. -/
def forChain (fn : Callback K V τ) :
    (fuel : Nat) → HashMap K V × τ → Option Nat → Option ((HashMap K V × τ) × Bool)
  | _, s, none => some (s, true)
  | 0, _, some _ => none
  | fuel + 1, s, some e => do
    let n ← s.1.heap e
    -- the link is read before the callback, which may free the entry
    let (s, next) ← fn s n.key n.value
    if next then forChain fn fuel s n.next else return (s, false)

/-- `For` over the buckets from `index` on. -/
def forBuckets (fn : Callback K V τ) (chainFuel : Nat) :
    (fuel index : Nat) → HashMap K V × τ → Option (HashMap K V × τ)
  | 0, index, s => if index < s.1.bucket.length then none else some s
  | fuel + 1, index, s =>
    if index < s.1.bucket.length then do
      let (s, next) ← forChain fn chainFuel s (s.1.bucket.getD index none)
      if next then forBuckets fn chainFuel fuel (index + 1) s else return s
    else some s

/-- `HashMap.For`. -/
def forEach (fn : Callback K V τ) (m : HashMap K V) (acc : τ) : Option (HashMap K V × τ) :=
  forBuckets fn (m.len + 1) m.bucket.length 0 (m, acc)

/-- A callback that calls `Del` on the keys of a set, and notes every call. -/
def deleteWhen (D : K → Prop) [DecidablePred D] : Callback K V (List (Σ _ : K, V)) :=
  fun (m, visited) key value =>
    if D key then (m.del hash key).map fun m => ((m, visited ++ [⟨key, value⟩]), true)
    else some ((m, visited ++ [⟨key, value⟩]), true)

/-- The callback deletes the entry that it is called for if `visit` says so, and does nothing else
to the map. -/
def DeletesBy (visit : τ → K → V → Option (τ × Bool)) (fn : Callback K V τ) : Prop :=
  ∀ m m' acc key value acc' drop, m.del hash key = some m' →
    visit acc key value = some (acc', drop) →
    fn (m, acc) key value = some ((if drop then m' else m, acc'), true)

/-- The state after the visits of the entries, and the entries that are not deleted. -/
def sweep (visit : τ → K → V → Option (τ × Bool)) : τ → Chain K V → Option (τ × Chain K V)
  | acc, [] => some (acc, [])
  | acc, x :: c => do
    let (acc, drop) ← visit acc x.2.1 x.2.2
    let (acc, rest) ← sweep visit acc c
    return (acc, if drop then rest else x :: rest)

variable {hash} {m : HashMap K V} {visit : τ → K → V → Option (τ × Bool)} {fn : Callback K V τ}
  {acc acc' : τ}

omit [DecidableEq K] in
theorem sweep_append {c d kept : Chain K V} (h : sweep visit acc (c ++ d) = some (acc', kept)) :
    ∃ acc₁ kept₁ kept₂, sweep visit acc c = some (acc₁, kept₁) ∧
      sweep visit acc₁ d = some (acc', kept₂) ∧ kept = kept₁ ++ kept₂ := by
  induction c generalizing acc kept with
  | nil => exact ⟨acc, [], kept, rfl, h, rfl⟩
  | cons x c ih =>
    simp only [List.cons_append, sweep, Option.bind_eq_bind, Option.bind_eq_some_iff] at h
    obtain ⟨⟨acc₁, drop⟩, hvisit, ⟨acc₂, rest⟩, hrest, h⟩ := h
    cases h
    obtain ⟨acc₃, kept₁, kept₂, hc, hd, rfl⟩ := ih hrest
    refine ⟨acc₃, if drop then kept₁ else x :: kept₁, kept₂, by simp [sweep, hvisit, hc], hd, ?_⟩
    cases drop <;> rfl

/-- The walk through the rest `suf` of a chain, of which the entries `pre` have stayed. -/
theorem forChain_sweep (hfn : DeletesBy hash visit fn) {l r : List (Chain K V)}
    {pre suf kept : Chain K V} {fuel : Nat} (hm : Rep hash m (l ++ (pre ++ suf) :: r))
    (hsweep : sweep visit acc suf = some (acc', kept)) (hfuel : suf.length ≤ fuel) :
    ∃ m', forChain fn fuel (m, acc) (firstOr suf none) = some ((m', acc'), true) ∧
      Rep hash m' (l ++ (pre ++ kept) :: r) := by
  induction suf generalizing m pre acc kept fuel with
  | nil =>
    cases hsweep
    exact ⟨m, by cases fuel <;> rfl, hm⟩
  | cons x suf ih =>
    obtain ⟨q, key, value⟩ := x
    obtain ⟨fuel, rfl⟩ := Nat.exists_eq_add_one.mpr (Nat.zero_lt_of_lt hfuel)
    have hsuf : suf.length ≤ fuel := Nat.le_of_succ_le_succ hfuel
    simp only [sweep, Option.bind_eq_bind, Option.bind_eq_some_iff] at hsweep
    obtain ⟨⟨acc₁, drop⟩, hvisit, ⟨acc₂, rest⟩, hrest, heq⟩ := hsweep
    cases heq
    obtain ⟨n, hn, hdata, -, hnext⟩ :=
      (hm.buckets.linked (pre ++ (q, (key, value)) :: suf) (by simp)).node
    have hnext : n.next = firstOr suf none := hnext
    obtain ⟨rfl, rfl⟩ := Prod.mk.inj hdata
    obtain ⟨m₁, hdel, hm₁⟩ := del_chains hm n.key
    have hcall := hfn m m₁ acc n.key n.value acc₁ drop hdel hvisit
    cases drop with
    | true =>
      -- the rest of the chain does not notice that its first entry is gone
      rw [without_middle hm.buckets.keys_nodup] at hm₁
      obtain ⟨m', hrun, hm'⟩ := ih hm₁ hrest hsuf
      exact ⟨m', by simpa [forChain, firstOr_cons, hn, hcall, hnext] using hrun, hm'⟩
    | false =>
      have hsplit : ∀ c : Chain K V, pre ++ (q, (n.key, n.value)) :: c =
          (pre ++ [(q, (n.key, n.value))]) ++ c := by simp
      rw [hsplit] at hm
      obtain ⟨m', hrun, hm'⟩ := ih hm hrest hsuf
      refine ⟨m', by simpa [forChain, firstOr_cons, hn, hcall, hnext] using hrun, ?_⟩
      rwa [← hsplit] at hm'

/-- The walk through the buckets behind those of `pre`. -/
theorem forBuckets_sweep (hfn : DeletesBy hash visit fn) {pre suf : List (Chain K V)}
    {kept : Chain K V} {chainFuel : Nat} (hm : Rep hash m (pre ++ suf))
    (hsweep : sweep visit acc suf.flatten = some (acc', kept))
    (hfuel : suf.flatten.length ≤ chainFuel) :
    ∃ m' rest, forBuckets fn chainFuel suf.length pre.length (m, acc) = some (m', acc') ∧
      Rep hash m' (pre ++ rest) ∧ rest.flatten = kept := by
  induction suf generalizing m pre acc kept with
  | nil =>
    cases hsweep
    refine ⟨m, [], ?_, hm, rfl⟩
    rw [List.length_nil, forBuckets, if_neg]
    rw [hm.buckets.length_eq]
    simp
  | cons c suf ih =>
    have hlt : pre.length < m.bucket.length := by
      rw [hm.buckets.length_eq]
      simp
    have hget : m.bucket.getD pre.length none = firstOr c none := by
      rw [hm.buckets.heads]
      simp
    rw [List.flatten_cons] at hsweep hfuel
    rw [List.length_append] at hfuel
    obtain ⟨acc₁, kept₁, kept₂, hc, hsuf, rfl⟩ := sweep_append hsweep
    obtain ⟨m₁, hchain, hm₁⟩ := forChain_sweep hfn
      (show Rep hash m (pre ++ ([] ++ c) :: suf) from hm) hc (show c.length ≤ chainFuel by omega)
    have hm₁ : Rep hash m₁ ((pre ++ [kept₁]) ++ suf) := by simpa using hm₁
    obtain ⟨m', rest, hrest, hm', rfl⟩ := ih hm₁ hsuf (by omega)
    refine ⟨m', kept₁ :: rest, ?_, by simpa using hm', rfl⟩
    rw [List.length_cons, forBuckets, if_pos hlt, hget, hchain]
    simpa using hrest

/-- `For` with a callback that deletes some of the entries that it visits. -/
theorem forEach_sweep (hfn : DeletesBy hash visit fn) {cs : List (Chain K V)} {kept : Chain K V}
    (hm : Rep hash m cs) (hsweep : sweep visit acc cs.flatten = some (acc', kept)) :
    ∃ m' rest, forEach fn m acc = some (m', acc') ∧ Rep hash m' rest ∧ rest.flatten = kept := by
  rw [forEach, hm.buckets.length_eq]
  exact forBuckets_sweep hfn (show Rep hash m ([] ++ cs) from hm) hsweep (by rw [hm.len_eq]; omega)

/-! ## The keys of a set -/

variable {D : K → Prop} [DecidablePred D]

theorem deleteWhen_deletesBy (D : K → Prop) [DecidablePred D] :
    DeletesBy hash (fun visited key value => some (visited ++ [⟨key, value⟩], decide (D key)))
      (deleteWhen (V := V) hash D) := by
  intro m m' visited key value acc' drop hdel hvisit
  cases hvisit
  by_cases hD : D key <;> simp [deleteWhen, hD, hdel]

omit [DecidableEq K] in
theorem sweep_deleteWhen (visited : List (Σ _ : K, V)) (c : Chain K V) :
    sweep (fun visited key value => some (visited ++ [⟨key, value⟩], decide (D key))) visited c =
      some (visited ++ contents c, c.filter fun x => ¬ D x.2.1) := by
  induction c generalizing visited with
  | nil => simp [sweep]
  | cons x c ih =>
    simp only [sweep, ih, Option.bind_eq_bind, Option.bind_some]
    by_cases hD : D x.2.1 <;> simp [hD]

theorem dlookup_filter (l : List (Σ _ : K, V)) (key : K) :
    (l.filter fun x => ¬ D x.1).dlookup key = if D key then none else l.dlookup key := by
  induction l with
  | nil => simp
  | cons x l ih =>
    obtain ⟨k, v⟩ := x
    by_cases hD : D k
    · rw [List.filter_cons_of_neg (by simpa using hD), ih]
      split
      · rfl
      · rename_i hkey
        rw [List.dlookup_cons_ne l (⟨k, v⟩ : Σ _ : K, V) (by rintro rfl; exact hkey hD)]
    · rw [List.filter_cons_of_pos (by simpa using hD)]
      by_cases hk : key = k
      · subst hk
        rw [List.dlookup_cons_eq, List.dlookup_cons_eq, if_neg hD]
      · rw [List.dlookup_cons_ne _ (⟨k, v⟩ : Σ _ : K, V) hk,
          List.dlookup_cons_ne l (⟨k, v⟩ : Σ _ : K, V) hk, ih]

/-- In every state that operations lead to, with every hash function: a `For` that deletes the keys
of a set as it visits them returns. It has visited the entries of the map, each one once; the map
has the entries of the other keys then, and their number as its length. -/
theorem for_deletes_while_visiting (hash : K → UInt64) (mapOk bucketOk : Bool) (cap : Int)
    (m : HashMap K V) (h : newHashMapWithCap mapOk bucketOk cap = some m) (es : List (MapEvent K V))
    (D : K → Prop) [DecidablePred D] :
    ∃ m₁ rs t, m.runOps hash es = some (m₁, rs) ∧ SpecRun ∅ es rs t ∧
      ∃ m₂ visited, forEach (deleteWhen hash D) m₁ [] = some (m₂, visited) ∧
        visited.Perm t.entries ∧ visited.NodupKeys ∧
        (∀ key, m₂.get hash key = some (if D key then none else t.lookup key)) ∧
        m₂.len = (t.entries.filter fun x => ¬ D x.1).length ∧
        ∃ t', Represents hash m₂ t' ∧ t'.entries = t.entries.filter fun x => ¬ D x.1 := by
  obtain ⟨m₁, rs, t, hrun, hspec, cs, hm, ht⟩ := runOps_refines (represents_new h) es
  obtain ⟨m₂, rest, hfor, hm₂, hrest⟩ :=
    forEach_sweep (deleteWhen_deletesBy D) hm (sweep_deleteWhen [] cs.flatten)
  rw [List.nil_append] at hfor
  have hcontents : contents rest.flatten = (contents cs.flatten).filter fun x => ¬ D x.1 := by
    rw [hrest, contents, contents, List.filter_map]
    rfl
  have hkept : (contents rest.flatten).Perm (t.entries.filter fun x => ¬ D x.1) :=
    hcontents ▸ ht.filter _
  refine ⟨m₁, rs, t, hrun, hspec, m₂, _, hfor, ht, hm.buckets.nodupKeys, fun key => ?_, ?_, ?_⟩
  · rw [get_spec hm₂, hcontents, dlookup_filter, List.perm_dlookup key hm.buckets.nodupKeys ht]
    rfl
  · rw [hm₂.len_eq, ← hkept.length_eq, contents, List.length_map]
  · exact ⟨⟨_, t.nodupKeys.sublist List.filter_sublist⟩, ⟨_, hm₂, hkept⟩, rfl⟩

/-- The keys 0 to 7 in one chain; the even ones, the first one of the chain among them, are
deleted. -/
theorem for_deletes_while_visiting_collidingOps :
    ∃ m : HashMap Nat Nat, newHashMapWithCap true true 0 = some m ∧
      ((m.runOps (fun _ => 0) (collidingOps.take 9)).bind fun r =>
        (forEach (deleteWhen (fun _ => 0) fun k => k % 2 = 0) r.1 []).map fun s =>
          (s.2.map Sigma.fst, s.1.len)) = some (List.range 8, 4) ∧
      ∃ m₁ rs t, m.runOps (fun _ => 0) (collidingOps.take 9) = some (m₁, rs) ∧
        SpecRun ∅ (collidingOps.take 9) rs t ∧
        ∃ m₂ visited, forEach (deleteWhen (fun _ => 0) fun k => k % 2 = 0) m₁ [] =
          some (m₂, visited) ∧ visited.Perm t.entries ∧ visited.NodupKeys ∧
          (∀ key, m₂.get (fun _ => 0) key = some (if key % 2 = 0 then none else t.lookup key)) ∧
          m₂.len = (t.entries.filter fun x => ¬ x.1 % 2 = 0).length ∧
          ∃ t', Represents (fun _ => 0) m₂ t' ∧
            t'.entries = t.entries.filter fun x => ¬ x.1 % 2 = 0 :=
  ⟨_, rfl, by decide +kernel,
    for_deletes_while_visiting (fun _ => 0) true true 0 _ rfl (collidingOps.take 9) fun k =>
      k % 2 = 0⟩

end Halo.HashMap
