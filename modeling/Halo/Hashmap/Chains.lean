import Halo.Hashmap.Hashmap

/-!
# The chains of a hash map

The entries of one bucket are a doubly linked list (`Linked`), with a key and a value in each entry.

* `getLoop_spec`, `insertLoop_spec`, `freeChain_spec`: what the loops do on a linked chain. Each
  needs no more fuel than the chain has entries.
* `unlink_spec`: an entry is taken out of its chain.
-/

namespace Halo

namespace HashMap

variable {K V : Type}

/-- The links of the entries; the payload is the key and the value. -/
def entryLinks : Links (MapEntry K V) (K × V) where
  next := MapEntry.next
  prev := MapEntry.front
  data n := (n.key, n.value)

/-- A chain: the addresses of its entries, with their keys and values. -/
abbrev Chain (K V : Type) := List (Nat × (K × V))

/-- A linked chain of entries after the entry `b`. -/
abbrev Linked (heap : Heap (MapEntry K V)) (b : Option Nat) (c : Chain K V) : Prop :=
  Dlseg entryLinks heap b c none

/-- The addresses of the entries of a chain. -/
abbrev ptrs (c : Chain K V) : List Nat := c.map Prod.fst

/-- The keys of the entries of a chain. -/
abbrev keys (c : Chain K V) : List K := c.map fun x => x.2.1

/-- The keys and values of a chain. -/
abbrev contents (c : Chain K V) : List (Σ _ : K, V) := c.map fun x => ⟨x.2.1, x.2.2⟩

variable {c : Chain K V} {heap : Heap (MapEntry K V)} {key : K} {ps : List Nat} {p fuel : Nat}
  {b : Option Nat} {d : K × V}

theorem contents_perm {c' : Chain K V} (h : c.Perm c') : (contents c).Perm (contents c') := h.map _

theorem keys_contents (c : Chain K V) : (contents c).keys = keys c := by
  simp [List.keys, Function.comp_def]

/-! ## Loops over one chain -/

/-- The result of the loop of `Set` on a chain: the entry of the key gets the value, or the last
entry gets a new one behind it. -/
inductive LoopResult (bucket : List (Option Nat)) (heap : Heap (MapEntry K V)) (choice : Option Nat)
    (key : K) (value : V) (c : Chain K V) : Inserted K V → Prop
  | updated (pre post : Chain K V) (q : Nat) (n : MapEntry K V)
      (hc : c = pre ++ (q, (key, n.value)) :: post) (hn : heap q = some n) :
      LoopResult bucket heap choice key value c
        (.updated (Function.update heap q (some { n with key := key, value := value })))
  | failed (hkey : key ∉ keys c) : LoopResult bucket heap choice key value c .failed
  | added (init : Chain K V) (q p : Nat) (d : K × V) (n : MapEntry K V)
      (hc : c = init ++ [(q, d)]) (hkey : key ∉ keys c) (hn : heap q = some n)
      (hp : malloc heap choice = some p) :
      LoopResult bucket heap choice key value c (.added bucket
        (Function.update (Function.update heap p (some ⟨key, value, some q, none⟩)) q
          (some { n with next := some p })))

/-- The result on the rest of a chain is one on the chain. -/
theorem LoopResult.cons {bucket : List (Option Nat)} {choice : Option Nat} {value : V}
    {r : Inserted K V} {x : Nat × (K × V)} (hx : x.2.1 ≠ key)
    (h : LoopResult bucket heap choice key value c r) :
    LoopResult bucket heap choice key value (x :: c) r := by
  have hkeys : ∀ {l : Chain K V}, key ∉ keys l → key ∉ keys (x :: l) := by
    intro l hl
    simp only [keys, List.map_cons, List.mem_cons, not_or]
    exact ⟨hx.symm, hl⟩
  cases h with
  | updated pre post q n hc hn => exact .updated (x :: pre) post q n (by rw [hc]; rfl) hn
  | failed hkey => exact .failed (hkeys hkey)
  | added init q p d n hc hkey hn hp =>
    exact .added (x :: init) q p d n (by rw [hc]; rfl) (hkeys hkey) hn hp

/-- The heap without the entries at `ps`. -/
def eraseAll (heap : Heap (MapEntry K V)) (ps : List Nat) : Heap (MapEntry K V) :=
  fun p => if p ∈ ps then none else heap p

theorem eraseAll_nil (heap : Heap (MapEntry K V)) : eraseAll heap [] = heap := by
  funext p
  simp [eraseAll]

theorem eraseAll_eraseAll (heap : Heap (MapEntry K V)) (ps qs : List Nat) :
    eraseAll (eraseAll heap ps) qs = eraseAll heap (ps ++ qs) := by
  funext p
  by_cases h : p ∈ qs <;> by_cases h' : p ∈ ps <;> simp [eraseAll, h, h']

theorem eraseAll_of_not_mem (h : p ∉ ps) : eraseAll heap ps p = heap p := if_neg h

theorem eraseAll_of_mem (h : p ∈ ps) : eraseAll heap ps p = none := if_pos h

theorem free_eq_eraseAll (heap : Heap (MapEntry K V)) (p : Nat) :
    free heap p = eraseAll heap [p] := by
  funext q
  by_cases h : q = p
  · simp [free, eraseAll, h]
  · simp [free, eraseAll, h]

/-- A linked chain without an entry of `ps` is linked after the entries at `ps` are freed. -/
theorem linked_eraseAll (hs : Linked heap b c) (hd : ∀ p ∈ ptrs c, p ∉ ps) :
    Linked (eraseAll heap ps) b c :=
  hs.congr fun p hp => eraseAll_of_not_mem (hd p hp)

theorem freeChain_spec (hs : Linked heap b c) (hnodup : (ptrs c).Nodup) (hfuel : c.length ≤ fuel) :
    freeChain fuel heap (firstOr c none) = some (eraseAll heap (ptrs c)) := by
  induction c generalizing heap fuel b with
  | nil =>
    rw [firstOr_nil, ptrs, List.map_nil, eraseAll_nil]
    cases fuel <;> rfl
  | cons x c ih =>
    obtain ⟨p, d⟩ := x
    obtain ⟨fuel, rfl⟩ := Nat.exists_eq_add_one.mpr (Nat.zero_lt_of_lt hfuel)
    obtain ⟨⟨n, hn, -, -, hnext⟩, htail⟩ := hs
    obtain ⟨hp, hnodup⟩ := List.nodup_cons.mp hnodup
    have hnext : n.next = firstOr c none := hnext
    have htail' : Linked (eraseAll heap [p]) (some p) c :=
      linked_eraseAll htail fun q hq => by
        rintro h
        rw [List.mem_singleton] at h
        exact hp (h ▸ hq)
    rw [firstOr_cons]
    simp only [freeChain, hn, Option.bind_eq_bind, Option.bind_some, hnext, free_eq_eraseAll]
    rw [ih htail' hnodup (Nat.le_of_succ_le_succ hfuel), eraseAll_eraseAll]
    rfl

/-! ## Removal -/

/-- `modify` at a pointer that is `nil` or points to an entry. -/
theorem modify_eq {p : Option Nat} {f : MapEntry K V → MapEntry K V}
    (hp : ∀ q, p = some q → ∃ n, heap q = some n) : modify heap p f = some (heap.modifyAt p f) := by
  cases p with
  | none => rfl
  | some q =>
    obtain ⟨n, hn⟩ := hp q rfl
    rw [Heap.modifyAt_self f hn]
    simp [modify, hn]

/-- The links of an entry of a chain lead to entries. -/
theorem Linked.neighbours {pre post : Chain K V} {q : Nat}
    (hs : Linked heap none (pre ++ (q, d) :: post)) :
    (∀ p, lastOr none pre = some p → ∃ n, heap p = some n) ∧
      ∀ p, firstOr post none = some p → ∃ n, heap p = some n := by
  constructor
  · intro p hp
    rcases List.eq_nil_or_concat' pre with rfl | ⟨init, x, rfl⟩
    · cases hp
    · rw [lastOr_concat] at hp
      cases hp
      obtain ⟨n, hn, -⟩ := hs.mem (p := x.1) (d := x.2) (by simp)
      exact ⟨n, hn⟩
  · intro p hp
    obtain ⟨e, rest, rfl⟩ := mem_of_firstOr hp
    obtain ⟨n, hn, -⟩ := hs.mem (p := p) (d := e) (by simp)
    exact ⟨n, hn⟩

/-- The writes of `Del` to the neighbours of an entry take it out of its chain. -/
theorem unlink_spec {pre post : Chain K V} {q : Nat} {n : MapEntry K V}
    (hs : Linked heap none (pre ++ (q, d) :: post)) (hnodup : (ptrs (pre ++ (q, d) :: post)).Nodup)
    (hn : heap q = some n) :
    ∃ heap₁ heap₂, modify heap n.front (fun x => { x with next := n.next }) = some heap₁ ∧
      modify heap₁ n.next (fun x => { x with front := n.front }) = some heap₂ ∧
      Linked (free heap₂ q) none (pre ++ post) ∧
      ∀ p, p ∉ ptrs (pre ++ (q, d) :: post) → heap₂ p = heap p := by
  obtain ⟨n', hn', -, hfront, hnext⟩ := hs.node
  rw [hn] at hn'
  cases hn'
  have hfront : n.front = lastOr none pre := hfront
  have hnext : n.next = firstOr post none := hnext
  obtain ⟨hlast, hfirst⟩ := hs.neighbours
  rw [hfront, hnext]
  have hsome : ∀ p, firstOr post none = some p → ∃ x,
      heap.modifyAt (lastOr none pre) (fun x => { x with next := firstOr post none }) p =
        some x := by
    intro p hp
    obtain ⟨x, hx⟩ := hfirst p hp
    by_cases hpl : lastOr none pre = some p
    · rw [hpl, Heap.modifyAt_self _ hx, Function.update_self]
      exact ⟨_, rfl⟩
    · rw [Heap.modifyAt_of_ne _ hpl]
      exact ⟨x, hx⟩
  have hq := (List.nodup_cons.mp (List.perm_middle.nodup_iff.mp
    (by simpa [ptrs] using hnodup : (ptrs pre ++ q :: ptrs post).Nodup))).1
  rw [List.mem_append, not_or] at hq
  refine ⟨_, _, modify_eq hlast, modify_eq hsome, ?_, fun p hp => ?_⟩
  · refine Dlseg.update ?_ ?_ none
    · exact hs.unlink hnodup (fun x => ⟨rfl, rfl, rfl⟩) fun x => ⟨rfl, rfl, rfl⟩
    rw [List.map_append, List.mem_append, not_or]
    exact hq
  · rw [ptrs, List.map_append, List.map_cons, List.mem_append, List.mem_cons, not_or, not_or] at hp
    rw [Heap.modifyAt_of_ne _ (firstOr_ne hp.2.2), Heap.modifyAt_of_ne _ (lastOr_ne hp.1)]

/-! ## Search and insertion -/

variable [DecidableEq K]

theorem dlookup_contents_cons_ne {x : Nat × (K × V)} (hx : x.2.1 ≠ key) (c : Chain K V) :
    (contents (x :: c)).dlookup key = (contents c).dlookup key :=
  List.dlookup_cons_ne (contents c) (⟨x.2.1, x.2.2⟩ : Σ _ : K, V) (Ne.symm hx)

theorem getLoop_spec (hs : Linked heap b ((p, d) :: c)) (hfuel : c.length < fuel) :
    getLoop heap key fuel p = some ((contents ((p, d) :: c)).dlookup key) := by
  induction c generalizing fuel b p d with
  | nil =>
    obtain ⟨fuel, rfl⟩ := Nat.exists_eq_add_one.mpr hfuel
    obtain ⟨⟨n, hn, rfl, -, hnext⟩, -⟩ := hs
    by_cases hk : n.key = key
    · subst hk
      simp [getLoop, hn, entryLinks]
    · have hnext : n.next = none := hnext
      rw [dlookup_contents_cons_ne hk]
      simp [getLoop, hn, hk, hnext]
  | cons x c ih =>
    obtain ⟨q, e⟩ := x
    obtain ⟨fuel, rfl⟩ := Nat.exists_eq_add_one.mpr (Nat.zero_lt_of_lt hfuel)
    obtain ⟨⟨n, hn, rfl, -, hnext⟩, htail⟩ := hs
    by_cases hk : n.key = key
    · subst hk
      simp [getLoop, hn, entryLinks]
    · have hnext : n.next = some q := hnext
      have hrest := ih htail (Nat.lt_of_succ_lt_succ hfuel)
      simp only [getLoop, hn, hk, hnext, Option.bind_eq_bind, Option.bind_some, if_false]
      rw [hrest, dlookup_contents_cons_ne (x := (p, entryLinks.data n)) hk]

theorem insertLoop_spec (bucket : List (Option Nat))
    (choice : Option Nat) (key : K) (value : V) (hs : Linked heap b ((p, d) :: c))
    (hfuel : c.length < fuel) :
    ∃ r, insertLoop bucket heap choice key value fuel p = some r ∧
      LoopResult bucket heap choice key value ((p, d) :: c) r := by
  induction c generalizing fuel b p d with
  | nil =>
    obtain ⟨fuel, rfl⟩ := Nat.exists_eq_add_one.mpr hfuel
    obtain ⟨⟨n, hn, rfl, -, hnext⟩, -⟩ := hs
    have hnext : n.next = none := hnext
    by_cases hk : n.key = key
    · refine ⟨_, by simp [insertLoop, hn, hk]; rfl, ?_⟩
      subst hk
      exact .updated [] [] p n rfl hn
    · have hkey : key ∉ keys [(p, entryLinks.data n)] := by
        simpa [entryLinks] using Ne.symm hk
      cases hp : malloc heap choice with
      | none => exact ⟨.failed, by simp [insertLoop, hn, hk, hnext, hp], .failed hkey⟩
      | some q =>
        refine ⟨_, by simp [insertLoop, hn, hk, hnext, hp]; rfl, ?_⟩
        exact .added [] p q _ n rfl hkey hn hp
  | cons x c ih =>
    obtain ⟨q, e⟩ := x
    obtain ⟨fuel, rfl⟩ := Nat.exists_eq_add_one.mpr (Nat.zero_lt_of_lt hfuel)
    obtain ⟨⟨n, hn, rfl, -, hnext⟩, htail⟩ := hs
    have hnext : n.next = some q := hnext
    by_cases hk : n.key = key
    · refine ⟨_, by simp [insertLoop, hn, hk]; rfl, ?_⟩
      subst hk
      exact .updated [] ((q, e) :: c) p n rfl hn
    · obtain ⟨r, hr, hres⟩ := ih htail (Nat.lt_of_succ_lt_succ hfuel)
      exact ⟨r, by simp [insertLoop, hn, hk, hnext, hr], hres.cons hk⟩

end HashMap

end Halo
