import Halo.Hashmap.Iterate
import Halo.Hashmap.Storage
import Halo.Protocol.Addr

/-!
# The ARP cache of an interface (`engine/arp_engine.go`)

The records are blocks of the router's memory pool, and `ArpCacheTable` is a hash map from addresses
to pointers to them. A new record needs two blocks, the record and an entry of the map, and the pool
may have one of them only.

* `setArpCache`, `arpTableClear`: the calls that allocate and free records.
* `Filed`: every record that is allocated is the value of the entry of its own address, and of no
  other one.
* `Pairs`: `Set` may leave the record without its entry unless the two allocations fail or succeed
  together (`setArpCache` does not look at the result of `Set`).
* `arp_records_filed`: in a run whose steps meet `Pairs` the records are filed, and a step that does
  not meet it loses a record.
-/

namespace Halo

open Function List

/-- `ArpCache`. -/
structure ArpCache where
  ipAddr : UInt32
  macAddr : MacAddr
  expTime : UInt32

/-- `ArpCacheTable`, with the records that are allocated. -/
structure ArpTable where
  table : HashMap UInt32 Nat
  records : Heap ArpCache

/-- What the allocator does during a `SetArpCache`. -/
structure ArpAlloc where
  /-- `MallocType[ArpCache]` -/
  record : Option Nat
  /-- `ArpCacheTable.Set` -/
  set : SetAlloc

namespace ArpTable

variable (hash : UInt32 → UInt64)

/-- The table of a new interface (`NewHashMap`). -/
def new : ArpTable where
  table := ⟨List.replicate HashMap.initBucketSize none, 0, fun _ => none⟩
  records := fun _ => none

/-- `MallocType[ArpCache]`. -/
def malloc (s : ArpTable) (choice : Option Nat) : Option Nat :=
  choice.filter fun p => (s.records p).isNone

/-- The end of `SetArpCache`: the record at `p` is written and set in the table. -/
def store (s : ArpTable) (alloc : ArpAlloc) (p : Nat) (arpCache : ArpCache) : Option ArpTable := do
  -- the result of `Set` is not looked at
  let (table, _) ← s.table.set hash alloc.set arpCache.ipAddr p
  return { table, records := Function.update s.records p (some arpCache) }

/-- `NetIf.SetArpCache`. -/
def setArpCache (s : ArpTable) (alloc : ArpAlloc) (timeNow : UInt32) (ipAddr : Ipv4Addr)
    (macAddr : MacAddr) :
    Option ArpTable := do
  let ipAddrU := ipAddrToU ipAddr
  let arpCache := ⟨ipAddrU, macAddr, timeNow + 300⟩
  match ← s.table.get hash ipAddrU with
  | some p =>
    let _ ← s.records p
    s.store hash alloc p arpCache
  | none =>
    match s.malloc alloc.record with
    | none => return s
    | some p => s.store hash alloc p arpCache

/-- The callback of `ArpTableClear`. -/
def clearExpired (timeNow : UInt32) : HashMap.Callback UInt32 Nat (Heap ArpCache) :=
  fun (m, records) key value => do
    let arpCache ← records value
    if timeNow > arpCache.expTime then
      let m ← m.del hash key
      return ((m, Function.update records value none), true)
    else return ((m, records), true)

/-- One round of `ArpTableClear`. -/
def arpTableClear (s : ArpTable) (timeNow : UInt32) : Option ArpTable := do
  let (table, records) ← HashMap.forEach (clearExpired hash timeNow) s.table s.records
  return { table, records }

/-- What happens to the table. -/
inductive Event where
  | setArpCache (alloc : ArpAlloc) (timeNow : UInt32) (ipAddr : Ipv4Addr) (macAddr : MacAddr)
  | arpTableClear (timeNow : UInt32)

/-- One call. -/
def step (s : ArpTable) : Event → Option ArpTable
  | .setArpCache alloc timeNow ipAddr macAddr => s.setArpCache hash alloc timeNow ipAddr macAddr
  | .arpTableClear timeNow => s.arpTableClear hash timeNow

/-- A sequence of calls. -/
def runCalls (s : ArpTable) : List Event → Option ArpTable
  | [] => some s
  | e :: es => do
    let s ← s.step hash e
    runCalls s es

/-- Every record is the value of exactly one entry, that of its own address. -/
def Filed (s : ArpTable) : Prop :=
  ∀ p r, s.records p = some r → ∀ key, s.table.get hash key = some (some p) ↔ key = r.ipAddr

/-- For an address without an entry, there is no memory for the record, or there is memory for the
entry of the table too. -/
def Pairs (s : ArpTable) : Event → Prop
  | .setArpCache alloc _ ipAddr _ => s.table.get hash (ipAddrToU ipAddr) = some none →
      s.malloc alloc.record ≠ none → HashMap.malloc s.table.heap alloc.set.entry ≠ none
  | .arpTableClear _ => True

/-- The calls of a run all meet `Pairs`. -/
def AllPair (s : ArpTable) : List Event → Prop
  | [] => True
  | e :: es => s.Pairs hash e ∧ ∀ s', s.step hash e = some s' → AllPair s' es

/-! ## The table and the records -/

section

variable {hash} {s s' : ArpTable} {t : Table UInt32 Nat}

/-- The entries of the table point to records of their addresses, and the records are filed. -/
structure Inv (hash : UInt32 → UInt64) (s : ArpTable) (t : Table UInt32 Nat) : Prop where
  rep : HashMap.Represents hash s.table t
  points : ∀ key p, t.lookup key = some p → ∃ r, s.records p = some r ∧ r.ipAddr = key
  filed : ∀ p r, s.records p = some r → t.lookup r.ipAddr = some p

theorem Inv.get_eq (h : Inv hash s t) (key : UInt32) : s.table.get hash key = some (t.lookup key) :=
  StoredMap.get_spec h.rep key

theorem Inv.toFiled (h : Inv hash s t) : s.Filed hash := by
  intro p r hr key
  rw [h.get_eq key, Option.some_inj]
  constructor
  · intro hkey
    obtain ⟨r', hr', rfl⟩ := h.points key p hkey
    rw [hr] at hr'
    cases hr'
    rfl
  · rintro rfl
    exact h.filed p r hr

/-- A record at `p`, which no other address has, and its entry. -/
theorem Inv.insert (h : Inv hash s t) {table : HashMap UInt32 Nat} {p : Nat} {r : ArpCache}
    (hrep : HashMap.Represents hash table (t.insert r.ipAddr p))
    (hother : ∀ key, t.lookup key = some p → key = r.ipAddr)
    (hold : ∀ q, t.lookup r.ipAddr = some q → q = p) :
    Inv hash { table, records := update s.records p (some r) } (t.insert r.ipAddr p) where
  rep := hrep
  points key q hq := by
    by_cases hkey : key = r.ipAddr
    · subst hkey
      rw [AList.lookup_insert, Option.some_inj] at hq
      subst hq
      exact ⟨r, update_self .., rfl⟩
    · rw [AList.lookup_insert_ne hkey] at hq
      have hne : q ≠ p := by
        rintro rfl
        exact hkey (hother key hq)
      obtain ⟨r', hr', rfl⟩ := h.points key q hq
      exact ⟨r', (update_of_ne hne ..).trans hr', rfl⟩
  filed q r' hr' := by
    dsimp only at hr'
    by_cases hne : q = p
    · subst hne
      rw [update_self, Option.some_inj] at hr'
      rw [← hr', AList.lookup_insert]
    · rw [update_of_ne hne] at hr'
      have hq := h.filed q r' hr'
      have hkey : r'.ipAddr ≠ r.ipAddr := by
        intro heq
        rw [heq] at hq
        exact hne (hold q hq)
      rw [AList.lookup_insert_ne hkey, hq]

/-! ## `SetArpCache` -/

theorem malloc_eq_some {choice : Option Nat} {p : Nat} (h : s.malloc choice = some p) :
    s.records p = none :=
  Option.isNone_iff_eq_none.mp (Option.filter_eq_some_iff.mp h).2

theorem store_eq {alloc : ArpAlloc} {p : Nat} {r : ArpCache} {table : HashMap UInt32 Nat}
    {ok : Bool} (h : s.table.set hash alloc.set r.ipAddr p = some (table, ok)) :
    s.store hash alloc p r = some { table, records := update s.records p (some r) } := by
  simp [store, h]

/-- The step leads to a state in which the records are filed just if it meets `Pairs`. -/
def FilesIf (hash : UInt32 → UInt64) (s : ArpTable) (e : Event) (s' : ArpTable) : Prop :=
  (s.Pairs hash e → ∃ t, Inv hash s' t) ∧ (¬ s.Pairs hash e → ¬ s'.Filed hash)

theorem FilesIf.of_inv {e : Event} (hpairs : s.Pairs hash e) (h : Inv hash s' t) :
    FilesIf hash s e s' :=
  ⟨fun _ => ⟨t, h⟩, fun hnot => absurd hpairs hnot⟩

theorem setArpCache_spec (h : Inv hash s t) (alloc : ArpAlloc) (timeNow : UInt32)
    (ipAddr : Ipv4Addr) (macAddr : MacAddr) :
    ∃ s', s.setArpCache hash alloc timeNow ipAddr macAddr = some s' ∧
      FilesIf hash s (.setArpCache alloc timeNow ipAddr macAddr) s' := by
  have hget := h.get_eq (ipAddrToU ipAddr)
  set r : ArpCache := ⟨ipAddrToU ipAddr, macAddr, timeNow + 300⟩
  have hset := fun p => HashMap.step_refines h.rep (.set alloc.set r.ipAddr p)
  cases hlook : t.lookup (ipAddrToU ipAddr) with
  | some p =>
    rw [hlook] at hget
    obtain ⟨r₀, hr₀, hip⟩ := h.points _ p hlook
    obtain ⟨table, res, t', hstep, hspec, hrep⟩ := hset p
    obtain ⟨⟨table', ok⟩, htable, heq⟩ := Option.map_eq_some_iff.mp hstep
    cases heq
    refine ⟨{ table := table', records := update s.records p (some r) }, ?_, ?_⟩
    · simp only [setArpCache, hget, hr₀, Option.bind_eq_bind, Option.bind_some]
      exact store_eq htable
    refine .of_inv (fun hnone => by rw [hget] at hnone; cases hnone)
      (h.insert (r := r) (t := t) ?_ ?_ ?_)
    · cases hspec with
      | set => exact hrep
      | setFailed _ _ _ hnone =>
        rw [hlook] at hnone
        cases hnone
    · intro key hkey
      obtain ⟨r₁, hr₁, rfl⟩ := h.points key p hkey
      rw [hr₀] at hr₁
      cases hr₁
      exact hip
    · intro q hq
      exact Option.some_inj.mp (hq.symm.trans hlook)
  | none =>
    rw [hlook] at hget
    cases hmalloc : s.malloc alloc.record with
    | none =>
      refine ⟨s, by simp [setArpCache, hget, hmalloc], .of_inv (fun _ hne => absurd hmalloc hne) h⟩
    | some p =>
      have hfree := malloc_eq_some hmalloc
      obtain ⟨table, res, t', hstep, hspec, hrep⟩ := hset p
      obtain ⟨⟨table', ok⟩, htable, heq⟩ := Option.map_eq_some_iff.mp hstep
      cases heq
      refine ⟨{ table := table', records := update s.records p (some r) }, ?_, ?_⟩
      · simp only [setArpCache, hget, hmalloc, Option.bind_eq_bind, Option.bind_some]
        exact store_eq htable
      obtain ⟨cs, hm, hperm⟩ := h.rep
      have hkey : r.ipAddr ∉ HashMap.keys cs.flatten := by
        rw [← HashMap.keys_contents, ← dlookup_eq_none,
          perm_dlookup _ hm.buckets.nodupKeys hperm]
        exact hlook
      have hnew := HashMap.set_new hm hkey htable
      cases ok with
      | true =>
        refine .of_inv (fun _ _ => hnew.mp rfl) (h.insert (r := r) (t := t) ?_ ?_ ?_)
        · cases hspec
          exact hrep
        · intro key hk
          obtain ⟨r₁, hr₁, -⟩ := h.points key p hk
          rw [hfree] at hr₁
          cases hr₁
        · intro q hq
          rw [show t.lookup r.ipAddr = none from hlook] at hq
          cases hq
      | false =>
        -- the record is there, and its address has no entry
        have hnot : HashMap.malloc s.table.heap alloc.set.entry = none := by
          by_contra hne
          cases hnew.mpr hne
        refine ⟨fun hpairs => absurd hnot (hpairs hget (by simp [hmalloc])), fun _ hfiled => ?_⟩
        have hentry := (hfiled p r (update_self ..) r.ipAddr).mpr rfl
        have hrep' : HashMap.Represents hash table' t := by
          cases hspec
          exact hrep
        rw [StoredMap.get_spec hrep', show t.lookup r.ipAddr = none from hlook] at hentry
        cases hentry

/-! ## `ArpTableClear` -/

/-- The record at `p` is out of date. -/
def expired (records : Heap ArpCache) (timeNow : UInt32) (p : Nat) : Bool :=
  (records p).any fun r => decide (timeNow > r.expTime)

/-- What the callback does to the records, and whether it deletes the entry. -/
def visit (timeNow : UInt32) (records : Heap ArpCache) (_key : UInt32) (p : Nat) :
    Option (Heap ArpCache × Bool) := do
  let r ← records p
  if timeNow > r.expTime then return (Function.update records p none, true)
  else return (records, false)

theorem clearExpired_deletesBy (timeNow : UInt32) :
    HashMap.DeletesBy hash (visit timeNow) (clearExpired hash timeNow) := by
  intro m m' records key p records' drop hdel hvisit
  simp only [visit, Option.bind_eq_bind, Option.bind_eq_some_iff] at hvisit
  obtain ⟨r, hr, hvisit⟩ := hvisit
  simp only [clearExpired, hr, Option.bind_eq_bind, Option.bind_some]
  split at hvisit
  · rename_i hexp
    cases hvisit
    rw [if_pos hexp, hdel]
    rfl
  · rename_i hexp
    cases hvisit
    rw [if_neg hexp]
    rfl

/-- The records without those at some addresses. -/
def dropAll (records : Heap ArpCache) (ps : List Nat) : Heap ArpCache :=
  fun p => if p ∈ ps then none else records p

/-- Along entries with different records, the ones that are out of date go, with their records. -/
theorem sweep_visit (timeNow : UInt32) {records : Heap ArpCache} {c : HashMap.Chain UInt32 Nat}
    (hlive : ∀ x ∈ c, records x.2.2 ≠ none) (hnodup : (c.map fun x => x.2.2).Nodup) :
    HashMap.sweep (visit timeNow) records c =
      some (dropAll records ((c.filter fun x => expired records timeNow x.2.2).map fun x => x.2.2),
        c.filter fun x => ¬ expired records timeNow x.2.2) := by
  induction c generalizing records with
  | nil =>
    simp only [HashMap.sweep, filter_nil, map_nil, Option.some_inj, Prod.mk.injEq, and_true]
    funext p
    simp [dropAll]
  | cons x c ih =>
    obtain ⟨hx, hnodup⟩ := nodup_cons.mp hnodup
    obtain ⟨r, hr⟩ := Option.ne_none_iff_exists'.mp (hlive x mem_cons_self)
    have hother : ∀ y ∈ c, y.2.2 ≠ x.2.2 := fun y hy heq => hx (mem_map.mpr ⟨y, hy, heq⟩)
    have hexp : expired records timeNow x.2.2 = decide (timeNow > r.expTime) := by
      simp [expired, hr]
    by_cases htime : timeNow > r.expTime
    · have hsame : ∀ y ∈ c, update records x.2.2 none y.2.2 = records y.2.2 :=
        fun y hy => update_of_ne (hother y hy) ..
      have hexpired : ∀ y ∈ c, expired (update records x.2.2 none) timeNow y.2.2 =
          expired records timeNow y.2.2 := fun y hy => by rw [expired, hsame y hy, expired]
      have hrest := @ih (update records x.2.2 none)
        (fun y hy => hsame y hy ▸ hlive y (mem_cons_of_mem _ hy)) hnodup
      have hfilter := filter_congr (l := c) hexpired
      have hfilter' := filter_congr (l := c)
        (p := fun y => decide ¬ expired (update records x.2.2 none) timeNow y.2.2)
        (q := fun y => decide ¬ expired records timeNow y.2.2) fun y hy => by rw [hexpired y hy]
      rw [hfilter, hfilter'] at hrest
      simp only [HashMap.sweep, visit, hr, htime, hrest, Option.bind_eq_bind, Option.bind_some,
        Option.pure_def, if_true]
      rw [filter_cons_of_pos (by simp [hexp, htime]), filter_cons_of_neg (by simp [hexp, htime])]
      simp only [map_cons, Option.some_inj, Prod.mk.injEq, and_true]
      funext p
      by_cases hp : p = x.2.2
      · simp [dropAll, hp]
      · simp only [dropAll, update_of_ne hp, mem_cons, hp, false_or]
    · have hrest := ih (fun y hy => hlive y (mem_cons_of_mem _ hy)) hnodup
      simp only [HashMap.sweep, visit, hr, htime, hrest, Option.bind_eq_bind, Option.bind_some,
        Option.pure_def, if_false]
      rw [filter_cons_of_neg (by simp [hexp, htime]), filter_cons_of_pos (by simp [hexp, htime])]
      rfl

/-- Different entries have different records. -/
theorem Inv.values_nodup (h : Inv hash s t) {c : HashMap.Chain UInt32 Nat}
    (hperm : (HashMap.contents c).Perm t.entries) :
    (∀ x ∈ c, ∃ r, s.records x.2.2 = some r ∧ r.ipAddr = x.2.1) ∧ (c.map fun x => x.2.2).Nodup := by
  have hmem : ∀ x ∈ c, ∃ r, s.records x.2.2 = some r ∧ r.ipAddr = x.2.1 := by
    intro x hx
    refine h.points x.2.1 x.2.2 (AList.mem_lookup_iff.mpr (hperm.mem_iff.mp ?_))
    exact mem_map.mpr ⟨x, hx, rfl⟩
  refine ⟨hmem, ?_⟩
  -- the keys are the addresses of the records
  have hkeys : HashMap.keys c = (c.map fun x => x.2.2).map fun p =>
      ((s.records p).map ArpCache.ipAddr).getD 0 := by
    rw [map_map]
    apply map_congr_left
    intro x hx
    obtain ⟨r, hr, hip⟩ := hmem x hx
    simp [hr, hip]
  have hnodup : (HashMap.keys c).Nodup := by
    rw [← HashMap.keys_contents]
    exact (hperm.map Sigma.fst).nodup_iff.mpr t.nodupKeys
  rw [hkeys] at hnodup
  exact hnodup.of_map

theorem arpTableClear_spec (h : Inv hash s t) (timeNow : UInt32) :
    ∃ s' t', s.arpTableClear hash timeNow = some s' ∧ Inv hash s' t' := by
  obtain ⟨cs, hm, hperm⟩ := h.rep
  obtain ⟨hmem, hnodup⟩ := h.values_nodup hperm
  have hlive : ∀ x ∈ cs.flatten, s.records x.2.2 ≠ none := by
    intro x hx
    obtain ⟨r, hr, -⟩ := hmem x hx
    simp [hr]
  obtain ⟨m', rest, hfor, hm', hrest⟩ :=
    HashMap.forEach_sweep (clearExpired_deletesBy timeNow) hm (sweep_visit timeNow hlive hnodup)
  set dropped :=
    (cs.flatten.filter fun x => expired s.records timeNow x.2.2).map fun x => x.2.2 with hdropped
  let t' : Table UInt32 Nat :=
    ⟨t.entries.filter fun x => ¬ expired s.records timeNow x.2, t.nodupKeys.sublist filter_sublist⟩
  have hlook : ∀ key p, t'.lookup key = some p ↔
      t.lookup key = some p ∧ expired s.records timeNow p = false := by
    intro key p
    show p ∈ t'.lookup key ↔ p ∈ t.lookup key ∧ _
    rw [AList.mem_lookup_iff, AList.mem_lookup_iff, mem_filter]
    simp
  -- the records that are dropped are those that are out of date
  have hrecord : ∀ p r, dropAll s.records dropped p = some r ↔
      s.records p = some r ∧ expired s.records timeNow p = false := by
    intro p r
    have hiff : s.records p = some r → (p ∈ dropped ↔ expired s.records timeNow p = true) := by
      intro hr
      constructor
      · intro hp
        obtain ⟨x, hx, rfl⟩ := mem_map.mp hp
        exact (mem_filter.mp hx).2
      · intro hexp
        have hentry := hperm.mem_iff.mpr (AList.mem_lookup_iff.mp (h.filed p r hr))
        obtain ⟨x, hx, heq⟩ := mem_map.mp hentry
        have hp : x.2.2 = p := congrArg (fun y : Σ _ : UInt32, Nat => y.2) heq
        rw [← hp] at hexp
        exact mem_map.mpr ⟨x, mem_filter.mpr ⟨hx, hexp⟩, hp⟩
    unfold dropAll
    split
    · rename_i hp
      constructor
      · intro hnone
        cases hnone
      · rintro ⟨hr, hexp⟩
        rw [(hiff hr).mp hp] at hexp
        cases hexp
    · rename_i hp
      constructor
      · intro hr
        exact ⟨hr, Bool.eq_false_iff.mpr fun hexp => hp ((hiff hr).mpr hexp)⟩
      · exact And.left
  refine ⟨⟨m', dropAll s.records dropped⟩, t', by simp [arpTableClear, hfor],
    ⟨rest, hm', ?_⟩, ?_, ?_⟩
  · have hkept := hperm.filter fun x => ¬ expired s.records timeNow x.2
    rw [hrest]
    rw [HashMap.contents, filter_map] at hkept
    exact hkept
  · intro key p hp
    obtain ⟨hp, hexp⟩ := (hlook key p).mp hp
    obtain ⟨r, hr, hip⟩ := h.points key p hp
    exact ⟨r, (hrecord p r).mpr ⟨hr, hexp⟩, hip⟩
  · intro p r hr
    obtain ⟨hr, hexp⟩ := (hrecord p r).mp hr
    exact (hlook _ p).mpr ⟨h.filed p r hr, hexp⟩

/-! ## Runs -/

theorem inv_new : Inv hash new ∅ where
  rep := HashMap.represents_new (show HashMap.newHashMapWithCap true true 8 = some _ from rfl)
  points key p hp := by cases hp
  filed p r hr := by cases hr

theorem step_spec (h : Inv hash s t) (e : Event) :
    ∃ s', s.step hash e = some s' ∧ FilesIf hash s e s' := by
  cases e with
  | setArpCache alloc timeNow ipAddr macAddr =>
    exact setArpCache_spec h alloc timeNow ipAddr macAddr
  | arpTableClear timeNow =>
    obtain ⟨s', t', hclear, h'⟩ := arpTableClear_spec h timeNow
    exact ⟨s', hclear, .of_inv trivial h'⟩

theorem runCalls_spec {es : List Event} (h : Inv hash s t) (hes : s.AllPair hash es) :
    ∃ s' t', s.runCalls hash es = some s' ∧ Inv hash s' t' := by
  induction es generalizing s t with
  | nil => exact ⟨s, t, rfl, h⟩
  | cons e es ih =>
    obtain ⟨hpairs, hrest⟩ := hes
    obtain ⟨s₁, hstep, hfiles, -⟩ := step_spec h e
    obtain ⟨t₁, h₁⟩ := hfiles hpairs
    obtain ⟨s', t', hrun, h'⟩ := ih h₁ (hrest s₁ hstep)
    exact ⟨s', t', by simp [runCalls, hstep, hrun], h'⟩

/-- In every run whose calls meet `Pairs` all records are filed. A further call returns, and the
records are filed after it if and only if it meets `Pairs` too. -/
theorem arp_records_filed (hash : UInt32 → UInt64) (es : List Event) (hes : new.AllPair hash es) :
    ∃ s, new.runCalls hash es = some s ∧ s.Filed hash ∧
      ∀ e, ∃ s', s.step hash e = some s' ∧ (s'.Filed hash ↔ s.Pairs hash e) := by
  obtain ⟨s, t, hrun, h⟩ := runCalls_spec inv_new hes
  refine ⟨s, hrun, h.toFiled, fun e => ?_⟩
  obtain ⟨s', hstep, hfiles, hloses⟩ := step_spec h e
  refine ⟨s', hstep, fun hfiled => ?_, fun hpairs => ?_⟩
  · by_contra hnot
    exact hloses hnot hfiled
  · obtain ⟨t', h'⟩ := hfiles hpairs
    exact h'.toFiled

end

/-- A record that is filed, one for which there is no memory, and a round that clears the first
one. -/
def sampleCalls : List Event :=
  [.setArpCache ⟨some 5, ⟨some 1, true, []⟩⟩ 0 #v[10, 0, 0, 1] #v[2, 0, 0, 0, 0, 1],
    .setArpCache ⟨none, ⟨some 2, true, []⟩⟩ 0 #v[10, 0, 0, 2] #v[2, 0, 0, 0, 0, 2],
      .arpTableClear 301]

theorem arp_records_filed_sampleCalls :
    ((new.runCalls UInt32.toUInt64 sampleCalls).map fun s => (s.records 5).isSome) = some false ∧
      ∃ s, new.runCalls UInt32.toUInt64 sampleCalls = some s ∧ s.Filed UInt32.toUInt64 ∧
        ∀ e, ∃ s', s.step UInt32.toUInt64 e = some s' ∧
          (s'.Filed UInt32.toUInt64 ↔ s.Pairs UInt32.toUInt64 e) := by
  refine ⟨by decide +kernel,
    arp_records_filed UInt32.toUInt64 sampleCalls ⟨fun _ _ => by decide, ?_⟩⟩
  intro s' _
  exact ⟨fun _ hne => absurd rfl hne, fun _ _ => ⟨trivial, fun _ _ => trivial⟩⟩

/-- The pool has a block for the record and none for the entry of the table: the record stays
allocated, and no entry has it. -/
theorem record_without_entry :
    ∃ s r, new.runCalls UInt32.toUInt64
        [.setArpCache ⟨some 5, ⟨none, true, []⟩⟩ 0 #v[10, 0, 0, 1] #v[2, 0, 0, 0, 0, 1]] = some s ∧
      s.records 5 = some r ∧ s.table.get UInt32.toUInt64 r.ipAddr = some none ∧
      s.table.len = 0 ∧ ¬ s.Filed UInt32.toUInt64 := by
  refine ⟨_, _, rfl, rfl, by decide +kernel, rfl, fun hfiled => ?_⟩
  have hentry := (hfiled 5 _ rfl _).mpr rfl
  revert hentry
  decide +kernel

end ArpTable

end Halo
