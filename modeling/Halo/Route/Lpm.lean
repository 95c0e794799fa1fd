import Halo.Route.Trie

/-!
# Longest-prefix match

What the route table is for: after any sequence of additions and deletions, `findRoute ip` is an
installed route that covers `ip` with the longest prefix, or nothing when none covers it.

* `PrefixRoute`: a route whose mask is made of leading one bits, with the prefix length.
* `installed ops`: the routes that are in the table after the calls `ops`, in the order in which
  an equal-cost set keeps them. `touched ops`: the routes that a call named.
* `at_runOps`: the trie holds at each path a touched prefix leads to the installed routes of that
  prefix (the list is empty, and not `nil`, after the last one was deleted), and `nil` elsewhere.

`FindRoute` tests a route list against `nil` only. `findRoute_lpm_iff` is the exact condition for
its answer to be the longest-prefix match: the longest touched prefix that covers `ip` still has
routes (their number is not `0` as a `uint32`).
-/

namespace Halo

open List

/-- The network mask with `n` leading one bits, as a number. -/
def prefixMask (n : Nat) : UInt32 := UInt32.ofNat (2 ^ 32 - 2 ^ (32 - n))

/-- A route whose mask is made of `len` leading one bits. -/
structure PrefixRoute where
  route : RouteEntry
  len : Nat
  len_le : len ≤ 32
  mask_eq : ipAddrToU route.networkMask = prefixMask len
  deriving DecidableEq

namespace PrefixRoute

/-- The route covers `ip`: the two agree under the mask. -/
def Covers (r : PrefixRoute) (ip : Ipv4Addr) : Prop :=
  ipAddrToU ip &&& ipAddrToU r.route.networkMask =
    ipAddrToU r.route.dstIpAddr &&& ipAddrToU r.route.networkMask

instance (r : PrefixRoute) (ip : Ipv4Addr) : Decidable (r.Covers ip) :=
  inferInstanceAs (Decidable (_ = _))

/-- The path of the node of the route. -/
def key (r : PrefixRoute) : List Bool := path r.route.dstIpAddr r.len

end PrefixRoute

/-- A call as one of the table. -/
def RouteCall.entry : RouteCall PrefixRoute → RouteCall RouteEntry
  | .add r => .add r.route
  | .delete r => .delete r.route

/-- The table after the calls `ops`, from the empty one. -/
def RouteTable.runOps (ops : List (RouteCall PrefixRoute)) : RouteTable :=
  runCalls (ops.map RouteCall.entry)

/-- What one call does to the installed routes: it takes out the entries that the route
replaces, and an addition puts the route in. -/
def installStep (live : List PrefixRoute) : RouteCall PrefixRoute → List PrefixRoute
  | .add r => live.filter (fun e => !e.route.same r.route) ++ [r]
  | .delete r => live.filter fun e => !e.route.same r.route

/-- The installed routes after the calls `ops`. -/
def installed (ops : List (RouteCall PrefixRoute)) : List PrefixRoute := ops.foldl installStep []

/-- The routes that the calls `ops` name. -/
def touched (ops : List (RouteCall PrefixRoute)) : List PrefixRoute := ops.map RouteCall.route

/-- `res` is the longest-prefix match of `ip` among the routes `live`: no fault; no route only if
none covers `ip`; else a route of `live` that covers `ip` with a longest prefix. -/
def LongestMatch (live : List PrefixRoute) (ip : Ipv4Addr) :
    Except Fault (Option RouteEntry) → Prop
  | .error _ => False
  | .ok none => ∀ r ∈ live, ¬ r.Covers ip
  | .ok (some e) => ∃ r ∈ live, r.route = e ∧ r.Covers ip ∧
    ∀ r' ∈ live, r'.Covers ip → r'.len ≤ r.len

/-- The installed routes that cover `ip` with a prefix of `n` bits. -/
def installedAt (ops : List (RouteCall PrefixRoute)) (ip : Ipv4Addr) (n : Nat) : List PrefixRoute :=
  (installed ops).filter fun r => r.Covers ip ∧ r.len = n

/-- The longest prefix that covers `ip`, among all that a call ever named, still has installed
routes: their number is not a multiple of `2 ^ 32`, so in particular it is not `0`. -/
def LongestStillInstalled (ops : List (RouteCall PrefixRoute)) (ip : Ipv4Addr) : Prop :=
  ∀ r ∈ touched ops, r.Covers ip → (∀ r' ∈ touched ops, r'.Covers ip → r'.len ≤ r.len) →
    (installedAt ops ip r.len).length % 2 ^ 32 ≠ 0

/-! ## Masks and paths -/

theorem prefixMask_toNat (n : Nat) :
    (prefixMask n).toNat = 2 ^ 32 - 2 ^ (32 - n) := by
  have : 0 < 2 ^ (32 - n) := Nat.pow_pos (by decide)
  simp only [prefixMask, UInt32.toNat_ofNat']
  exact Nat.mod_eq_of_lt (by omega)

theorem maskSize_loop_prefixMask :
    ∀ n : Fin 33, (if prefixMask n ≠ 0 then maskSizeLoop (prefixMask n) 1 32 else 0) = n := by
  decide +kernel

/-- The descent of `UpdateRoute` goes as deep as the prefix is long. -/
theorem PrefixRoute.maskSize_eq (r : PrefixRoute) : maskSize r.route.networkMask = r.len := by
  have := maskSize_loop_prefixMask ⟨r.len, by have := r.len_le; omega⟩
  simpa [maskSize, r.mask_eq] using this

variable {n : Nat} {ip : Ipv4Addr}

theorem testBit_prefixMask (hn : n ≤ 32) (k : Nat) :
    (prefixMask n).toNat.testBit k = (decide (k < 32) && decide (32 - n ≤ k)) := by
  have h : 2 ^ 32 - 2 ^ (32 - n) = 2 ^ 32 - ((2 ^ (32 - n) - 1) + 1) := by
    have : 0 < 2 ^ (32 - n) := Nat.pow_pos (by decide)
    omega
  have hlt : 2 ^ (32 - n) - 1 < 2 ^ 32 := by
    have : 2 ^ (32 - n) ≤ 2 ^ 32 := Nat.pow_le_pow_right (by decide) (by omega)
    omega
  rw [prefixMask_toNat, h, Nat.testBit_two_pow_sub_succ hlt, Nat.testBit_two_pow_sub_one]
  by_cases hk : 32 - n ≤ k <;> simp [hk]; omega

theorem addrBit_eq_zero_iff (a : Ipv4Addr) {j : Nat} (hj : j < 32) :
    addrBit a j = 0 ↔ (ipAddrToU a).toNat.testBit (31 - j) = false := by
  rw [← UInt8.toNat_inj, addrBit_toNat a hj, Nat.testBit_eq_decide_div_mod_eq]
  have : (ipAddrToU a).toNat / 2 ^ (31 - j) % 2 < 2 := Nat.mod_lt _ (by decide)
  simp only [UInt8.toNat_zero, decide_eq_false_iff_not]
  omega

/-- Agreeing under a mask of `n` leading ones is having the same first `n` bits. -/
theorem mask_agree_iff (a b : Ipv4Addr) (hn : n ≤ 32) :
    ipAddrToU a &&& prefixMask n = ipAddrToU b &&& prefixMask n ↔ path a n = path b n := by
  rw [← UInt32.toNat_inj, path_eq_iff]
  simp only [UInt32.toNat_and]
  constructor
  · intro h j hj
    have hbit := congrArg (·.testBit (31 - j)) h
    simp only [Nat.testBit_and, testBit_prefixMask hn] at hbit
    rw [addrBit_eq_zero_iff a (by omega), addrBit_eq_zero_iff b (by omega)]
    have h1 : 31 - j < 32 := by omega
    have h2 : 32 - n ≤ 31 - j := by omega
    simp only [h1, h2, decide_true, Bool.and_true] at hbit
    rw [hbit]
  · intro h
    apply Nat.eq_of_testBit_eq
    intro k
    simp only [Nat.testBit_and, testBit_prefixMask hn]
    by_cases hk : k < 32 ∧ 32 - n ≤ k
    · have hj := h (31 - k) (by omega)
      rw [addrBit_eq_zero_iff a (by omega), addrBit_eq_zero_iff b (by omega)] at hj
      have hk' : 31 - (31 - k) = k := by omega
      rw [hk'] at hj
      have : (ipAddrToU a).toNat.testBit k = (ipAddrToU b).toNat.testBit k := by
        cases ha : (ipAddrToU a).toNat.testBit k <;> cases hb : (ipAddrToU b).toNat.testBit k <;>
          simp_all
      rw [this]
    · have : (decide (k < 32) && decide (32 - n ≤ k)) = false := by
        simpa [Decidable.not_and_iff_or_not] using hk
      rw [this, Bool.and_false, Bool.and_false]

/-- A route covers `ip` when the first bits of `ip` lead to the route's node. -/
theorem PrefixRoute.covers_iff (r : PrefixRoute) (ip : Ipv4Addr) :
    r.Covers ip ↔ r.key = path ip r.len := by
  unfold Covers key
  rw [r.mask_eq, mask_agree_iff ip r.route.dstIpAddr r.len_le]
  exact eq_comm

theorem PrefixRoute.length_key (r : PrefixRoute) : r.key.length = r.len := by
  simp [key]

/-- The node on the path of `ip` at depth `n` is the route's node when the route covers `ip` with
`n` bits. -/
theorem PrefixRoute.key_eq_path_iff (r : PrefixRoute) (ip : Ipv4Addr) (n : Nat) :
    r.key = path ip n ↔ r.Covers ip ∧ r.len = n := by
  constructor
  · intro h
    have hl : r.len = n := by
      rw [← r.length_key, h, length_path]
    exact ⟨by rw [r.covers_iff, h, hl], hl⟩
  · rintro ⟨hc, rfl⟩
    exact (r.covers_iff ip).mp hc

theorem PrefixRoute.nodePath_eq (r : PrefixRoute) : r.route.nodePath = r.key := by
  rw [RouteEntry.nodePath, r.maskSize_eq, key]

/-- An entry that a route replaces is in the same node. -/
theorem PrefixRoute.key_eq_of_same {e r : PrefixRoute} (h : e.route.same r.route = true) :
    e.key = r.key := by
  rw [← e.nodePath_eq, ← r.nodePath_eq]
  exact RouteEntry.nodePath_eq_of_ident ((RouteEntry.same_iff _ _).mp h)

/-! ## The table and the installed routes -/

theorem installed_snoc (ops : List (RouteCall PrefixRoute)) (op : RouteCall PrefixRoute) :
    installed (ops ++ [op]) = installStep (installed ops) op := by
  simp [installed]

theorem touched_snoc (ops : List (RouteCall PrefixRoute)) (op : RouteCall PrefixRoute) :
    touched (ops ++ [op]) = touched ops ++ [op.route] := by
  simp [touched]

/-- An installed route was named by a call. -/
theorem installed_subset_touched (ops : List (RouteCall PrefixRoute)) :
    installed ops ⊆ touched ops := by
  induction ops using List.reverseRecOn with
  | nil => simp [installed]
  | append_singleton ops op ih =>
    intro r hr
    rw [installed_snoc] at hr
    rw [touched_snoc, mem_append, mem_singleton]
    cases op with
    | add r' =>
      rcases mem_append.mp hr with hr | hr
      · exact .inl (ih (mem_of_mem_filter hr))
      · exact .inr (mem_singleton.mp hr)
    | delete r' => exact .inl (ih (mem_of_mem_filter hr))

/-- The installed routes of one node. -/
def installedKey (live : List PrefixRoute) (p : List Bool) : List RouteEntry :=
  (live.filter fun r => r.key = p).map PrefixRoute.route

/-- Filtering the routes of one node is filtering the installed routes. -/
theorem installedKey_filter (live : List PrefixRoute) (r : PrefixRoute) (p : List Bool) :
    installedKey (live.filter fun e => !e.route.same r.route) p =
      (installedKey live p).filter fun e => !e.same r.route := by
  simp only [installedKey, filter_map, filter_filter]
  congr 1
  apply filter_congr
  intro e _
  simp [Bool.and_comm]

/-- A call changes only the routes of the node of its route. -/
theorem installedKey_filter_ne {live : List PrefixRoute} {r : PrefixRoute} {p : List Bool}
    (h : p ≠ r.key) :
    installedKey (live.filter fun e => !e.route.same r.route) p = installedKey live p := by
  simp only [installedKey, filter_filter]
  congr 1
  apply filter_congr
  intro e _
  by_cases hk : e.key = p
  · have : e.route.same r.route = false := by
      by_contra hs
      exact h (hk ▸ PrefixRoute.key_eq_of_same (by simpa using hs))
    simp [this]
  · simp [hk]

/-- The routes of a node after a call. -/
theorem installedKey_step (live : List PrefixRoute) (op : RouteCall PrefixRoute) (p : List Bool) :
    installedKey (installStep live op) p =
      if p = op.route.key then newRouteList op.route.route op.entry.new (installedKey live p)
      else installedKey live p := by
  cases op with
  | add r =>
    have happ : installedKey (installStep live (.add r)) p =
        installedKey (live.filter fun e => !e.route.same r.route) p ++
          installedKey [r] p := by
      simp [installedKey, installStep]
    rw [happ]
    by_cases hp : p = r.key
    · subst hp
      have hr : installedKey [r] r.key = [r.route] := by simp [installedKey]
      simp [installedKey_filter, newRouteList, RouteCall.route, RouteCall.entry, RouteCall.new, hr]
    · have hr : installedKey [r] p = [] := by simpa [installedKey] using Ne.symm hp
      simp [installedKey_filter_ne hp, RouteCall.route, hp, hr]
  | delete r =>
    by_cases hp : p = r.key
    · simp [installStep, installedKey_filter, newRouteList, RouteCall.route, RouteCall.entry,
        RouteCall.new, hp]
    · simp [installStep, installedKey_filter_ne hp, RouteCall.route, hp]

/-- A call rewrites the route list of the node of its route. -/
theorem at_runOps_snoc (ops : List (RouteCall PrefixRoute)) (op : RouteCall PrefixRoute)
    (p : List Bool) :
    (RouteTable.runOps (ops ++ [op])).root.at p =
      if p = op.route.key then
        some (newRouteList op.route.route op.entry.new
          (((RouteTable.runOps ops).root.at p).getD []))
      else (RouteTable.runOps ops).root.at p := by
  have hroute : op.entry.route = op.route.route := by cases op <;> rfl
  rw [RouteTable.runOps, map_append, map_singleton, RouteTable.runCalls_snoc, RouteTable.call_eq,
    RouteTable.at_updateRoute (RouteTable.runCalls_root_ne_nil _), hroute, PrefixRoute.nodePath_eq]
  rfl

/-- The trie after any calls: a node that a call named holds its installed routes, possibly none;
every other node holds `nil`. -/
theorem at_runOps (ops : List (RouteCall PrefixRoute)) (p : List Bool) :
    (RouteTable.runOps ops).root.at p =
      if p ∈ (touched ops).map PrefixRoute.key then some (installedKey (installed ops) p)
      else none := by
  induction ops using List.reverseRecOn with
  | nil => simp [RouteTable.runOps, RouteTable.runCalls, RouteTable.empty, touched]
  | append_singleton ops op ih =>
    have hget : ((RouteTable.runOps ops).root.at p).getD [] = installedKey (installed ops) p := by
      rw [ih]
      split
      · rfl
      · rename_i hp
        symm
        simp only [Option.getD_none, installedKey, map_eq_nil_iff, filter_eq_nil_iff,
          decide_eq_true_eq]
        intro r hr hk
        exact hp (mem_map.mpr ⟨r, installed_subset_touched ops hr, hk⟩)
    rw [at_runOps_snoc, hget, ih, touched_snoc, installed_snoc,
      installedKey_step]
    by_cases hp : p = op.route.key
    · simp [hp]
    · simp [hp]

/-- The installed routes of the node at depth `n` on the path of `ip`. -/
theorem installedKey_path (ops : List (RouteCall PrefixRoute)) (ip : Ipv4Addr) (n : Nat) :
    installedKey (installed ops) (path ip n) = (installedAt ops ip n).map PrefixRoute.route := by
  simp only [installedKey, installedAt, PrefixRoute.key_eq_path_iff]

theorem mem_touched_keys_path {ops : List (RouteCall PrefixRoute)} :
    path ip n ∈ (touched ops).map PrefixRoute.key ↔
      ∃ r ∈ touched ops, r.Covers ip ∧ r.len = n := by
  simp only [mem_map, PrefixRoute.key_eq_path_iff]

/-! ## The lookup -/

/-- The choice among the routes of the last match is one of them, unless their number is `0` as a
`uint32`. -/
theorem findRoute_of_list {t : RouteTable} {l : List RouteEntry} (h : t.root.findList ip = some l) :
    (l.length % 2 ^ 32 = 0 ∧ t.findRoute ip = .error .divideByZero) ∨
    (l.length % 2 ^ 32 ≠ 0 ∧ ∃ e ∈ l, t.findRoute ip = .ok (some e)) := by
  unfold RouteTable.findRoute
  rw [h]
  by_cases h0 : l.length % 2 ^ 32 = 0
  · exact .inl ⟨h0, by simp only [h0, ↓reduceIte]⟩
  · have hlt : (fnv32a ip.toList).toNat % (l.length % 2 ^ 32) < l.length :=
      lt_of_lt_of_le (Nat.mod_lt _ (Nat.pos_of_ne_zero h0)) (Nat.mod_le _ _)
    refine .inr ⟨h0, l[(fnv32a ip.toList).toNat % (l.length % 2 ^ 32)], getElem_mem hlt, ?_⟩
    simp only [h0, ↓reduceIte, getElem?_eq_getElem hlt]

/-- The lookup when some prefix on the path of `ip` was named: it is decided by the installed
routes of the longest one. -/
theorem longestMatch_iff_of_longest {ops : List (RouteCall PrefixRoute)}
    (hmax : ∀ r ∈ touched ops, r.Covers ip → r.len ≤ n)
    (hlist : (RouteTable.runOps ops).root.findList ip =
      some ((installedAt ops ip n).map PrefixRoute.route)) :
    LongestMatch (installed ops) ip ((RouteTable.runOps ops).findRoute ip) ↔
      (installedAt ops ip n).length % 2 ^ 32 ≠ 0 := by
  rcases findRoute_of_list hlist with ⟨h0, hres⟩ | ⟨h0, e, he, hres⟩
  · rw [length_map] at h0
    rw [hres]
    exact ⟨False.elim, fun h => h h0⟩
  · rw [length_map] at h0
    obtain ⟨r, hr, rfl⟩ := mem_map.mp he
    simp only [installedAt, mem_filter, decide_eq_true_eq] at hr
    obtain ⟨hin, hcov, hlen⟩ := hr
    rw [hres]
    refine ⟨fun _ => h0, fun _ => ⟨r, hin, rfl, hcov, fun r' hr' hc => ?_⟩⟩
    rw [hlen]
    exact hmax r' (installed_subset_touched ops hr') hc

/-- **Longest-prefix match.** After any calls, `findRoute ip` is the longest-prefix match of `ip`
exactly when the longest prefix that covers `ip`, among all that a call named, still has installed
routes. -/
theorem findRoute_lpm_iff (ops : List (RouteCall PrefixRoute)) (ip : Ipv4Addr) :
    LongestMatch (installed ops) ip ((RouteTable.runOps ops).findRoute ip) ↔
      LongestStillInstalled ops ip := by
  rcases TrieNode.findList_spec ip (RouteTable.runOps ops).root with
    ⟨n, hn, l, hat, hdeep, hlist⟩ | ⟨hnone, hlist⟩
  · -- a named prefix is on the path; `n` is the length of the longest one
    rw [at_runOps] at hat
    split at hat
    case isFalse => simp at hat
    rename_i htouch
    obtain ⟨r₀, hr₀, hcov₀, hlen₀⟩ := mem_touched_keys_path.mp htouch
    rw [Option.some.injEq, installedKey_path] at hat
    subst hat
    have hmax : ∀ r ∈ touched ops, r.Covers ip → r.len ≤ n := by
      intro r hr hc
      by_contra hlt
      have hd := hdeep r.len (by omega) r.len_le
      rw [at_runOps, if_pos (mem_touched_keys_path.mpr ⟨r, hr, hc, rfl⟩)] at hd
      simp at hd
    rw [longestMatch_iff_of_longest hmax hlist]
    constructor
    · intro h r hr hc hlong
      have : r.len = n := le_antisymm (hmax r hr hc) (hlen₀ ▸ hlong r₀ hr₀ hcov₀)
      rwa [this]
    · intro h
      have := h r₀ hr₀ hcov₀ fun r hr hc => hlen₀ ▸ hmax r hr hc
      rwa [hlen₀] at this
  · -- no named prefix covers `ip`: the lookup finds nothing, and nothing is installed for it
    have hno : ∀ r ∈ touched ops, ¬ r.Covers ip := by
      intro r hr hc
      have := hnone r.len r.len_le
      rw [at_runOps, if_pos (mem_touched_keys_path.mpr ⟨r, hr, hc, rfl⟩)] at this
      simp at this
    have hres : (RouteTable.runOps ops).findRoute ip = .ok none := by
      simp [RouteTable.findRoute, hlist]
    rw [hres]
    exact ⟨fun _ r hr hc => absurd hc (hno r hr),
      fun _ r hr => hno r (installed_subset_touched ops hr)⟩

/-- The route to `10.0.0.0/8` through `10.0.0.1`. -/
def route10 : PrefixRoute where
  route := ⟨#[10, 0, 0, 0].toVector, #[255, 0, 0, 0].toVector, #[10, 0, 0, 1].toVector, true, "wan"⟩
  len := 8
  len_le := by decide
  mask_eq := by decide

/-- Adding a route and deleting it again leaves an empty list that is not `nil`, and the lookup of
an address below it divides by zero. -/
theorem findRoute_faults_after_delete :
    ¬ LongestMatch (installed [.add route10, .delete route10]) #v[10, 1, 2, 3]
      ((RouteTable.runOps [.add route10, .delete route10]).findRoute #v[10, 1, 2, 3]) := by
  have h : (RouteTable.runOps [.add route10, .delete route10]).findRoute #v[10, 1, 2, 3] =
      .error .divideByZero := by decide
  rw [h]
  exact id

end Halo
