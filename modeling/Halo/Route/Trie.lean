import Halo.Base.Bytes
import Halo.Protocol.Addr

/-!
# The route table (`engine/ipv4_engine.go`)

`RouteTable` is a binary trie: the bits of a destination prefix lead to the node that holds the
routes of that prefix. `updateRoute` replaces a route in the node of the old route's prefix;
`addRoute` and `deleteRoute` are its two uses. `findRoute` walks down the bits of an address and
keeps the last route list that is not `nil`.

A Go slice can be `nil` or empty, and `FindRoute` tells the two apart: a route list is an
`Option (List RouteEntry)`, with `none` for `nil`.

* `TrieNode.at p`: the route list at the end of the path `p`. What one update does to it is
  `at_updateAt`, what a lookup returns is `findList_spec`.
* `RouteCall`, `RouteTable.runCalls`: calls of `AddRoute` and `DeleteRoute`. `RouteEntry.ident`:
  what `UpdateRoute` compares of two routes.
-/

namespace Halo

/-- `RouteEntry`. -/
structure RouteEntry where
  dstIpAddr : Ipv4Addr
  networkMask : Ipv4Addr
  nextHop : Ipv4Addr
  /-- Whether `nextHop` is used; `false` is a directly connected network. -/
  hasNextHop : Bool
  netIf : String
  deriving DecidableEq

/-- `*TrieNode`: `nil`, or a node with its route list and its two children. -/
inductive TrieNode where
  | nil
  | node (routeList : Option (List RouteEntry)) (left right : TrieNode)
  deriving DecidableEq

namespace TrieNode

/-- `new(TrieNode)`. -/
def new : TrieNode := .node none .nil .nil

/-- The child that a descent creates when it is missing. -/
def orNew : TrieNode → TrieNode
  | .nil => new
  | t => t

/-- `node.RouteList`. -/
def routeList : TrieNode → Option (List RouteEntry)
  | .nil => none
  | .node rl _ _ => rl

/-- The descent of `UpdateRoute` from bit `i` over `k` bits of `dst`, with missing nodes created
on the way, and the rewrite `f` of the route list at its end (which is not `nil` afterwards). -/
def updateAt (dst : Ipv4Addr) (f : List RouteEntry → List RouteEntry) :
    (k i : Nat) → TrieNode → TrieNode
  | _, _, .nil => .nil
  | 0, _, .node rl l r => .node (some (f (rl.getD []))) l r
  | k + 1, i, .node rl l r =>
    if addrBit dst i = 0 then .node rl (updateAt dst f k (i + 1) l.orNew) r
    else .node rl l (updateAt dst f k (i + 1) r.orNew)

/-- The loop of `FindRoute` from bit `i` over at most `k` bits: the node where it stops and the
last route list that is not `nil` on the way. -/
def findLoop (ip : Ipv4Addr) :
    (k i : Nat) → TrieNode → Option (List RouteEntry) → TrieNode × Option (List RouteEntry)
  | 0, _, cur, lastMatch => (cur, lastMatch)
  | _ + 1, _, .nil, lastMatch => (.nil, lastMatch)
  | k + 1, i, .node rl l r, lastMatch =>
    let lastMatch := if rl.isSome then rl else lastMatch
    match if addrBit ip i = 0 then l else r with
    | .nil => (.node rl l r, lastMatch)
    | child => findLoop ip k (i + 1) child lastMatch

/-- `lastMatch` of `FindRoute` before the choice of a route. -/
def findList (ip : Ipv4Addr) (root : TrieNode) : Option (List RouteEntry) :=
  let (cur, lastMatch) := findLoop ip 32 0 root none
  if cur.routeList.isSome then cur.routeList else lastMatch

end TrieNode

/-- The loop of `UpdateRoute` that counts the mask bits, with `i` and the remaining rounds. -/
def maskSizeLoop (networkMaskU : UInt32) (i : Nat) : Nat → Nat
  | 0 => 0
  | k + 1 => if shl32 networkMaskU i = 0 then 1 else 1 + maskSizeLoop networkMaskU (i + 1) k

/-- `maskSize` of `UpdateRoute`: the number of bits down to the lowest one bit of the mask. -/
def maskSize (networkMask : Ipv4Addr) : Nat :=
  if ipAddrToU networkMask ≠ 0 then maskSizeLoop (ipAddrToU networkMask) 1 32 else 0

/-- The test of `UpdateRoute` for the entry that the old route replaces. -/
def RouteEntry.same (routeEntry oldRoute : RouteEntry) : Bool :=
  routeEntry.dstIpAddr = oldRoute.dstIpAddr && routeEntry.networkMask = oldRoute.networkMask &&
    routeEntry.hasNextHop = oldRoute.hasNextHop &&
    (!routeEntry.hasNextHop || routeEntry.nextHop = oldRoute.nextHop) &&
    routeEntry.netIf = oldRoute.netIf

/-- The route list that `UpdateRoute` builds for the node of `oldRoute`. -/
def newRouteList (oldRoute : RouteEntry) (newRoute : Option RouteEntry) (l : List RouteEntry) :
    List RouteEntry :=
  l.filter (fun e => !e.same oldRoute) ++ newRoute.toList

/-- `RouteTable`. -/
structure RouteTable where
  root : TrieNode
  deriving DecidableEq

namespace RouteTable

/-- The table of `InitRouter`, before its routes are added. -/
def empty : RouteTable := ⟨TrieNode.new⟩

/-- `RouteTable.UpdateRoute`. -/
def updateRoute (t : RouteTable) (oldRoute : RouteEntry) (newRoute : Option RouteEntry) :
    RouteTable :=
  ⟨t.root.updateAt oldRoute.dstIpAddr (newRouteList oldRoute newRoute)
    (maskSize oldRoute.networkMask) 0⟩

/-- `RouteTable.AddRoute`. -/
def addRoute (t : RouteTable) (route : RouteEntry) : RouteTable := t.updateRoute route (some route)

/-- `RouteTable.DeleteRoute`. -/
def deleteRoute (t : RouteTable) (route : RouteEntry) : RouteTable := t.updateRoute route none

end RouteTable

/-- `hash/fnv.New32a` over a byte list. -/
def fnv32a (data : List UInt8) : UInt32 :=
  data.foldl (fun h b => (h ^^^ b.toUInt32) * 16777619) 2166136261

namespace RouteTable

/-- `RouteTable.FindRoute`. The index is taken modulo `uint32(len(lastMatch))`: that number is `0`
for an empty list. -/
def findRoute (t : RouteTable) (ip : Ipv4Addr) : Except Fault (Option RouteEntry) :=
  match t.root.findList ip with
  | none => .ok none
  | some lastMatch =>
    if lastMatch.length % 2 ^ 32 = 0 then .error .divideByZero
    else
      match lastMatch[(fnv32a ip.toList).toNat % (lastMatch.length % 2 ^ 32)]? with
      | some route => .ok (some route)
      | none => .error .indexOutOfRange

end RouteTable

/-! ## Paths -/

/-- The bits `i`, …, `i + k - 1` of an address. -/
def pathFrom (a : Ipv4Addr) (i k : Nat) : List Bool :=
  (List.range' i k).map fun j => decide (addrBit a j ≠ 0)

/-- The first `n` bits of an address. -/
def path (a : Ipv4Addr) (n : Nat) : List Bool := pathFrom a 0 n

@[simp] theorem pathFrom_zero (a : Ipv4Addr) (i : Nat) : pathFrom a i 0 = [] := rfl

theorem pathFrom_succ (a : Ipv4Addr) (i k : Nat) :
    pathFrom a i (k + 1) = decide (addrBit a i ≠ 0) :: pathFrom a (i + 1) k := by
  simp [pathFrom, List.range'_succ]

@[simp] theorem length_path (a : Ipv4Addr) (n : Nat) : (path a n).length = n := by
  simp [path, pathFrom]

/-- Two addresses have the same first `n` bits. -/
theorem path_eq_iff {a b : Ipv4Addr} {n : Nat} :
    path a n = path b n ↔ ∀ j < n, (addrBit a j = 0 ↔ addrBit b j = 0) := by
  simp only [path, pathFrom, List.map_inj_left, List.mem_range'_1, Nat.zero_le, true_and,
    Nat.zero_add, decide_eq_decide, ne_eq, not_iff_not]

namespace TrieNode

/-- The route list at the end of a path. -/
def «at» : TrieNode → List Bool → Option (List RouteEntry)
  | .nil, _ => none
  | .node rl _ _, [] => rl
  | .node _ l r, b :: p => if b then r.at p else l.at p

@[simp] theorem at_nil_node (p : List Bool) : TrieNode.nil.at p = none := by
  cases p <;> rfl

@[simp] theorem at_new (p : List Bool) : new.at p = none := by
  cases p with
  | nil => rfl
  | cons b p => cases b <;> simp [new, «at»]

@[simp] theorem at_orNew (t : TrieNode) (p : List Bool) : t.orNew.at p = t.at p := by
  cases t <;> simp [orNew]

theorem orNew_ne_nil (t : TrieNode) : t.orNew ≠ .nil := by
  cases t <;> simp [orNew, new]

theorem at_empty (t : TrieNode) : t.at [] = t.routeList := by
  cases t <;> rfl

theorem updateAt_ne_nil {dst : Ipv4Addr} {f : List RouteEntry → List RouteEntry} {k i : Nat}
    {t : TrieNode} (ht : t ≠ .nil) : t.updateAt dst f k i ≠ .nil := by
  cases t with
  | nil => exact absurd rfl ht
  | node rl l r =>
    cases k with
    | zero => simp [updateAt]
    | succ k => unfold updateAt; split <;> simp

/-- An update changes the route list at the end of its path, and no other one. -/
theorem at_updateAt {dst : Ipv4Addr} {f : List RouteEntry → List RouteEntry} {k i : Nat}
    {t : TrieNode} (ht : t ≠ .nil) (p : List Bool) :
    (t.updateAt dst f k i).at p =
      if p = pathFrom dst i k then some (f ((t.at p).getD [])) else t.at p := by
  -- the induction is on the remaining depth; the path loses its first bit with it
  induction k generalizing i t p with
  | zero =>
    cases t with
    | nil => exact absurd rfl ht
    | node rl l r => cases p <;> simp [updateAt, «at»]
  | succ k ih =>
    cases t with
    | nil => exact absurd rfl ht
    | node rl l r =>
      rw [pathFrom_succ]
      by_cases hb : addrBit dst i = 0
      · cases p with
        | nil => simp [updateAt, hb, «at»]
        | cons b p => cases b <;> simp [updateAt, hb, «at», ih (orNew_ne_nil l)]
      · cases p with
        | nil => simp [updateAt, hb, «at»]
        | cons b p => cases b <;> simp [updateAt, hb, «at», ih (orNew_ne_nil r)]

/-- The route list that a stop of the loop at `s` gives. -/
def stopList (s : TrieNode × Option (List RouteEntry)) : Option (List RouteEntry) :=
  if s.1.routeList.isSome then s.1.routeList else s.2

/-- The loop keeps the deepest route list on its path that is not `nil`, else the one it came
with. -/
theorem findLoop_spec (ip : Ipv4Addr) (k i : Nat) (t : TrieNode)
    (lastMatch : Option (List RouteEntry)) :
    (∃ n ≤ k, ∃ l, t.at (pathFrom ip i n) = some l ∧
      (∀ m, n < m → m ≤ k → t.at (pathFrom ip i m) = none) ∧
      stopList (findLoop ip k i t lastMatch) = some l) ∨
    ((∀ n ≤ k, t.at (pathFrom ip i n) = none) ∧
      stopList (findLoop ip k i t lastMatch) = lastMatch) := by
  induction k generalizing i t lastMatch with
  | zero =>
    cases h : t.routeList with
    | none => exact .inr ⟨by simp [at_empty, h], by simp [findLoop, stopList, h]⟩
    | some l =>
      exact .inl ⟨0, le_rfl, l, by simp [at_empty, h], by omega, by simp [findLoop, stopList, h]⟩
  | succ k ih =>
    cases t with
    | nil => exact .inr ⟨by simp, by simp [findLoop, stopList, routeList]⟩
    | node rl l r =>
      -- below this node the path is that of the child the loop goes to
      obtain ⟨c, hc⟩ : ∃ c, c = if addrBit ip i = 0 then l else r := ⟨_, rfl⟩
      have hat : ∀ n, (node rl l r).at (pathFrom ip i (n + 1)) = c.at (pathFrom ip (i + 1) n) := by
        intro n
        rw [pathFrom_succ, hc]
        by_cases hb : addrBit ip i = 0 <;> simp [«at», hb]
      have hstop : stopList (findLoop ip (k + 1) i (node rl l r) lastMatch) =
          stopList (findLoop ip k (i + 1) c (if rl.isSome then rl else lastMatch)) := by
        simp only [findLoop, ← hc]
        cases c with
        | nil =>
          cases k <;> cases rl <;> simp [findLoop, stopList, routeList]
        | node rl' l' r' => rfl
      rw [hstop]
      rcases ih (i + 1) c (if rl.isSome then rl else lastMatch) with
        ⟨n, hn, x, hx, hdeep, hs⟩ | ⟨hnone, hs⟩
      · refine .inl ⟨n + 1, by omega, x, by rw [hat, hx], fun m hm hmk => ?_, hs⟩
        obtain ⟨m, rfl⟩ : ∃ m', m = m' + 1 := ⟨m - 1, by omega⟩
        rw [hat]
        exact hdeep m (by omega) (by omega)
      · have hbelow : ∀ m, 0 < m → m ≤ k + 1 → (node rl l r).at (pathFrom ip i m) = none := by
          intro m hm hmk
          obtain ⟨m, rfl⟩ : ∃ m', m = m' + 1 := ⟨m - 1, by omega⟩
          rw [hat]
          exact hnone m (by omega)
        cases rl with
        | some x => exact .inl ⟨0, by omega, x, rfl, hbelow, by simpa using hs⟩
        | none =>
          refine .inr ⟨fun n hn => ?_, by simpa using hs⟩
          rcases Nat.eq_zero_or_pos n with rfl | hpos
          · rfl
          · exact hbelow n hpos hn

/-- `FindRoute` takes the deepest route list on the path of `ip` that is not `nil`. -/
theorem findList_spec (ip : Ipv4Addr) (t : TrieNode) :
    (∃ n ≤ 32, ∃ l, t.at (path ip n) = some l ∧
      (∀ m, n < m → m ≤ 32 → t.at (path ip m) = none) ∧ t.findList ip = some l) ∨
    ((∀ n ≤ 32, t.at (path ip n) = none) ∧ t.findList ip = none) :=
  findLoop_spec ip 32 0 t none

end TrieNode

/-! ## Calls -/

/-- What `UpdateRoute` compares. -/
structure RouteIdent where
  dstIpAddr : Ipv4Addr
  networkMask : Ipv4Addr
  netIf : String
  nextHop : Option Ipv4Addr
  deriving DecidableEq

namespace RouteEntry

/-- The identity of a route. -/
def ident (r : RouteEntry) : RouteIdent :=
  ⟨r.dstIpAddr, r.networkMask, r.netIf, if r.hasNextHop then some r.nextHop else none⟩

/-- The path of the node that holds the route. -/
def nodePath (r : RouteEntry) : List Bool := path r.dstIpAddr (maskSize r.networkMask)

theorem same_iff (e r : RouteEntry) : e.same r = true ↔ e.ident = r.ident := by
  obtain ⟨dst, mask, hop, has, name⟩ := e
  obtain ⟨dst', mask', hop', has', name'⟩ := r
  cases has <;> cases has' <;> simp [same, ident]
  · tauto
  · tauto

theorem nodePath_eq_of_ident {e r : RouteEntry} (h : e.ident = r.ident) :
    e.nodePath = r.nodePath := by
  simp only [ident, RouteIdent.mk.injEq] at h
  obtain ⟨hdst, hmask, -, -⟩ := h
  rw [nodePath, nodePath, hdst, hmask]

end RouteEntry

/-- A call of `AddRoute` or `DeleteRoute`. -/
inductive RouteCall (ρ : Type) where
  | add (r : ρ)
  | delete (r : ρ)
  deriving DecidableEq

namespace RouteCall

variable {ρ : Type}

/-- The route that a call names. -/
def route : RouteCall ρ → ρ
  | .add r | .delete r => r

/-- What `AddRoute` puts in, and `DeleteRoute` does not. -/
def new : RouteCall ρ → Option ρ
  | .add r => some r
  | .delete _ => none

end RouteCall

namespace RouteTable

/-- One call. -/
def call (t : RouteTable) : RouteCall RouteEntry → RouteTable
  | .add r => t.addRoute r
  | .delete r => t.deleteRoute r

/-- The table after the calls, from the empty one. -/
def runCalls (calls : List (RouteCall RouteEntry)) : RouteTable := calls.foldl .call .empty

theorem call_eq (t : RouteTable) (c : RouteCall RouteEntry) :
    t.call c = t.updateRoute c.route c.new := by
  cases c <;> rfl

theorem runCalls_snoc (calls : List (RouteCall RouteEntry)) (c : RouteCall RouteEntry) :
    runCalls (calls ++ [c]) = (runCalls calls).call c := by
  simp [runCalls]

/-- A table that calls lead to has a root. -/
theorem foldl_root_ne_nil {γ : Type} {step : RouteTable → γ → RouteTable}
    (hstep : ∀ t c, ∃ old new, step t c = t.updateRoute old new) (cs : List γ) :
    (cs.foldl step empty).root ≠ .nil := by
  induction cs using List.reverseRecOn with
  | nil => simp [empty, TrieNode.new]
  | append_singleton cs c ih =>
    obtain ⟨old, new, heq⟩ := hstep (cs.foldl step empty) c
    rw [List.foldl_append, List.foldl_cons, List.foldl_nil, heq]
    exact TrieNode.updateAt_ne_nil ih

theorem runCalls_root_ne_nil (calls : List (RouteCall RouteEntry)) : (runCalls calls).root ≠ .nil :=
  foldl_root_ne_nil (fun t c => ⟨_, _, t.call_eq c⟩) calls

/-- The list of the old route's node is rewritten, the other lists stay. -/
theorem at_updateRoute {t : RouteTable} (ht : t.root ≠ .nil) (old : RouteEntry)
    (new : Option RouteEntry) (p : List Bool) :
    (t.updateRoute old new).root.at p =
      if p = old.nodePath then some (newRouteList old new ((t.root.at p).getD []))
      else t.root.at p :=
  TrieNode.at_updateAt ht p

end RouteTable

end Halo
