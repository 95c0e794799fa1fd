import Halo.Hashmap.Storage

/-!
# The blocks of a hash map, from its creation to `Free`

* `runOps`: a sequence of operations on a map, with what the allocator does in each `Set`.
* `Sound hash base s`: the map has contents, and the blocks outside of it are those of `base`. Every
  operation keeps it (`step_sound`), and so does every sequence (`runOps_sound`).
* `hashMap_leaks_nothing`: after `Free`, or after a creation that fails, the blocks are those from
  before.
-/

namespace Halo.Lifetime

open StoredMap

variable {K V : Type} [DecidableEq K] (hash : K → UInt64)

/-- The operations of a map that change it. -/
inductive Op (K V : Type) where
  | set (alloc : SetBlocks) (key : K) (value : V)
  | del (key : K)
  | clear

/-- One operation. -/
def step (live : Blocks) (m : StoredMap K V) : Op K V → Option (Blocks × StoredMap K V)
  | .set alloc key value => do
    let (live, m, _) ← m.set hash live alloc key value
    return (live, m)
  | .del key => m.del hash live key
  | .clear => m.clear live

/-- A sequence of operations. -/
def runOps (live : Blocks) (m : StoredMap K V) : List (Op K V) → Option (Blocks × StoredMap K V)
  | [] => some (live, m)
  | op :: ops => do
    let (live, m) ← step hash live m op
    runOps live m ops

variable {hash} {base live : Blocks} {m : StoredMap K V}

/-- The map has contents, and the other blocks are those of `base`. -/
def Sound (hash : K → UInt64) (base : Blocks) (s : Blocks × StoredMap K V) : Prop :=
  Owns base s.1 s.2.store ∧ ∃ t, s.2.Holds hash t

theorem step_sound (h : Sound hash base (live, m)) (op : Op K V) :
    ∃ s, step hash live m op = some s ∧ Sound hash base s := by
  obtain ⟨howns, t, hm⟩ := id h
  cases op with
  | set alloc key value =>
    obtain ⟨live', m', ok, hset, howns', hspec⟩ := set_spec howns hm alloc key value
    refine ⟨(live', m'), by simp [step, hset], howns', ?_⟩
    cases ok with
    | true => exact ⟨_, hspec⟩
    | false =>
      obtain ⟨-, -, rfl⟩ := hspec
      exact ⟨t, hm⟩
  | del key =>
    obtain ⟨live', m', hdel, howns', hm'⟩ := del_spec howns hm key
    exact ⟨(live', m'), hdel, howns', _, hm'⟩
  | clear =>
    obtain ⟨live', m', hclear, howns', hm', -⟩ := clear_spec howns hm
    exact ⟨(live', m'), hclear, howns', _, hm'⟩

theorem runOps_sound (h : Sound hash base (live, m)) (ops : List (Op K V)) :
    ∃ s, runOps hash live m ops = some s ∧ Sound hash base s := by
  induction ops generalizing live m with
  | nil => exact ⟨(live, m), rfl, h⟩
  | cons op ops ih =>
    obtain ⟨⟨live₁, m₁⟩, hstep, h₁⟩ := step_sound h op
    obtain ⟨s, hrun, hs⟩ := ih h₁
    exact ⟨s, by simp [runOps, hstep, hrun], hs⟩

/-- A creation of a map returns, unless the size of its array wraps around. One that fails leaves
the blocks as they were. After one that succeeds, every sequence of operations returns, whatever the
allocator does, and so does `Free`, which leaves the blocks that were allocated before the map. -/
theorem hashMap_leaks_nothing (hash : K → UInt64) (live : Blocks) (cap : Int)
    (self list data : Option Nat) :
    (HashMap.bucketFits (initialCap cap) = true →
      ∃ r, newHashMapWithCap (K := K) (V := V) live cap self list data = some r) ∧
    ∀ r, newHashMapWithCap (K := K) (V := V) live cap self list data = some r →
      match r with
      | (live', none) => live' = live
      | (live₁, some m) => ∀ ops, ∃ live₂ m₂, runOps hash live₁ m ops = some (live₂, m₂) ∧
          free live₂ m₂ = some live := by
  rcases newHashMapWithCap_spec (V := V) hash live cap self list data with
    hnone | ⟨hbad, hfits⟩ | ⟨live₁, m, hsome, howns, hm⟩
  · rw [hnone]
    refine ⟨fun _ => ⟨_, rfl⟩, ?_⟩
    rintro r h
    cases h
    rfl
  · rw [hbad, hfits]
    exact ⟨nofun, nofun⟩
  · rw [hsome]
    refine ⟨fun _ => ⟨_, rfl⟩, ?_⟩
    rintro r h
    cases h
    intro ops
    have hsound : Sound hash live (live₁, m) := ⟨howns, ∅, hm⟩
    obtain ⟨⟨live₂, m₂⟩, hrun, howns₂, t, hm₂⟩ := runOps_sound hsound ops
    exact ⟨live₂, m₂, hrun, free_spec howns₂ hm₂⟩

/-- Seven keys of one hash: the first `Grow` finds no memory for its third entry, the second one
completes. -/
def growingOps : List (Op Nat Nat) :=
  (List.range 6).map (fun k => .set ⟨some (k + 10), none, none, []⟩ k k) ++
    [.set ⟨some 16, some 4, some 5, [some 20, some 21, none]⟩ 6 6,
      .set ⟨some 17, some 4, some 5, (List.range 8).map fun k => some (k + 20)⟩ 7 7, .del 3,
      .set ⟨none, none, none, []⟩ 8 8]

theorem hashMap_leaks_nothing_growingOps :
    ∃ live₁ m, newHashMapWithCap (K := Nat) (V := Nat) (· == 0) 0 (some 1) (some 2) (some 3) =
        some (live₁, some m) ∧
      (runOps (fun _ => 0) live₁ m growingOps).map (fun s => (s.2.list, s.2.data, s.2.map.len)) =
        some (4, 5, 7) ∧
      ∃ live₂ m₂, runOps (fun _ => 0) live₁ m growingOps = some (live₂, m₂) ∧
        free live₂ m₂ = some (· == 0) :=
  ⟨_, _, rfl, by decide +kernel,
    (hashMap_leaks_nothing (fun _ => 0) (· == 0) 0 (some 1) (some 2) (some 3)).2 _ rfl growingOps⟩

end Halo.Lifetime
