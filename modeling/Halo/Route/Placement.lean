import Halo.Route.Listing

/-!
# Where the routes of the table are (`engine/ipv4_engine.go`)

`UpdateRoute(old, new)` walks along the bits of `old` and puts `new` into the node that it reaches.
`AddRoute` and `DeleteRoute` are the calls with `old` as the new route and with none. A replacement
by a route of another prefix leaves that route in the node of the old one.

* `TableCall.KeepsPrefix`: the new route of the call, if it has one, has the node of the old one.
* `Placed`: every route is in the node of its own prefix.
* `not_placed_call`: a misplaced route stays where it is, since the calls that name it look
  elsewhere.
* `routes_on_own_prefix_iff`: the routes are placed exactly if every `UpdateRoute` has kept the
  prefix.
-/

namespace Halo

/-- A call that changes the table. The new route of `UpdateRoute` may be nil. -/
inductive TableCall where
  | call (c : RouteCall RouteEntry)
  | update (old : RouteEntry) (new : Option RouteEntry)
  deriving DecidableEq

namespace TableCall

/-- The route that the walk follows. -/
def old : TableCall → RouteEntry
  | .call c => c.route
  | .update r _ => r

/-- The route that is put into the node. -/
def new : TableCall → Option RouteEntry
  | .call c => c.new
  | .update _ r => r

/-- The call stores no route, or one whose prefix is the prefix of the old route. -/
def KeepsPrefix (c : TableCall) : Prop := ∀ r ∈ c.new, r.nodePath = c.old.nodePath

instance (c : TableCall) : Decidable c.KeepsPrefix :=
  inferInstanceAs (Decidable (∀ r ∈ c.new, r.nodePath = c.old.nodePath))

theorem keepsPrefix_call (c : RouteCall RouteEntry) : (call c).KeepsPrefix := by
  intro r hr
  cases c with
  | add r' =>
    obtain rfl : r' = r := Option.some_inj.mp hr
    rfl
  | delete r' => cases hr

end TableCall

namespace RouteTable

/-- One call. -/
def callTable (t : RouteTable) : TableCall → RouteTable
  | .call c => t.call c
  | .update old new => t.updateRoute old new

/-- The table after the calls, from the empty one. -/
def runTable (calls : List TableCall) : RouteTable := calls.foldl .callTable .empty

/-- Every route is in the node of its own prefix. -/
def Placed (t : RouteTable) : Prop :=
  ∀ p l, t.root.at p = some l → ∀ e ∈ l, p = e.nodePath

/-! ## One call -/

theorem callTable_eq (t : RouteTable) (c : TableCall) :
    t.callTable c = t.updateRoute c.old c.new := by
  cases c with
  | call c => exact t.call_eq c
  | update old new => rfl

theorem runTable_snoc (calls : List TableCall) (c : TableCall) :
    runTable (calls ++ [c]) = (runTable calls).callTable c := by
  simp [runTable]

theorem runTable_root_ne_nil (calls : List TableCall) : (runTable calls).root ≠ .nil :=
  foldl_root_ne_nil (fun t c => ⟨_, _, t.callTable_eq c⟩) calls

variable {t : RouteTable}

/-- The routes at a node after a call, by the routes that were there. -/
theorem mem_at_callTable (ht : t.root ≠ .nil) (c : TableCall) (p : List Bool)
    (e : RouteEntry) : e ∈ ((t.callTable c).root.at p).getD [] ↔
      (e ∈ (t.root.at p).getD [] ∧ (p = c.old.nodePath → e.ident ≠ c.old.ident)) ∨
        (p = c.old.nodePath ∧ c.new = some e) := by
  rw [callTable_eq, at_updateRoute ht]
  split
  · next hp => simp [mem_newRouteList, hp]
  · next hp => simp [hp]

theorem placed_iff_mem (t : RouteTable) :
    t.Placed ↔ ∀ p, ∀ e ∈ (t.root.at p).getD [], p = e.nodePath := by
  constructor
  · intro h p e he
    cases hp : t.root.at p with
    | none => simp [hp] at he
    | some l => exact h p l hp e (by simpa [hp] using he)
  · intro h p l hp e he
    exact h p e (by simpa [hp] using he)

theorem Placed.callTable (ht : t.root ≠ .nil) (h : t.Placed) {c : TableCall}
    (hc : c.KeepsPrefix) : (t.callTable c).Placed := by
  rw [placed_iff_mem] at h ⊢
  intro p e he
  rcases (mem_at_callTable ht c p e).mp he with ⟨hold, -⟩ | ⟨rfl, hnew⟩
  · exact h p e hold
  · exact (hc e hnew).symm

/-- A misplaced route is not in the node that a call with its own identity reaches: nothing removes
it. -/
theorem not_placed_call (ht : t.root ≠ .nil) (h : ¬ t.Placed) (c : TableCall) :
    ¬ (t.callTable c).Placed := by
  simp only [placed_iff_mem, not_forall] at h ⊢
  obtain ⟨p, e, he, hp⟩ := h
  refine ⟨p, e, (mem_at_callTable ht c p e).mpr (.inl ⟨he, ?_⟩), hp⟩
  intro hold hident
  exact hp (hold.trans (RouteEntry.nodePath_eq_of_ident hident).symm)

/-- A call that changes the prefix leaves its new route in the node of the old one. -/
theorem not_placed_of_not_keepsPrefix (ht : t.root ≠ .nil) {c : TableCall}
    (hc : ¬ c.KeepsPrefix) : ¬ (t.callTable c).Placed := by
  simp only [TableCall.KeepsPrefix, not_forall] at hc
  obtain ⟨r, hnew, hne⟩ := hc
  rw [placed_iff_mem]
  intro h
  exact hne (h _ r ((mem_at_callTable ht c _ r).mpr (.inr ⟨rfl, hnew⟩))).symm

theorem placed_empty : empty.Placed := by
  rw [placed_iff_mem]
  simp [empty]

/-! ## Sequences of calls -/

theorem placed_runTable_iff (calls : List TableCall) :
    (runTable calls).Placed ↔ ∀ c ∈ calls, c.KeepsPrefix := by
  induction calls using List.reverseRecOn with
  | nil => simp [runTable, placed_empty]
  | append_singleton calls c ih =>
    have hroot := runTable_root_ne_nil calls
    rw [runTable_snoc, List.forall_mem_append, List.forall_mem_singleton, ← ih]
    constructor
    · intro h
      refine ⟨?_, ?_⟩
      · by_contra hbefore
        exact not_placed_call hroot hbefore c h
      · by_contra hc
        exact not_placed_of_not_keepsPrefix hroot hc h
    · rintro ⟨hbefore, hc⟩
      exact hbefore.callTable hroot hc

/-- The routes are on their own prefixes exactly if no call has replaced a route by one of another
prefix. -/
theorem routes_on_own_prefix_iff (calls : List TableCall) :
    (runTable calls).Placed ↔
      ∀ old new, .update old (some new) ∈ calls → new.nodePath = old.nodePath := by
  rw [placed_runTable_iff]
  constructor
  · intro h old new hmem
    exact h _ hmem new rfl
  · intro h c hmem
    cases c with
    | call c => exact TableCall.keepsPrefix_call c
    | update old new =>
      intro r hr
      obtain rfl : new = some r := hr
      exact h old r hmem

/-- `10.0.0.0/8` is replaced by `192.168.0.0/16` in the empty table: the new route is in the node of
the 8 bits of 10. -/
theorem replaced_route_on_old_prefix :
    let old : RouteEntry := ⟨#v[10, 0, 0, 0], #v[255, 0, 0, 0], #v[0, 0, 0, 0], false, "a"⟩
    let new : RouteEntry := ⟨#v[192, 168, 0, 0], #v[255, 255, 0, 0], #v[0, 0, 0, 0], false, "a"⟩
    let t := runTable [.update old (some new)]
    t.root.at old.nodePath = some [new] ∧ old.nodePath ≠ new.nodePath ∧ ¬ t.Placed := by
  intro old new t
  have hat : t.root.at old.nodePath = some [new] := by decide +kernel
  have hne : old.nodePath ≠ new.nodePath := by decide +kernel
  exact ⟨hat, hne, fun h => hne (h _ _ hat new (by simp))⟩

end RouteTable

end Halo
