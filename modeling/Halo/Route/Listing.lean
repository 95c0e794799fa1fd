import Halo.Route.Trie

/-!
# The listing of the route table (`engine/ipv4_engine.go`)

`ListRoute` walks over all nodes of the trie and collects their route lists. After any calls of
`AddRoute` and `DeleteRoute` it returns the live routes, each once.

* `LiveAfter`: the last call that named a route's identity added the route itself.
* `mem_at_runCalls`: a live route is in the list of the node that its destination and mask lead to,
  and in no other one.
* `listRoute_live`: the listing is the live set.

No assumption is made on the masks: a mask with gaps leads to the node of its lowest one bit.
-/

namespace Halo

open List

/-- `RouteTable.foreachNode`. -/
def TrieNode.foreachNode : TrieNode → List RouteEntry
  | .nil => []
  | .node routeList left right => routeList.getD [] ++ left.foreachNode ++ right.foreachNode

/-- `RouteTable.ListRoute`. -/
def RouteTable.listRoute (t : RouteTable) : List RouteEntry := t.root.foreachNode

/-- The route was added, and no call has named its identity since. -/
def LiveAfter (calls : List (RouteCall RouteEntry)) (e : RouteEntry) : Prop :=
  ∃ before after, calls = before ++ .add e :: after ∧ ∀ c ∈ after, c.route.ident ≠ e.ident

/-! ## Live routes -/

theorem liveAfter_nil (e : RouteEntry) : ¬ LiveAfter [] e := by
  rintro ⟨before, after, h, -⟩
  simp at h

/-- One more call: its own route is live if it is an addition, and routes of other identities
stay. -/
theorem liveAfter_snoc (calls : List (RouteCall RouteEntry)) (c : RouteCall RouteEntry)
    (e : RouteEntry) :
    LiveAfter (calls ++ [c]) e ↔ c = .add e ∨ LiveAfter calls e ∧ c.route.ident ≠ e.ident := by
  constructor
  · rintro ⟨before, after, h, hafter⟩
    -- the addition is the last call, or the last call is one of those after it
    rcases eq_nil_or_concat after with rfl | ⟨after', c', rfl⟩
    · exact .inl (by simpa using (append_inj' h rfl).2)
    · have hsplit : calls ++ [c] = (before ++ .add e :: after') ++ [c'] := by simpa using h
      obtain ⟨rfl, hc⟩ := append_inj' hsplit rfl
      obtain rfl : c = c' := by simpa using hc
      exact .inr ⟨⟨before, after', rfl, fun x hx => hafter x (by simp [hx])⟩, hafter c (by simp)⟩
  · rintro (rfl | ⟨⟨before, after, rfl, hafter⟩, hc⟩)
    · exact ⟨calls, [], rfl, by simp⟩
    · refine ⟨before, after ++ [c], by simp, fun x hx => ?_⟩
      rcases mem_append.mp hx with hx | hx
      · exact hafter x hx
      · rw [mem_singleton.mp hx]
        exact hc

/-! ## The walk over the trie -/

namespace TrieNode

theorem mem_foreachNode {t : TrieNode} {e : RouteEntry} :
    e ∈ t.foreachNode ↔ ∃ p, e ∈ (t.at p).getD [] := by
  induction t with
  | nil => simp [foreachNode]
  | node routeList left right ihl ihr =>
    simp only [foreachNode, mem_append, ihl, ihr]
    constructor
    · rintro ((h | ⟨p, h⟩) | ⟨p, h⟩)
      · exact ⟨[], h⟩
      · exact ⟨false :: p, h⟩
      · exact ⟨true :: p, h⟩
    · rintro ⟨p, h⟩
      cases p with
      | nil => exact .inl (.inl h)
      | cons b p =>
        cases b with
        | false => exact .inl (.inr ⟨p, h⟩)
        | true => exact .inr ⟨p, h⟩

/-- If no node has an entry twice and no two nodes have a common one, the walk collects each entry
once. -/
theorem nodup_foreachNode {α : Type} (f : RouteEntry → α) {t : TrieNode}
    (hnode : ∀ p, (((t.at p).getD []).map f).Nodup)
    (hnodes : ∀ p q e e', e ∈ (t.at p).getD [] → e' ∈ (t.at q).getD [] → f e = f e' → p = q) :
    (t.foreachNode.map f).Nodup := by
  induction t with
  | nil => simp [foreachNode]
  | node routeList left right ihl ihr =>
    have hleft := ihl (fun p => hnode (false :: p)) fun p q e e' he he' heq =>
      (cons.inj (hnodes (false :: p) (false :: q) e e' he he' heq)).2
    have hright := ihr (fun p => hnode (true :: p)) fun p q e e' he he' heq =>
      (cons.inj (hnodes (true :: p) (true :: q) e e' he he' heq)).2
    -- an entry of the node is not below it, and the two sides have no common one
    simp only [foreachNode, map_append, nodup_append', disjoint_append_left]
    refine ⟨⟨hnode [], hleft, ?_⟩, hright, ?_, ?_⟩
    all_goals
      intro x hx hx'
      obtain ⟨e, he, rfl⟩ := mem_map.mp hx
      obtain ⟨e', he', heq⟩ := mem_map.mp hx'
    · obtain ⟨q, hq⟩ := mem_foreachNode.mp he'
      exact absurd (hnodes [] (false :: q) e e' he hq heq.symm) (by simp)
    · obtain ⟨q, hq⟩ := mem_foreachNode.mp he'
      exact absurd (hnodes [] (true :: q) e e' he hq heq.symm) (by simp)
    · obtain ⟨p, hp⟩ := mem_foreachNode.mp he
      obtain ⟨q, hq⟩ := mem_foreachNode.mp he'
      exact absurd (hnodes (false :: p) (true :: q) e e' hp hq heq.symm) (by simp)

theorem foreachNode_orNew (t : TrieNode) : t.orNew.foreachNode = t.foreachNode := by
  cases t <;> rfl

/-- An update that keeps the list of its node keeps the listing. -/
theorem foreachNode_updateAt {dst : Ipv4Addr} {f : List RouteEntry → List RouteEntry} {k i : Nat}
    {t : TrieNode} (ht : t ≠ .nil)
    (h : f ((t.at (pathFrom dst i k)).getD []) = (t.at (pathFrom dst i k)).getD []) :
    (t.updateAt dst f k i).foreachNode = t.foreachNode := by
  induction k generalizing i t with
  | zero =>
    cases t with
    | nil => exact absurd rfl ht
    | node routeList left right => simpa [updateAt, foreachNode, «at»] using h
  | succ k ih =>
    cases t with
    | nil => exact absurd rfl ht
    | node routeList left right =>
      rw [pathFrom_succ] at h
      by_cases hb : addrBit dst i = 0
      · have hchild := ih (orNew_ne_nil left) (by simpa [hb, «at»] using h)
        simp [updateAt, hb, foreachNode, hchild, foreachNode_orNew]
      · have hchild := ih (orNew_ne_nil right) (by simpa [hb, «at»] using h)
        simp [updateAt, hb, foreachNode, hchild, foreachNode_orNew]

end TrieNode

/-! ## Calls -/

theorem mem_newRouteList {old e : RouteEntry} {new : Option RouteEntry} {l : List RouteEntry} :
    e ∈ newRouteList old new l ↔ e ∈ l ∧ e.ident ≠ old.ident ∨ new = some e := by
  simp only [newRouteList, mem_append, mem_filter, Bool.not_eq_true', ← Bool.not_eq_true,
    RouteEntry.same_iff, Option.mem_toList, ne_eq]

namespace RouteTable

/-- The live routes are in the lists of their own nodes. -/
theorem mem_at_runCalls (calls : List (RouteCall RouteEntry)) (p : List Bool) (e : RouteEntry) :
    e ∈ ((runCalls calls).root.at p).getD [] ↔ LiveAfter calls e ∧ p = e.nodePath := by
  induction calls using List.reverseRecOn generalizing p e with
  | nil => simp [runCalls, empty, liveAfter_nil]
  | append_singleton calls c ih =>
    have hadd : c.new = some e ↔ c = .add e := by cases c <;> simp [RouteCall.new]
    rw [runCalls_snoc, call_eq, at_updateRoute (runCalls_root_ne_nil calls), liveAfter_snoc]
    by_cases hp : p = c.route.nodePath
    · rw [if_pos hp, Option.getD_some, mem_newRouteList, ih, hadd]
      constructor
      · rintro (⟨⟨hlive, hpath⟩, hne⟩ | rfl)
        · exact ⟨.inr ⟨hlive, hne.symm⟩, hpath⟩
        · exact ⟨.inl rfl, hp⟩
      · rintro ⟨rfl | ⟨hlive, hne⟩, hpath⟩
        · exact .inr rfl
        · exact .inl ⟨⟨hlive, hpath⟩, hne.symm⟩
    · rw [if_neg hp, ih]
      constructor
      · rintro ⟨hlive, rfl⟩
        exact ⟨.inr ⟨hlive, fun hident => hp (RouteEntry.nodePath_eq_of_ident hident).symm⟩, rfl⟩
      · rintro ⟨rfl | ⟨hlive, -⟩, hpath⟩
        · exact absurd hpath hp
        · exact ⟨hlive, hpath⟩

/-- No node has two routes of one identity. -/
theorem nodup_at_runCalls (calls : List (RouteCall RouteEntry)) (p : List Bool) :
    ((((runCalls calls).root.at p).getD []).map RouteEntry.ident).Nodup := by
  induction calls using List.reverseRecOn with
  | nil => simp [runCalls, empty]
  | append_singleton calls c ih =>
    rw [runCalls_snoc, call_eq, at_updateRoute (runCalls_root_ne_nil calls)]
    split
    · rw [Option.getD_some, newRouteList, map_append]
      have hkept := (Sublist.map RouteEntry.ident (filter_sublist
        (p := fun e => !e.same c.route) (l := ((runCalls calls).root.at p).getD []))).nodup ih
      cases c with
      | delete r => simpa [RouteCall.new] using hkept
      | add r =>
        simp only [RouteCall.new, Option.toList_some, map_cons, map_nil]
        rw [nodup_append']
        refine ⟨hkept, nodup_singleton _, ?_⟩
        -- the entries that were kept have other identities
        intro x hx hx'
        obtain ⟨e, he, rfl⟩ := mem_map.mp hx
        have hident := mem_singleton.mp hx'
        simp [RouteCall.route, mem_filter, ← Bool.not_eq_true, RouteEntry.same_iff, hident] at he
    · exact ih

/-- Route listing. After any calls the listing has exactly the live routes, and no identity twice;
the deletion of a route that is not live leaves it as it is. -/
theorem listRoute_live (calls : List (RouteCall RouteEntry)) :
    (∀ e, e ∈ (runCalls calls).listRoute ↔ LiveAfter calls e) ∧
      ((runCalls calls).listRoute.map RouteEntry.ident).Nodup ∧
      ∀ r : RouteEntry, (∀ e, LiveAfter calls e → e.ident ≠ r.ident) →
        ((runCalls calls).deleteRoute r).listRoute = (runCalls calls).listRoute := by
  refine ⟨fun e => ?_, ?_, fun r habsent => ?_⟩
  · simp only [listRoute, TrieNode.mem_foreachNode, mem_at_runCalls, exists_and_left,
      exists_eq, and_true]
  · refine TrieNode.nodup_foreachNode _ (nodup_at_runCalls calls) fun p q e e' he he' heq => ?_
    rw [((mem_at_runCalls calls p e).mp he).2, ((mem_at_runCalls calls q e').mp he').2]
    exact RouteEntry.nodePath_eq_of_ident heq
  · refine TrieNode.foreachNode_updateAt (runCalls_root_ne_nil calls) ?_
    simp only [newRouteList, Option.toList_none, append_nil, filter_eq_self]
    intro e he
    have hne := habsent e ((mem_at_runCalls calls _ e).mp he).1
    simpa [← Bool.not_eq_true, RouteEntry.same_iff] using hne

end RouteTable

end Halo
