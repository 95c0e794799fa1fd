import Mathlib

/-!
# Doubly linked lists in a heap

A heap maps the addresses that are allocated to nodes. `Links` says how to read the two links and
the payload of a node, so that one heap can have several lists through the same nodes.

`Dlseg L h b ps a` is a doubly linked segment: its nodes are at the addresses in `ps`, with the
payloads in `ps`, `b` is the node before it and `a` the node after it.

* `dlseg_append`: a segment is cut anywhere.
* `Dlseg.congr`: a segment depends on its own nodes only.
* `Dlseg.setAfter`, `Dlseg.setBefore`, `Dlseg.setData`: a write to a node changes the link out of
  its end of a segment, or its payload.
* `Dlseg.unlink`, `Dlseg.push`, `Dlseg.insertAfter`: a node is taken out of a list, put in front of
  it, or put behind one of its nodes, by writes to its neighbours (`Heap.modifyAt`).
-/

namespace Halo

open List

/-- A heap of nodes. -/
abbrev Heap (α : Type) := Nat → Option α

/-- How to read a node. -/
structure Links (α β : Type) where
  next : α → Option Nat
  prev : α → Option Nat
  data : α → β

section

variable {α β : Type}

/-- The address of the first node of `ps`, or `a`. -/
def firstOr (ps : List (Nat × β)) (a : Option Nat) : Option Nat := (ps.head?.map Prod.fst).or a

/-- The address of the last node of `ps`, or `b`. -/
def lastOr (b : Option Nat) (ps : List (Nat × β)) : Option Nat := (ps.getLast?.map Prod.fst).or b

@[simp] theorem firstOr_nil (a : Option Nat) : firstOr ([] : List (Nat × β)) a = a := rfl

@[simp] theorem firstOr_cons (x : Nat × β) (ps : List (Nat × β)) (a : Option Nat) :
    firstOr (x :: ps) a = some x.1 := rfl

@[simp] theorem lastOr_nil (b : Option Nat) : lastOr b ([] : List (Nat × β)) = b := rfl

@[simp] theorem lastOr_concat (b : Option Nat) (ps : List (Nat × β)) (x : Nat × β) :
    lastOr b (ps ++ [x]) = some x.1 := by
  simp [lastOr]

@[simp] theorem lastOr_cons (b : Option Nat) (x : Nat × β) (ps : List (Nat × β)) :
    lastOr b (x :: ps) = lastOr (some x.1) ps := by
  cases ps with
  | nil => rfl
  | cons y ps =>
    unfold lastOr
    rw [getLast?_cons_cons]
    obtain ⟨z, hz⟩ := Option.isSome_iff_exists.mp (getLast?_isSome.mpr (cons_ne_nil y ps))
    rw [hz]
    rfl

theorem firstOr_append (ps qs : List (Nat × β)) (a : Option Nat) :
    firstOr (ps ++ qs) a = firstOr ps (firstOr qs a) := by
  cases ps <;> rfl

variable {ps qs : List (Nat × β)} {p q : Nat} {b a : Option Nat} {d : β} {n : α} {f g : α → α}

/-- The first node is one of the nodes. -/
theorem mem_of_firstOr (h : firstOr ps none = some p) : ∃ d qs, ps = (p, d) :: qs := by
  cases ps with
  | nil => cases h
  | cons x qs =>
    cases h
    exact ⟨x.2, qs, rfl⟩

variable (L : Links α β)

/-- A doubly linked segment with the nodes `ps`, between the nodes `b` and `a`. -/
def Dlseg (h : Heap α) : Option Nat → List (Nat × β) → Option Nat → Prop
  | _, [], _ => True
  | b, (p, d) :: ps, a => (∃ n, h p = some n ∧ L.data n = d ∧ L.prev n = b ∧
      L.next n = firstOr ps a) ∧ Dlseg h (some p) ps a

variable {L} {h h' : Heap α}

/-- A segment cut in two. -/
theorem dlseg_append (b : Option Nat) (ps qs : List (Nat × β)) (a : Option Nat) :
    Dlseg L h b (ps ++ qs) a ↔ Dlseg L h b ps (firstOr qs a) ∧ Dlseg L h (lastOr b ps) qs a := by
  induction ps generalizing b with
  | nil => simp [Dlseg]
  | cons x ps ih =>
    obtain ⟨p, d⟩ := x
    simp only [cons_append, Dlseg, ih, lastOr_cons, firstOr_append, and_assoc]

/-- The node in the middle of a segment. -/
theorem Dlseg.node (hs : Dlseg L h b (ps ++ (p, d) :: qs) a) :
    ∃ n, h p = some n ∧ L.data n = d ∧ L.prev n = lastOr b ps ∧ L.next n = firstOr qs a :=
  ((dlseg_append b ps _ a).mp hs).2.1

/-- Every node of a segment is allocated and has its payload. -/
theorem Dlseg.mem (hs : Dlseg L h b ps a) (hp : (p, d) ∈ ps) :
    ∃ n, h p = some n ∧ L.data n = d := by
  obtain ⟨l, r, rfl⟩ := append_of_mem hp
  obtain ⟨n, hn, hd, -⟩ := hs.node
  exact ⟨n, hn, hd⟩

/-- A segment depends on its own nodes only. -/
theorem Dlseg.congr (hs : Dlseg L h b ps a) (heq : ∀ p ∈ ps.map Prod.fst, h' p = h p) :
    Dlseg L h' b ps a := by
  induction ps generalizing b with
  | nil => trivial
  | cons x ps ih =>
    obtain ⟨p, d⟩ := x
    obtain ⟨⟨n, hn, hrest⟩, htail⟩ := hs
    refine ⟨⟨n, (heq p (by simp)).trans hn, hrest⟩, ih htail fun q hq => heq q ?_⟩
    exact mem_cons_of_mem _ hq

/-- A write to an address outside of a segment keeps it. -/
theorem Dlseg.update (hs : Dlseg L h b ps a)
    (hp : p ∉ ps.map Prod.fst) (v : Option α) : Dlseg L (Function.update h p v) b ps a := by
  refine hs.congr fun q hq => Function.update_of_ne ?_ _ _
  rintro rfl
  exact hp hq

/-- A write to the last node sets the link out of the end of a segment. -/
theorem Dlseg.setAfter {a' : Option Nat}
    (hs : Dlseg L h b (ps ++ [(p, d)]) a) (hp : p ∉ ps.map Prod.fst) (hdata : L.data n = d)
    (hprev : L.prev n = lastOr b ps) (hnext : L.next n = a') :
    Dlseg L (Function.update h p (some n)) b (ps ++ [(p, d)]) a' := by
  obtain ⟨hinit, -⟩ := (dlseg_append b ps _ a).mp hs
  refine (dlseg_append b ps _ a').mpr ⟨hinit.update hp _, ?_, trivial⟩
  exact ⟨n, Function.update_self .., hdata, hprev, hnext⟩

/-- A write to the first node sets the link out of the start of a segment. -/
theorem Dlseg.setBefore {b' : Option Nat}
    (hs : Dlseg L h b ((p, d) :: ps) a) (hp : p ∉ ps.map Prod.fst) (hdata : L.data n = d)
    (hprev : L.prev n = b') (hnext : L.next n = firstOr ps a) :
    Dlseg L (Function.update h p (some n)) b' ((p, d) :: ps) a :=
  ⟨⟨n, Function.update_self .., hdata, hprev, hnext⟩, hs.2.update hp _⟩

/-- A write to a node of a segment sets its payload. -/
theorem Dlseg.setData {d' : β} (hs : Dlseg L h b (ps ++ (p, d) :: qs) a) (hps : p ∉ ps.map Prod.fst)
    (hqs : p ∉ qs.map Prod.fst) (hdata : L.data n = d') (hprev : L.prev n = lastOr b ps)
    (hnext : L.next n = firstOr qs a) :
    Dlseg L (Function.update h p (some n)) b (ps ++ (p, d') :: qs) a := by
  obtain ⟨hinit, -, htail⟩ := (dlseg_append b ps _ a).mp hs
  refine (dlseg_append b ps _ a).mpr ⟨hinit.update hps _, ?_, htail.update hqs _⟩
  exact ⟨n, Function.update_self .., hdata, hprev, hnext⟩

/-- A segment depends on the links and the payloads of its nodes only. -/
theorem Dlseg.congrView (hs : Dlseg L h b ps a)
    (heq : ∀ p ∈ ps.map Prod.fst, ∀ n, h p = some n → ∃ n', h' p = some n' ∧
      L.next n' = L.next n ∧ L.prev n' = L.prev n ∧ L.data n' = L.data n) : Dlseg L h' b ps a := by
  induction ps generalizing b with
  | nil => trivial
  | cons x ps ih =>
    obtain ⟨p, d⟩ := x
    obtain ⟨⟨n, hn, hdata, hprev, hnext⟩, htail⟩ := hs
    obtain ⟨n', hn', hnext', hprev', hdata'⟩ := heq p (by simp) n hn
    refine ⟨⟨n', hn', hdata'.trans hdata, hprev'.trans hprev, hnext'.trans hnext⟩, ?_⟩
    exact ih htail fun q hq => heq q (mem_cons_of_mem _ hq)

/-! ## Writes to neighbours -/

/-- The heap after a write to the node at `p`, if there is one. -/
def Heap.modifyAt (h : Heap α) (p : Option Nat) (f : α → α) : Heap α :=
  match p with
  | none => h
  | some p => Function.update h p ((h p).map f)

theorem Heap.modifyAt_of_ne {p : Option Nat} (f : α → α) (hq : p ≠ some q) :
    h.modifyAt p f q = h q := by
  cases p with
  | none => rfl
  | some p =>
    refine Function.update_of_ne ?_ _ _
    rintro rfl
    exact hq rfl

theorem Heap.modifyAt_self (f : α → α) (hn : h p = some n) :
    h.modifyAt (some p) f = Function.update h p (some (f n)) := by
  change Function.update h p ((h p).map f) = _
  rw [hn]
  rfl

theorem firstOr_ne (hq : q ∉ ps.map Prod.fst) : firstOr ps none ≠ some q := by
  intro h
  obtain ⟨d, qs, rfl⟩ := mem_of_firstOr h
  exact hq (by simp)

theorem lastOr_ne (hq : q ∉ ps.map Prod.fst) : lastOr none ps ≠ some q := by
  rcases eq_nil_or_concat' ps with rfl | ⟨qs, x, rfl⟩
  · simp
  · rw [lastOr_concat]
    rintro ⟨⟩
    exact hq (by simp)

/-- A segment after a write to its last node that sets the link behind it. -/
theorem Dlseg.modifyLast {a' : Option Nat} (hs : Dlseg L h none ps a)
    (hnodup : (ps.map Prod.fst).Nodup)
    (hf : ∀ n, L.next (f n) = a' ∧ L.prev (f n) = L.prev n ∧ L.data (f n) = L.data n) :
    Dlseg L (h.modifyAt (lastOr none ps) f) none ps a' := by
  rcases eq_nil_or_concat' ps with rfl | ⟨qs, ⟨p, d⟩, rfl⟩
  · trivial
  · rw [map_append] at hnodup
    have hp : p ∉ qs.map Prod.fst := fun h => (nodup_append.mp hnodup).2.2 p h p (by simp) rfl
    obtain ⟨n, hn, hdata, hprev, -⟩ := hs.node
    obtain ⟨hnext', hprev', hdata'⟩ := hf n
    rw [lastOr_concat, Heap.modifyAt_self f hn]
    exact hs.setAfter hp (hdata'.trans hdata) (hprev'.trans hprev) hnext'

/-- A segment after a write to its first node that sets the link before it. -/
theorem Dlseg.modifyFirst {b' : Option Nat} (hs : Dlseg L h b ps none)
    (hnodup : (ps.map Prod.fst).Nodup)
    (hg : ∀ n, L.next (g n) = L.next n ∧ L.prev (g n) = b' ∧ L.data (g n) = L.data n) :
    Dlseg L (h.modifyAt (firstOr ps none) g) b' ps none := by
  cases ps with
  | nil => trivial
  | cons x ps =>
    obtain ⟨p, d⟩ := x
    obtain ⟨⟨n, hn, hdata, -, hnext⟩, -⟩ := id hs
    obtain ⟨hnext', hprev', hdata'⟩ := hg n
    rw [firstOr_cons, Heap.modifyAt_self g hn]
    exact hs.setBefore (nodup_cons.mp hnodup).1 (hdata'.trans hdata) hprev'
      (hnext'.trans hnext)

/-- A segment is kept by a write to a node outside of it. -/
theorem Dlseg.modifyAt {p : Option Nat} (hs : Dlseg L h b ps a)
    (hp : ∀ q ∈ ps.map Prod.fst, p ≠ some q) : Dlseg L (h.modifyAt p f) b ps a :=
  hs.congr fun q hq => Heap.modifyAt_of_ne f (hp q hq)

/-- A write to a node of a segment that sets its payload. -/
theorem Dlseg.modifyData {d' : β}
    (hs : Dlseg L h b (ps ++ (p, d) :: qs) a) (hnodup : ((ps ++ (p, d) :: qs).map Prod.fst).Nodup)
    (hf : ∀ n, L.data n = d → L.next (f n) = L.next n ∧ L.prev (f n) = L.prev n ∧
      L.data (f n) = d') : Dlseg L (h.modifyAt (some p) f) b (ps ++ (p, d') :: qs) a := by
  rw [map_append, map_cons] at hnodup
  have hp := (nodup_cons.mp (perm_middle.nodup_iff.mp hnodup)).1
  rw [mem_append, not_or] at hp
  obtain ⟨n, hn, hdata, hprev, hnext⟩ := hs.node
  obtain ⟨hnext', hprev', hdata'⟩ := hf n hdata
  rw [Heap.modifyAt_self f hn]
  exact hs.setData hp.1 hp.2 hdata' (hprev'.trans hprev) (hnext'.trans hnext)

/-- The removal of a node: its neighbours get linked to each other. -/
theorem Dlseg.unlink (hs : Dlseg L h none (ps ++ (p, d) :: qs) none)
    (hnodup : ((ps ++ (p, d) :: qs).map Prod.fst).Nodup)
    (hf : ∀ n, L.next (f n) = firstOr qs none ∧ L.prev (f n) = L.prev n ∧ L.data (f n) = L.data n)
    (hg : ∀ n, L.next (g n) = L.next n ∧ L.prev (g n) = lastOr none ps ∧ L.data (g n) = L.data n) :
    Dlseg L ((h.modifyAt (lastOr none ps) f).modifyAt (firstOr qs none) g) none (ps ++ qs)
      none := by
  rw [map_append, map_cons] at hnodup
  obtain ⟨hps, hpqs, hdisj⟩ := nodup_append.mp hnodup
  obtain ⟨-, hqs⟩ := nodup_cons.mp hpqs
  obtain ⟨hleft, -, hright⟩ := (dlseg_append none ps _ none).mp hs
  refine (dlseg_append none ps qs none).mpr ⟨?_, ?_⟩
  · refine (hleft.modifyLast hps hf).modifyAt fun q hq => firstOr_ne fun hq' => ?_
    exact hdisj q hq q (mem_cons_of_mem _ hq') rfl
  · refine Dlseg.modifyFirst (hright.modifyAt fun q hq => lastOr_ne fun hq' => ?_) hqs hg
    exact hdisj q hq' q (mem_cons_of_mem _ hq) rfl

/-- A new node behind the node `p`. -/
theorem Dlseg.insertAfter {e : β} (hs : Dlseg L h none (ps ++ (p, d) :: qs) none)
    (hnodup : ((ps ++ (p, d) :: qs).map Prod.fst).Nodup)
    (hq : q ∉ (ps ++ (p, d) :: qs).map Prod.fst) (hdata : L.data n = e) (hprev : L.prev n = some p)
    (hnext : L.next n = firstOr qs none)
    (hg : ∀ n, L.next (g n) = L.next n ∧ L.prev (g n) = some q ∧ L.data (g n) = L.data n)
    (hf : ∀ n, L.next (f n) = some q ∧ L.prev (f n) = L.prev n ∧ L.data (f n) = L.data n) :
    Dlseg L (((Heap.modifyAt (Function.update h q (some n)) (firstOr qs none) g)).modifyAt
      (some p) f) none (ps ++ (p, d) :: (q, e) :: qs) none := by
  have hsplit : ∀ l : List (Nat × β), ps ++ (p, d) :: l = (ps ++ [(p, d)]) ++ l := by simp
  rw [hsplit] at hs hnodup hq ⊢
  rw [map_append] at hnodup hq
  rw [mem_append, not_or] at hq
  obtain ⟨hps, hqs, hdisj⟩ := nodup_append.mp hnodup
  obtain ⟨hleft, hright⟩ := (dlseg_append none _ qs none).mp hs
  have hp : p ∈ (ps ++ [(p, d)]).map Prod.fst := by simp
  refine (dlseg_append none _ _ none).mpr ⟨?_, ?_, ?_⟩
  · have hmid : Dlseg L (Heap.modifyAt (Function.update h q (some n)) (firstOr qs none) g) none
        (ps ++ [(p, d)]) (firstOr qs none) :=
      (hleft.update hq.1 (some n)).modifyAt fun r hr => firstOr_ne fun hr' => hdisj r hr r hr' rfl
    have hlast := hmid.modifyLast hps hf
    rwa [lastOr_concat] at hlast
  · refine ⟨n, ?_, hdata, hprev.trans (lastOr_concat none ps (p, d)).symm, hnext⟩
    have hpq : some p ≠ some q := by
      rintro ⟨⟩
      exact hq.1 hp
    rw [Heap.modifyAt_of_ne f hpq, Heap.modifyAt_of_ne g (firstOr_ne hq.2), Function.update_self]
  · refine ((hright.update hq.2 (some n)).modifyFirst hqs hg).modifyAt fun r hr => ?_
    rintro ⟨⟩
    exact hdisj p hp p hr rfl

/-- A node in front of a list. -/
theorem Dlseg.push (hs : Dlseg L h none ps none) (hnodup : (ps.map Prod.fst).Nodup)
    (hp : p ∉ ps.map Prod.fst) (hdata : L.data n = d) (hprev : L.prev n = none)
    (hnext : L.next n = firstOr ps none)
    (hg : ∀ n, L.next (g n) = L.next n ∧ L.prev (g n) = some p ∧ L.data (g n) = L.data n) :
    Dlseg L (Function.update (h.modifyAt (firstOr ps none) g) p (some n))
      none ((p, d) :: ps) none :=
  ⟨⟨n, Function.update_self .., hdata, hprev, hnext⟩, (hs.modifyFirst hnodup hg).update hp _⟩

end

end Halo
