import Halo.Kcp.Receive

/-!
# The heap of the segments out of order, by itself

The heap compares sequence numbers by the sign of their difference. This is an order only on numbers
that lie in a span of fewer than `2 ^ 31`; where the span starts changes as segments come and go,
but the order of the numbers that stay is the same from every start (`Ok.rebase`). So the invariant
of a run names some start, and a push first moves on to one that spans the new segment too.
-/

namespace Halo.Kcp.SegmentHeap

/-- The calls that change the heap. -/
inductive Event where
  | push (seg : Segment)
  | pop

/-- One call; the outputs are the segments that `Pop` returns. -/
def step (h : SegmentHeap) : Event → SegmentHeap × List Segment
  | .push seg => (h.push seg, [])
  | .pop =>
    match h.pop with
    | none => (h, [])
    | some (seg, rest) => (rest, [seg])

/-- The stored numbers lie in a span shorter than `2 ^ 31` from the number `base` on. -/
def Spans (base : UInt32) (h : SegmentHeap) : Prop := ∀ seg ∈ h.segments, distance base seg < 2 ^ 31

/-- The stored numbers lie in a span shorter than `2 ^ 31`. -/
def Short (h : SegmentHeap) : Prop := ∃ base, Spans base h

/-- A number that is pushed is not there yet. -/
def New (h : SegmentHeap) : Event → Prop
  | .push seg => seg.sn ∉ h.segments.map (·.sn)
  | .pop => True

/-- The calls push new numbers only, and the heap is short at all times. -/
def Admissible : SegmentHeap → List Event → Prop
  | h, [] => h.Short
  | h, e :: es => h.Short ∧ h.New e ∧ Admissible (h.step e).1 es

/-- The segments that were pushed. -/
def pushed : List Event → List Segment
  | [] => []
  | .push seg :: es => seg :: pushed es
  | .pop :: es => pushed es

/-- The segments that were popped. -/
def popped (h : SegmentHeap) (es : List Event) : List Segment :=
  (trace step h es).flatMap (·.out)

variable {h : SegmentHeap} {base : UInt32}

theorem step_pop_none (hpop : h.pop = none) : h.step .pop = (h, []) := by
  simp only [step, hpop]

theorem step_pop_some {seg : Segment} {rest : SegmentHeap} (hpop : h.pop = some (seg, rest)) :
    h.step .pop = (rest, [seg]) := by
  simp only [step, hpop]

/-- The order of the heap is the same from every number that spans it. -/
theorem Ok.rebase {base' : UInt32} (hok : h.Ok base (2 ^ 31)) (hspans : Spans base' h) :
    h.Ok base' (2 ^ 31) := by
  refine ⟨hspans, hok.nodup, hok.marks, fun i hi hlen => ?_⟩
  have hparent : (i - 1) / 2 < h.segments.length := by omega
  have hle := hok.ordered i hi hlen
  -- both distances say that the comparison does not hold
  rw [← Nat.not_lt, ← BinHeap.lessAt_iff (lessBy (Nat.le_refl _) hok.window) hlen hparent] at hle
  rwa [← Nat.not_lt, ← BinHeap.lessAt_iff (lessBy (Nat.le_refl _) hspans) hlen hparent]

/-- A heap that is spanned from some number. -/
def Sorted (h : SegmentHeap) : Prop := ∃ base, h.Ok base (2 ^ 31)

theorem Sorted.step {e : Event} (hsorted : h.Sorted) (hnew : h.New e)
    (hshort : (h.step e).1.Short) : (h.step e).1.Sorted := by
  obtain ⟨base, hok⟩ := hsorted
  cases e with
  | push seg =>
    obtain ⟨base', hspans⟩ := hshort
    have hsub : seg :: h.segments ⊆ (h.push seg).segments := (push_perm h seg).symm.subset
    have hspansOld : Spans base' h := fun s hs => hspans s (hsub (.tail _ hs))
    refine ⟨base', (hok.rebase hspansOld).push (Nat.le_refl _) ?_ ?_⟩
    · exact hspans seg (hsub List.mem_cons_self)
    · rw [hok.marks]
      exact hnew
  | pop =>
    cases hpop : h.pop with
    | none =>
      rw [step_pop_none hpop]
      exact ⟨base, hok⟩
    | some popped =>
      obtain ⟨seg, rest⟩ := popped
      rw [step_pop_some hpop]
      exact ⟨base, (hok.pop (Nat.le_refl _) hpop).1⟩

theorem Admissible.short {es : List Event} (hadm : Admissible h es) : h.Short := by
  cases es with
  | nil => exact hadm
  | cons e es => exact hadm.1

/-- A call stores what it pushes, and outputs what it takes out. -/
theorem step_perm (h : SegmentHeap) (e : Event) :
    ((h.step e).1.segments ++ (h.step e).2).Perm (pushed [e] ++ h.segments) := by
  cases e with
  | push seg =>
    show ((h.push seg).segments ++ []).Perm (seg :: h.segments)
    rw [List.append_nil]
    exact push_perm h seg
  | pop =>
    cases hpop : h.pop with
    | none =>
      rw [step_pop_none hpop, List.append_nil]
      exact .refl _
    | some popped =>
      obtain ⟨seg, rest⟩ := popped
      rw [step_pop_some hpop]
      exact (List.perm_append_singleton seg _).trans (pop_perm hpop)

theorem pushed_cons (e : Event) (es : List Event) : pushed (e :: es) = pushed [e] ++ pushed es := by
  cases e <;> rfl

theorem popped_cons (h : SegmentHeap) (e : Event) (es : List Event) :
    popped h (e :: es) = (h.step e).2 ++ popped (h.step e).1 es := by
  simp [popped, trace]

/-- What is stored after a run is what was pushed and not popped. -/
theorem run_perm (h : SegmentHeap) (es : List Event) :
    ((run step h es).segments ++ popped h es).Perm (pushed es ++ h.segments) := by
  induction es generalizing h with
  | nil => simp [popped, trace, pushed]
  | cons e es ih =>
    rw [run_cons, popped_cons, pushed_cons]
    calc ((run step (h.step e).1 es).segments ++ ((h.step e).2 ++ popped (h.step e).1 es)).Perm
          ((run step (h.step e).1 es).segments ++ popped (h.step e).1 es ++ (h.step e).2) := by
            rw [List.append_assoc]
            exact List.perm_append_comm.append_left _
      _ |>.Perm (pushed es ++ (h.step e).1.segments ++ (h.step e).2) := (ih _).append_right _
      _ |>.Perm (pushed es ++ (pushed [e] ++ h.segments)) := by
            rw [List.append_assoc]
            exact (step_perm h e).append_left _
      _ |>.Perm (pushed [e] ++ pushed es ++ h.segments) := by
            rw [← List.append_assoc]
            exact List.perm_append_comm.append_right _

theorem sorted_run {es : List Event} (hsorted : h.Sorted) (hadm : Admissible h es) :
    (run step h es).Sorted := by
  induction es generalizing h with
  | nil => exact hsorted
  | cons e es ih =>
    obtain ⟨-, hnew, hrest⟩ := hadm
    exact ih (hsorted.step hnew hrest.short) hrest

/-- The segment that `Pop` returns is before all others that are stored. -/
theorem Sorted.pop {seg : Segment} {rest : SegmentHeap} (hsorted : h.Sorted)
    (hpop : h.pop = some (seg, rest)) :
    seg ∈ h.segments ∧ ∀ s ∈ rest.segments, 0 < itimediff s.sn seg.sn := by
  obtain ⟨base, hok⟩ := hsorted
  obtain ⟨hrest, hmem, hmark, hleast⟩ := hok.pop (Nat.le_refl _) hpop
  refine ⟨hmem, fun s hs => ?_⟩
  have hstored : s ∈ h.segments := (pop_perm hpop).subset (.tail _ hs)
  have hne : distance base seg ≠ distance base s := by
    intro heq
    apply hmark
    rw [hrest.marks, sn_eq base seg, heq, ← sn_eq base s]
    exact List.mem_map_of_mem hs
  have hlt : distance base seg < distance base s := Nat.lt_of_le_of_ne (hleast s hstored) hne
  have hless := (lessBy (Nat.le_refl _) hok.window seg hmem s hstored).mpr hlt
  simpa [less] using hless

/-- After any calls that push new numbers only and keep the stored numbers in a span shorter than
`2 ^ 31`: the stored segments are those that were pushed and not popped, `Has` says whether a number
is stored, and `Pop` returns the stored segment that is before all others, if there is one. -/
theorem heap_of_short_span (es : List Event) (hadm : Admissible newSegmentHeap es) :
    ((run step newSegmentHeap es).segments ++ popped newSegmentHeap es).Perm (pushed es) ∧
    (∀ sn, (run step newSegmentHeap es).has sn = true ↔
      ∃ seg ∈ (run step newSegmentHeap es).segments, seg.sn = sn) ∧
    match (run step newSegmentHeap es).pop with
    | none => (run step newSegmentHeap es).segments = []
    | some (seg, rest) => seg ∈ (run step newSegmentHeap es).segments ∧
        (seg :: rest.segments).Perm (run step newSegmentHeap es).segments ∧
        ∀ s ∈ rest.segments, 0 < itimediff s.sn seg.sn := by
  have hsorted : (run step newSegmentHeap es).Sorted :=
    sorted_run ⟨0, newSegmentHeap_ok 0 (2 ^ 31)⟩ hadm
  refine ⟨?_, fun sn => ?_, ?_⟩
  · have hperm := run_perm newSegmentHeap es
    rwa [show newSegmentHeap.segments = [] from rfl, List.append_nil] at hperm
  · obtain ⟨base, hok⟩ := hsorted
    rw [has, decide_eq_true_iff, hok.marks, List.mem_map]
  · split
    · exact pop_eq_none ‹_›
    · obtain ⟨hmem, hfirst⟩ := hsorted.pop ‹_›
      exact ⟨hmem, pop_perm ‹_›, hfirst⟩

/-- A segment with the number, and nothing else in it. -/
def numbered (sn : UInt32) : Segment := { Segment.ofData [] with sn := sn }

/-- Numbers on both sides of the wrap, the earliest of which is pushed second. -/
def wrappingCalls : List Event :=
  [.push (numbered 1), .push (numbered 0xfffffffe), .push (numbered 0), .pop,
    .push (numbered 0xffffffff)]

theorem heap_of_short_span_wrappingCalls : Admissible newSegmentHeap wrappingCalls ∧
    popped newSegmentHeap wrappingCalls = [numbered 0xfffffffe] ∧
    ((run step newSegmentHeap wrappingCalls).segments ++ popped newSegmentHeap wrappingCalls).Perm
      (pushed wrappingCalls) ∧
    (run step newSegmentHeap wrappingCalls).pop.map Prod.fst = some (numbered 0xffffffff) := by
  have hadm : Admissible newSegmentHeap wrappingCalls := by
    refine ⟨⟨0xfffffffe, ?_⟩, ?_, ⟨0xfffffffe, ?_⟩, ?_, ⟨0xfffffffe, ?_⟩, ?_, ⟨0xfffffffe, ?_⟩,
      trivial, ⟨0xfffffffe, ?_⟩, ?_, ⟨0xfffffffe, ?_⟩⟩
    all_goals
      first
      | unfold Spans
        decide +kernel
      | unfold New
        decide +kernel
  exact ⟨hadm, by decide +kernel, (heap_of_short_span _ hadm).1, by decide +kernel⟩

end Halo.Kcp.SegmentHeap
