import Mathlib

/-!
# Blocks of memory

`Blocks` says which addresses are allocated. An allocation returns any address that is not
allocated, or fails. A block that is not allocated must not be freed: `Blocks.free` has no result
then.

* `Owns base live own`: the blocks `live` are those of `base` and those of `own`, which are apart.
  `Owns.take`: a block changes hands. `Owns.replace`: some blocks of the owner are exchanged.
  `Owns.dealloc`, `Owns.release`: `base` or the owner frees a block.
* `Tidy live S`: the owners `S` share no block, and nothing else is allocated. `Tidy.change`,
  `Tidy.create`, `Tidy.release`: the blocks of one owner change, begin or end.
-/

namespace Halo

open Function

/-- The addresses that are allocated. -/
abbrev Blocks := Nat → Bool

namespace Blocks

/-- An address that is not allocated, or none. -/
def malloc (live : Blocks) (choice : Option Nat) : Option Nat := choice.filter fun p => !live p

/-- The block at `p` is allocated. -/
def alloc (live : Blocks) (p : Nat) : Blocks := update live p true

/-- The block at `p` is not allocated any more. -/
def free (live : Blocks) (p : Nat) : Option Blocks :=
  if live p then some (update live p false) else none

/-- The blocks that are not those of `own`. -/
def without (live own : Blocks) : Blocks := fun p => live p && !own p

/-- The blocks `new` in place of `old`. -/
def replace (live old new : Blocks) : Blocks := fun p => new p || (live p && !old p)

variable {live own : Blocks} {p : Nat}

theorem malloc_eq_some {choice : Option Nat} (h : live.malloc choice = some p) :
    choice = some p ∧ live p = false := by
  obtain ⟨hchoice, hp⟩ := Option.filter_eq_some_iff.mp h
  exact ⟨hchoice, by simpa using hp⟩

theorem alloc_apply (live : Blocks) (p q : Nat) : live.alloc p q = (decide (q = p) || live q) := by
  by_cases h : q = p <;> simp [alloc, h]

theorem free_eq (h : live p = true) : live.free p = some fun q => live q && !decide (q = p) := by
  rw [free, if_pos h]
  congr 1
  funext q
  by_cases hq : q = p <;> simp [hq]

theorem free_alloc (hp : live p = false) : (live.alloc p).free p = some live := by
  rw [alloc, free, if_pos (update_self ..), update_idem, update_eq_self_iff.mpr hp.symm]

end Blocks

/-- The blocks `live` are those of `base` and those of `own`. -/
structure Owns (base live own : Blocks) : Prop where
  live_iff : ∀ p, live p = true ↔ base p = true ∨ own p = true
  apart : ∀ p, own p = true → base p = false

namespace Owns

variable {base live own : Blocks} {p : Nat}

theorem not_live (h : Owns base live own) (hp : live p = false) :
    base p = false ∧ own p = false := by
  have hnot := mt (h.live_iff p).mpr (by simp [hp])
  rw [not_or, Bool.not_eq_true, Bool.not_eq_true] at hnot
  exact hnot

theorem eq_base (h : Owns base live own) (hown : ∀ p, own p = false) : live = base := by
  funext p
  rw [Bool.eq_iff_iff, h.live_iff]
  simp [hown p]

/-- A new block of somebody else. -/
theorem alloc (h : Owns base live own) (hp : live p = false) :
    Owns (base.alloc p) (live.alloc p) own := by
  obtain ⟨-, hown⟩ := h.not_live hp
  refine ⟨fun q => ?_, fun q hq => ?_⟩
  · simp only [Blocks.alloc_apply, Bool.or_eq_true, decide_eq_true_eq, h.live_iff q, or_assoc]
  · have hne : q ≠ p := by
      rintro rfl
      exact Bool.noConfusion (hown.symm.trans hq)
    simp [Blocks.alloc_apply, hne, h.apart q hq]

/-- The owner gets a block that was somebody else's. -/
theorem take (h : Owns (base.alloc p) live own) (hp : base p = false) :
    Owns base live (own.alloc p) := by
  refine ⟨fun q => ?_, fun q hq => ?_⟩
  · have hlive := h.live_iff q
    simp only [Blocks.alloc_apply, Bool.or_eq_true, decide_eq_true_eq] at hlive ⊢
    rw [hlive, or_left_comm, or_assoc]
  · rw [Blocks.alloc_apply, Bool.or_eq_true, decide_eq_true_eq] at hq
    rcases hq with rfl | hq
    · exact hp
    · have hbase := h.apart q hq
      rw [Blocks.alloc_apply, Bool.or_eq_false_iff] at hbase
      exact hbase.2

/-- The owner frees a block. -/
theorem release (h : Owns base live (own.alloc p)) (hp : own p = false) :
    ∃ live', live.free p = some live' ∧ Owns base live' own := by
  have hself : own.alloc p p = true := by simp [Blocks.alloc_apply]
  refine ⟨_, Blocks.free_eq ((h.live_iff p).mpr (.inr hself)), fun q => ?_, fun q hq => ?_⟩
  · by_cases hq : q = p
    · simp [hq, hp, h.apart p hself]
    · have hlive := h.live_iff q
      simpa [Blocks.alloc_apply, hq] using hlive
  · exact h.apart q (by rw [Blocks.alloc_apply, hq, Bool.or_true])

/-- Somebody else frees a block. -/
theorem dealloc (h : Owns (base.alloc p) live own) (hp : base p = false) :
    ∃ live', live.free p = some live' ∧ Owns base live' own := by
  refine (h.take hp).release ?_
  rw [← Bool.not_eq_true]
  intro hown
  have hbase := h.apart p hown
  simp [Blocks.alloc_apply] at hbase

/-- Some blocks of the owner end, and others begin. -/
theorem replace {old new : Blocks} (h : Owns base live own)
    (hold : ∀ p, old p = true → own p = true)
    (hnew : ∀ p, new p = true → own p = true ∨ live p = false) :
    Owns base (live.replace old new) (own.replace old new) := by
  refine ⟨fun p => ?_, fun p hp => ?_⟩
  · have hlive := h.live_iff p
    have hbase : base p = true → old p = false := by
      intro hb
      rw [← Bool.not_eq_true]
      intro ho
      exact Bool.noConfusion (hb.symm.trans (h.apart p (hold p ho)))
    simp only [Blocks.replace, Bool.or_eq_true, Bool.and_eq_true, Bool.not_eq_true', hlive]
    grind
  · simp only [Blocks.replace, Bool.or_eq_true, Bool.and_eq_true] at hp
    rcases hp with hp | hp
    · rcases hnew p hp with hown | hlive
      · exact h.apart p hown
      · exact (h.not_live hlive).1
    · exact h.apart p hp.1

end Owns

/-! ## Several owners -/

section

variable {ι : Type} {live live' : Blocks} {S : ι → Option Blocks} {own own' : Blocks} {i : ι}

/-- The owners have no block in common, and no other block is allocated. -/
structure Tidy (live : Blocks) (S : ι → Option Blocks) : Prop where
  live_iff : ∀ p, live p = true ↔ ∃ i own, S i = some own ∧ own p = true
  apart : ∀ i j own own' p, S i = some own → S j = some own' → i ≠ j → own p = true → own' p = false

theorem Tidy.owns (h : Tidy live S) (hi : S i = some own) : Owns (live.without own) live own := by
  refine ⟨fun p => ?_, fun p hp => by simp [Blocks.without, hp]⟩
  have hlive : own p = true → live p = true := fun hp => (h.live_iff p).mpr ⟨i, own, hi, hp⟩
  cases hp : own p <;> simp_all [Blocks.without]

variable [DecidableEq ι]

/-- One owner ends. -/
theorem Tidy.release (h : Tidy live S) (hi : S i = some own) :
    Tidy (live.without own) (update S i none) := by
  refine ⟨fun p => ?_, fun j k own₁ own₂ p hj hk hjk => ?_⟩
  · simp only [Blocks.without, Bool.and_eq_true, Bool.not_eq_true', h.live_iff]
    constructor
    · rintro ⟨⟨j, own₂, hj, hp⟩, hown⟩
      refine ⟨j, own₂, ?_, hp⟩
      rw [update_of_ne, hj]
      rintro rfl
      cases hi.symm.trans hj
      exact Bool.noConfusion (hown.symm.trans hp)
    · rintro ⟨j, own₂, hj, hp⟩
      by_cases hji : j = i
      · rw [hji, update_self] at hj
        cases hj
      · rw [update_of_ne hji] at hj
        exact ⟨⟨j, own₂, hj, hp⟩, h.apart j i own₂ own p hj hi hji hp⟩
  · have hold : ∀ {j own}, update S i none j = some own → S j = some own := by
      intro j own hj
      by_cases hji : j = i
      · rw [hji, update_self] at hj
        cases hj
      · rwa [update_of_ne hji] at hj
    exact h.apart j k own₁ own₂ p (hold hj) (hold hk) hjk

/-- A new owner gets blocks that were not allocated. -/
theorem Tidy.create (h : Tidy live S) (hi : S i = none) (ho : Owns live live' own) :
    Tidy live' (update S i (some own)) := by
  have hne : ∀ {j own'}, S j = some own' → j ≠ i := by
    rintro j own' hj rfl
    cases hi.symm.trans hj
  have hother : ∀ {j own' p}, S j = some own' → own' p = true → own p = false := by
    intro j own' p hj hp
    rw [← Bool.not_eq_true]
    intro hown
    have hfree := ho.apart p hown
    exact Bool.noConfusion (hfree.symm.trans ((h.live_iff p).mpr ⟨j, own', hj, hp⟩))
  refine ⟨fun p => ?_, fun j k own₁ own₂ p hj hk hjk hp => ?_⟩
  · rw [ho.live_iff, h.live_iff]
    constructor
    · rintro (⟨j, own', hj, hp⟩ | hp)
      · exact ⟨j, own', by rw [update_of_ne (hne hj), hj], hp⟩
      · exact ⟨i, own, update_self .., hp⟩
    · rintro ⟨j, own', hj, hp⟩
      by_cases hji : j = i
      · rw [hji, update_self] at hj
        cases hj
        exact .inr hp
      · rw [update_of_ne hji] at hj
        exact .inl ⟨j, own', hj, hp⟩
  · by_cases hji : j = i
    · subst hji
      rw [update_self] at hj
      rw [update_of_ne (Ne.symm hjk)] at hk
      cases hj
      rw [← Bool.not_eq_true]
      intro hp'
      exact Bool.noConfusion (hp.symm.trans (hother hk hp'))
    · rw [update_of_ne hji] at hj
      by_cases hki : k = i
      · rw [hki, update_self] at hk
        cases hk
        exact hother hj hp
      · rw [update_of_ne hki] at hk
        exact h.apart j k own₁ own₂ p hj hk hjk hp

/-- The blocks of one owner change. -/
theorem Tidy.change (h : Tidy live S) (hi : S i = some own)
    (ho : Owns (live.without own) live' own') : Tidy live' (update S i (some own')) := by
  have hnew := (h.release hi).create (update_self ..) ho
  rwa [update_idem] at hnew

end

end Halo
