import Mathlib

/-!
# Finite maps with an iteration order

`Table K V` is a finite map (Mathlib's `AList`); the order of its entries is the order in which a
loop over the map visits them. Two tables with the same entries in another order are the same map
(`AList.perm_lookup`), so a model lets the order change freely between two operations.

`sweep` is the loop that deletes the visited key whenever a test holds; `lookup_sweep` is its
specification.
-/

namespace Halo

/-- A finite map. -/
abbrev Table (K V : Type) := AList fun _ : K => V

namespace Table

variable {K V : Type} [DecidableEq K]

/-- The loop over the entries `es` that deletes the visited key when `p` holds. -/
def sweepList (p : K → V → Bool) (es : List (Σ _ : K, V)) (t : Table K V) : Table K V :=
  es.foldl (fun t e => if p e.1 e.2 then t.erase e.1 else t) t

/-- The loop over all entries that deletes the visited key when `p` holds. -/
def sweep (p : K → V → Bool) (t : Table K V) : Table K V := sweepList p t.entries t

/-- The erasure of a new key undoes its insertion. -/
theorem lookup_erase_insert {t : Table K V} {k : K} (h : t.lookup k = none) (v : V) (k' : K) :
    ((t.insert k v).erase k).lookup k' = t.lookup k' := by
  by_cases hk : k' = k
  · rw [hk, AList.lookup_erase, h]
  · rw [AList.lookup_erase_ne hk, AList.lookup_insert_ne hk]

/-- The insertion of the old value undoes that of a new one. -/
theorem lookup_insert_insert {t : Table K V} {k : K} {v : V} (h : t.lookup k = some v) (v' : V)
    (k' : K) : ((t.insert k v').insert k v).lookup k' = t.lookup k' := by
  by_cases hk : k' = k
  · rw [hk, AList.lookup_insert, h]
  · rw [AList.lookup_insert_ne hk, AList.lookup_insert_ne hk]

theorem lookup_insert_eq_ite (t : Table K V) (k : K) (v : V) (k' : K) :
    (t.insert k v).lookup k' = if k' = k then some v else t.lookup k' := by
  by_cases hk : k' = k
  · rw [hk, AList.lookup_insert, if_pos rfl]
  · rw [AList.lookup_insert_ne hk, if_neg hk]

theorem lookup_erase_eq_ite (t : Table K V) (k k' : K) :
    (t.erase k).lookup k' = if k' = k then none else t.lookup k' := by
  by_cases hk : k' = k
  · rw [hk, AList.lookup_erase, if_pos rfl]
  · rw [AList.lookup_erase_ne hk, if_neg hk]

theorem lookup_sweepList (p : K → V → Bool) (es : List (Σ _ : K, V)) (t : Table K V) (k : K) :
    (sweepList p es t).lookup k =
      if es.any (fun e => e.1 = k && p e.1 e.2) then none else t.lookup k := by
  induction es generalizing t with
  | nil => rfl
  | cons e es ih =>
    have hstep : sweepList p (e :: es) t =
        sweepList p es (if p e.1 e.2 then t.erase e.1 else t) := rfl
    rw [hstep, ih, List.any_cons]
    cases hd : decide (e.1 = k) && p e.1 e.2 with
    | false =>
      -- the visited entry is not deleted, or is one of another key
      rw [Bool.false_or]
      by_cases hp : p e.1 e.2 = true
      · have hk : k ≠ e.1 := by rintro rfl; simp [hp] at hd
        rw [if_pos hp, AList.lookup_erase_ne hk]
      · rw [if_neg hp]
    | true =>
      simp only [Bool.and_eq_true, decide_eq_true_eq] at hd
      obtain ⟨rfl, hp⟩ := hd
      rw [if_pos hp, AList.lookup_erase, Bool.true_or, if_pos rfl, ite_self]

/-- A sweep keeps exactly the entries for which the test fails. -/
theorem lookup_sweep (p : K → V → Bool) (t : Table K V) (k : K) :
    (sweep p t).lookup k = (t.lookup k).filter fun v => !p k v := by
  rw [sweep, lookup_sweepList]
  have hany : t.entries.any (fun e => e.1 = k && p e.1 e.2) = (t.lookup k).any (p k) := by
    rw [Bool.eq_iff_iff, List.any_eq_true, Option.any_eq_true]
    constructor
    · rintro ⟨⟨k', v⟩, he, hp⟩
      simp only [Bool.and_eq_true, decide_eq_true_eq] at hp
      obtain ⟨rfl, hp⟩ := hp
      exact ⟨v, AList.mem_lookup_iff.mpr he, hp⟩
    · rintro ⟨v, hv, hp⟩
      exact ⟨⟨k, v⟩, AList.mem_lookup_iff.mp hv, by simp [hp]⟩
  rw [hany]
  cases t.lookup k with
  | none => rfl
  | some v => by_cases hp : p k v = true <;> simp [Option.filter, hp]

end Table

end Halo
