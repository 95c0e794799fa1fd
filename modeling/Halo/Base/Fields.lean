import Halo.Base.Bytes

/-!
# Fields of a byte string

Reads and writes of big-endian words, and what a write leaves alone.

* `wordAt`, `u32At`, `setWord`: numbers of two and four bytes, and a write of two. A write next to
  an append or a slice is a write of the part that has the index (`append_setWord`, `drop_setWord`,
  `take_setWord`).
* `AgreeOff S p q`: the strings have the same length and differ at indices in `S` at most. Changes
  compose (`AgreeOff.trans`), and a field outside `S` keeps its value (`AgreeOff.wordAt_eq`,
  `AgreeOff.vecAt_eq`).
-/

namespace Halo

/-- The big-endian word at an index. -/
def wordAt (pkt : Bytes) (i : Nat) : UInt16 := ofBe16 (byteAt pkt i) (byteAt pkt (i + 1))

/-- The big-endian number of four bytes at an index. -/
def u32At (pkt : Bytes) (i : Nat) : UInt32 :=
  ofBe32 (byteAt pkt i) (byteAt pkt (i + 1)) (byteAt pkt (i + 2)) (byteAt pkt (i + 3))

/-- A write of a big-endian word. -/
def setWord (pkt : Bytes) (i : Nat) (w : UInt16) : Bytes :=
  (pkt.set i (w >>> 8).toUInt8).set (i + 1) w.toUInt8

variable {p q r : Bytes} {i j n : Nat} {w : UInt16} {v : UInt8}

/-! ## Single bytes -/

theorem byteAt_eq_getElem (h : i < p.length) : byteAt p i = p[i] := by
  unfold byteAt
  rw [List.getD_eq_getElem?_getD, List.getElem?_eq_getElem h, Option.getD_some]

/-- Byte strings of one length are equal if their bytes are. -/
theorem ext_byteAt (hlen : p.length = q.length) (h : ∀ j < p.length, byteAt p j = byteAt q j) :
    p = q := by
  apply List.ext_getElem hlen
  intro j hj hj'
  rw [← byteAt_eq_getElem hj, ← byteAt_eq_getElem hj']
  exact h j hj

theorem forall_mem_iff_byteAt (P : UInt8 → Prop) :
    (∀ b ∈ p, P b) ↔ ∀ j < p.length, P (byteAt p j) := by
  rw [List.forall_mem_iff_getElem]
  refine forall_congr' fun j => forall_congr' fun hj => ?_
  rw [byteAt_eq_getElem hj]

theorem byteAt_set_ne (h : i ≠ j) : byteAt (p.set i v) j = byteAt p j := by
  unfold byteAt
  rw [List.getD_eq_getElem?_getD, List.getD_eq_getElem?_getD, List.getElem?_set_ne h]

theorem byteAt_set_self (h : i < p.length) : byteAt (p.set i v) i = v := by
  unfold byteAt
  rw [List.getD_eq_getElem?_getD, List.getElem?_set_self h]
  rfl

theorem byteAt_append_left (h : i < p.length) : byteAt (p ++ q) i = byteAt p i := by
  unfold byteAt
  rw [List.getD_eq_getElem?_getD, List.getD_eq_getElem?_getD, List.getElem?_append_left h]

theorem byteAt_append_right (i : Nat) : byteAt (p ++ q) (p.length + i) = byteAt q i := by
  unfold byteAt
  rw [List.getD_eq_getElem?_getD, List.getD_eq_getElem?_getD,
    List.getElem?_append_right (Nat.le_add_right _ _), Nat.add_sub_cancel_left]

theorem byteAt_drop (n i : Nat) : byteAt (p.drop n) i = byteAt p (n + i) := by
  unfold byteAt
  rw [List.getD_eq_getElem?_getD, List.getD_eq_getElem?_getD, List.getElem?_drop]

theorem byteAt_take (h : i < n) : byteAt (p.take n) i = byteAt p i := by
  unfold byteAt
  rw [List.getD_eq_getElem?_getD, List.getD_eq_getElem?_getD, List.getElem?_take_of_lt h]

/-! ## Words -/

@[simp] theorem length_setWord (p : Bytes) (i : Nat) (w : UInt16) :
    (setWord p i w).length = p.length := by
  simp [setWord]

theorem byteAt_setWord_ne (h : j ≠ i) (h' : j ≠ i + 1) :
    byteAt (setWord p i w) j = byteAt p j := by
  unfold setWord
  rw [byteAt_set_ne h'.symm, byteAt_set_ne h.symm]

theorem wordAt_setWord_self (h : i + 1 < p.length) : wordAt (setWord p i w) i = w := by
  unfold wordAt setWord
  rw [byteAt_set_self (by simpa using h), byteAt_set_ne (Nat.succ_ne_self i),
    byteAt_set_self (by omega), ofBe16_be16]

theorem wordAt_drop (n i : Nat) : wordAt (p.drop n) i = wordAt p (n + i) := by
  unfold wordAt
  rw [byteAt_drop, byteAt_drop, Nat.add_assoc]

theorem wordAt_take (h : i + 1 < n) : wordAt (p.take n) i = wordAt p i := by
  unfold wordAt
  rw [byteAt_take (by omega), byteAt_take h]

theorem wordAt_congr (h : q.take n = p.take n) (hi : i + 1 < n) : wordAt q i = wordAt p i := by
  rw [← wordAt_take hi, h, wordAt_take hi]

theorem wordAt_append_right (i : Nat) : wordAt (p ++ q) (p.length + i) = wordAt q i := by
  unfold wordAt
  rw [byteAt_append_right, Nat.add_assoc, byteAt_append_right]

theorem append_setWord (p q : Bytes) (i : Nat) (w : UInt16) :
    p ++ setWord q i w = setWord (p ++ q) (p.length + i) w := by
  unfold setWord
  rw [List.set_append_right _ _ (Nat.le_add_right _ _), Nat.add_sub_cancel_left,
    List.set_append_right _ _ (by omega), Nat.add_assoc, Nat.add_sub_cancel_left]

theorem drop_setWord (p : Bytes) (n i : Nat) (w : UInt16) :
    (setWord p (n + i) w).drop n = setWord (p.drop n) i w := by
  unfold setWord
  rw [List.drop_set, if_neg (by omega), List.drop_set, if_neg (by omega), Nat.add_assoc,
    Nat.add_sub_cancel_left, Nat.add_sub_cancel_left]

theorem take_setWord (p : Bytes) (n i : Nat) (w : UInt16) :
    (setWord p i w).take n = setWord (p.take n) i w := by
  unfold setWord
  rw [List.take_set, List.take_set]

theorem take_setWord_of_le (h : n ≤ i) : (setWord p i w).take n = p.take n := by
  rw [setWord, List.take_set_of_le (by omega), List.take_set_of_le h]

/-- A second write of a word hides the first. -/
theorem setWord_setWord (p : Bytes) (i : Nat) (w w' : UInt16) :
    setWord (setWord p i w) i w' = setWord p i w' := by
  unfold setWord
  rw [List.set_comm _ _ (Nat.succ_ne_self i), List.set_set, List.set_set]

theorem byteAt_setWord (h : i + 1 < p.length) : byteAt (setWord p i w) j =
    if j = i then (w >>> 8).toUInt8 else if j = i + 1 then w.toUInt8 else byteAt p j := by
  split_ifs with hfst hsnd
  · rw [hfst, setWord, byteAt_set_ne (Nat.succ_ne_self i), byteAt_set_self (by omega)]
  · rw [hsnd, setWord, byteAt_set_self (by simpa using h)]
  · exact byteAt_setWord_ne hfst hsnd

/-- Writes of words apart from each other commute. -/
theorem setWord_comm {w' : UInt16} (h : i + 1 < j ∨ j + 1 < i) :
    setWord (setWord p i w) j w' = setWord (setWord p j w') i w := by
  unfold setWord
  rw [List.set_comm _ _ (show i + 1 ≠ j by omega), List.set_comm _ _ (show i ≠ j by omega),
    List.set_comm _ _ (show i + 1 ≠ j + 1 by omega), List.set_comm _ _ (show i ≠ j + 1 by omega)]

/-- An array that lies in the string is a slice of it. -/
theorem vecAt_toList (h : i + n ≤ p.length) : (vecAt n p i).toList = (p.drop i).take n := by
  apply List.ext_getElem
  · simp only [Vector.length_toList, List.length_take, List.length_drop]
    omega
  · intro k hk hk'
    simp only [Vector.length_toList] at hk
    simp only [Vector.getElem_toList, vecAt, Vector.getElem_ofFn, List.getElem_take,
      List.getElem_drop]
    exact byteAt_eq_getElem (by omega)

/-- An array behind `p` in a string. -/
theorem vecAt_append (p q : Bytes) (a : Vector UInt8 n) :
    vecAt n (p ++ a.toList ++ q) p.length = a := by
  apply Vector.ext
  intro k hk
  have hlen : (p ++ a.toList).length = p.length + n := by simp
  rw [vecAt, Vector.getElem_ofFn, byteAt_append_left (by omega), byteAt_append_right,
    byteAt_eq_getElem (by simpa using hk), Vector.getElem_toList]

/-! ## Changes -/

/-- The strings have the same length and the same bytes at the indices outside `S`. -/
structure AgreeOff (S : Set Nat) (p q : Bytes) : Prop where
  length_eq : q.length = p.length
  byteAt_eq : ∀ j ∉ S, byteAt q j = byteAt p j

namespace AgreeOff

variable {S T : Set Nat}

theorem refl (S : Set Nat) (p : Bytes) : AgreeOff S p p := ⟨rfl, fun _ _ => rfl⟩

theorem mono (h : AgreeOff S p q) (hST : S ⊆ T) : AgreeOff T p q :=
  ⟨h.length_eq, fun j hj => h.byteAt_eq j fun hS => hj (hST hS)⟩

theorem trans (h : AgreeOff S p q) (h' : AgreeOff T q r) : AgreeOff (S ∪ T) p r := by
  refine ⟨h'.length_eq.trans h.length_eq, fun j hj => ?_⟩
  rw [h'.byteAt_eq j fun hT => hj (.inr hT), h.byteAt_eq j fun hS => hj (.inl hS)]

theorem set (p : Bytes) (i : Nat) (v : UInt8) : AgreeOff {i} p (p.set i v) :=
  ⟨List.length_set, fun _ hj => byteAt_set_ne (Ne.symm hj)⟩

theorem setWord (p : Bytes) (i : Nat) (w : UInt16) : AgreeOff {i, i + 1} p (setWord p i w) := by
  refine ⟨length_setWord p i w, fun j hj => ?_⟩
  exact byteAt_setWord_ne (fun h => hj (.inl h)) fun h => hj (.inr h)

theorem wordAt_eq (h : AgreeOff S p q) (hi : i ∉ S) (hi' : i + 1 ∉ S) :
    wordAt q i = wordAt p i := by
  unfold wordAt
  rw [h.byteAt_eq i hi, h.byteAt_eq (i + 1) hi']

theorem vecAt_eq (h : AgreeOff S p q) (hi : ∀ k < n, i + k ∉ S) : vecAt n q i = vecAt n p i := by
  unfold vecAt
  congr 1
  funext k
  exact h.byteAt_eq (i + k) (hi k k.isLt)

/-- Strings that agree outside `S` agree on a slice without an index of `S`. -/
theorem take_drop_eq {m : Nat} (h : AgreeOff S p q) (hS : ∀ j, m ≤ j → j < n → j ∉ S) :
    (q.take n).drop m = (p.take n).drop m := by
  have hlen := h.length_eq
  apply ext_byteAt (by simp [hlen])
  intro j hj
  simp only [List.length_drop, List.length_take] at hj
  rw [byteAt_drop, byteAt_drop, byteAt_take (by omega), byteAt_take (by omega)]
  exact h.byteAt_eq _ (hS _ (by omega) (by omega))

end AgreeOff

end Halo
