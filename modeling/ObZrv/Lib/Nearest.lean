import Mathlib.Data.List.Nodup
import ObZrv.Lib.Merge

/-!
# Lib.Nearest

The neighbour of an element in a sorted list, among the elements other than itself; the element need
not be in the list.

* `NextOther`, `PrevOther` : the place of the neighbour on either side, or, if that side is empty, of
  the last or first other element.
* `NextOther.unique`       : there is only one such place.
* `insertPos`              : where the element belongs; what is next to that place.
-/

namespace Lib

variable {α : Type*} (cmp : α → α → Int)

/-- At place `i` is the element right after `x`, or, if there is none, the last one other than
`x`. -/
def NextOther (l : List α) (x : α) (i : Nat) : Prop :=
  ∃ y, l[i]? = some y ∧ y ≠ x ∧
    (cmp x y < 0 ∧ (∀ z ∈ l, cmp x z < 0 → ¬ cmp z y < 0) ∨
      (∀ z ∈ l, ¬ cmp x z < 0) ∧ ∀ z ∈ l, z ≠ x → ¬ cmp y z < 0)

/-- The same in the opposite order. -/
def PrevOther (l : List α) (x : α) (i : Nat) : Prop := NextOther (fun a b => cmp b a) l x i

/-- The first place with an element that is not before `x`. -/
def insertPos (l : List α) (x : α) : Nat := l.findIdx fun y => cmp y x ≥ 0

variable {cmp} {l : List α} {x : α}

theorem NextOther.unique (hc : TotalComparison cmp) (hnodup : l.Nodup) {i j : Nat}
    (hi : NextOther cmp l x i) (hj : NextOther cmp l x j) : i = j := by
  obtain ⟨y, hy, hyx, hyn⟩ := hi
  obtain ⟨z, hz, hzx, hzn⟩ := hj
  have hymem := List.mem_of_getElem? hy
  have hzmem := List.mem_of_getElem? hz
  have heq : y = z := by
    rcases hyn with ⟨hxy, hfirst⟩ | ⟨hnone, hlast⟩
    · rcases hzn with ⟨hxz, hfirst'⟩ | ⟨hnone', -⟩
      · exact (hc.lt_or_eq (hfirst z hzmem hxz)).resolve_left (hfirst' y hymem hxy)
      · exact absurd hxy (hnone' y hymem)
    · rcases hzn with ⟨hxz, -⟩ | ⟨-, hlast'⟩
      · exact absurd hxz (hnone z hzmem)
      · exact (hc.lt_or_eq (hlast' y hymem hyx)).resolve_left (hlast z hzmem hzx)
  obtain ⟨hi', rfl⟩ := List.getElem?_eq_some_iff.mp hy
  obtain ⟨hj', hjz⟩ := List.getElem?_eq_some_iff.mp hz
  exact (List.Nodup.getElem_inj_iff hnodup).mp (heq.trans hjz.symm)

/-! ## The place of insertion -/

section InsertPos

theorem lt_of_lt_insertPos {i : Nat} (hi : i < l.length) (h : i < insertPos cmp l x) :
    cmp l[i] x < 0 := by
  have hnot := List.not_of_lt_findIdx h
  simp only [ge_iff_le, decide_eq_false_iff_not, Int.not_le] at hnot
  exact hnot

/-- In a sorted list the elements from there on are not before `x`. -/
theorem not_lt_of_insertPos_le (hc : Comparison cmp) (hs : StrictlySorted cmp l) {i : Nat}
    (hi : i < l.length) (h : insertPos cmp l x ≤ i) : ¬ cmp l[i] x < 0 := by
  have hpos : insertPos cmp l x < l.length := Nat.lt_of_le_of_lt h hi
  have hstart : ¬ cmp (l[insertPos cmp l x]) x < 0 := by
    have hge := List.findIdx_getElem (w := hpos)
    exact Int.not_lt.mpr (of_decide_eq_true hge)
  rcases Nat.eq_or_lt_of_le h with rfl | hlt
  · exact hstart
  · intro hix
    exact hstart (hc.lt_trans (hs.getElem_lt hpos hi hlt) hix)

/-- The elements before `x` are those before its place. -/
theorem exists_lt_insertPos (hc : Comparison cmp) (hs : StrictlySorted cmp l) {z : α} (hz : z ∈ l)
    (h : cmp z x < 0) : ∃ i, ∃ hi : i < l.length, i < insertPos cmp l x ∧ l[i] = z := by
  obtain ⟨i, hi, rfl⟩ := List.getElem_of_mem hz
  refine ⟨i, hi, ?_, rfl⟩
  by_contra hle
  exact not_lt_of_insertPos_le hc hs hi (Nat.le_of_not_lt hle) h

theorem insertPos_of_mem (hc : TotalComparison cmp) (hs : StrictlySorted cmp l) (hx : x ∈ l) :
    l[insertPos cmp l x]? = some x := by
  obtain ⟨i, hi, rfl⟩ := List.getElem_of_mem hx
  have hle : insertPos cmp l l[i] ≤ i := by
    by_contra hlt
    exact hc.irrefl (lt_of_lt_insertPos hi (Nat.lt_of_not_le hlt))
  rcases Nat.eq_or_lt_of_le hle with heq | hlt
  · rw [heq, List.getElem?_eq_getElem hi]
  · have hpos : insertPos cmp l l[i] < l.length := Nat.lt_trans hlt hi
    exact absurd (hs.getElem_lt hpos hi hlt)
      (not_lt_of_insertPos_le hc.toComparison hs hpos (Nat.le_refl _))

/-- The element before the place is the one right before `x`. -/
theorem prevOther_pred (hc : TotalComparison cmp) (hs : StrictlySorted cmp l)
    (h0 : 0 < insertPos cmp l x) (hle : insertPos cmp l x ≤ l.length) :
    PrevOther cmp l x (insertPos cmp l x - 1) := by
  have hi : insertPos cmp l x - 1 < l.length := by omega
  have hlt : cmp l[insertPos cmp l x - 1] x < 0 := lt_of_lt_insertPos hi (by omega)
  refine ⟨_, List.getElem?_eq_getElem hi, ?_, .inl ⟨hlt, ?_⟩⟩
  · intro heq
    rw [heq] at hlt
    exact hc.irrefl hlt
  · intro z hz hzx hbetween
    obtain ⟨j, hj, hjpos, rfl⟩ := exists_lt_insertPos hc.toComparison hs hz hzx
    rcases Nat.lt_or_ge j (insertPos cmp l x - 1) with hjlt | hjge
    · exact hc.irrefl (hc.lt_trans hbetween (hs.getElem_lt hj hi hjlt))
    · obtain rfl : j = insertPos cmp l x - 1 := by omega
      exact hc.irrefl hbetween

/-- With nothing before `x` the first element is the first other one, if `x` is not in the list. -/
theorem prevOther_first (hc : TotalComparison cmp) (hs : StrictlySorted cmp l) (hne : l ≠ [])
    (hx : x ∉ l) (h0 : insertPos cmp l x = 0) : PrevOther cmp l x 0 := by
  have hi : 0 < l.length := List.length_pos_iff.mpr hne
  refine ⟨l[0], List.getElem?_eq_getElem hi, ?_, .inr ⟨?_, ?_⟩⟩
  · intro heq
    exact hx (heq ▸ List.getElem_mem hi)
  · intro z hz hzx
    obtain ⟨j, -, hjpos, -⟩ := exists_lt_insertPos hc.toComparison hs hz hzx
    omega
  · intro z hz _ hlt
    obtain ⟨j, hj, rfl⟩ := List.getElem_of_mem hz
    rcases Nat.eq_zero_or_pos j with rfl | hjpos
    · exact hc.irrefl hlt
    · exact hc.irrefl (hc.lt_trans hlt (hs.getElem_lt hi hj hjpos))

/-- If `x` is not in the list, the element at its place is the one right after it. -/
theorem nextOther_place (hc : TotalComparison cmp) (hs : StrictlySorted cmp l) (hx : x ∉ l)
    (hi : insertPos cmp l x < l.length) : NextOther cmp l x (insertPos cmp l x) := by
  have hne : ∀ j (hj : j < l.length), l[j] ≠ x := fun j hj heq => hx (heq ▸ List.getElem_mem hj)
  have hnot := not_lt_of_insertPos_le hc.toComparison hs hi (Nat.le_refl _)
  refine ⟨_, List.getElem?_eq_getElem hi, hne _ hi, .inl ⟨?_, ?_⟩⟩
  · exact (hc.lt_or_eq hnot).resolve_right (hne _ hi).symm
  · intro z hz hxz hbetween
    obtain ⟨j, hj, rfl⟩ := List.getElem_of_mem hz
    rcases Nat.lt_or_ge j (insertPos cmp l x) with hlt | hge
    · exact hc.irrefl (hc.lt_trans (lt_of_lt_insertPos hj hlt) hxz)
    · rcases Nat.eq_or_lt_of_le hge with rfl | hgt
      · exact hc.irrefl hbetween
      · exact hc.irrefl (hc.lt_trans hbetween (hs.getElem_lt hi hj hgt))

/-- With everything before `x` the last element is the last other one. -/
theorem nextOther_last (hc : TotalComparison cmp) (hs : StrictlySorted cmp l) (hne : l ≠ [])
    (hend : l.length ≤ insertPos cmp l x) : NextOther cmp l x (l.length - 1) := by
  have hlen : 0 < l.length := List.length_pos_iff.mpr hne
  have hi : l.length - 1 < l.length := by omega
  have hbefore : ∀ j (hj : j < l.length), cmp l[j] x < 0 := fun j hj =>
    lt_of_lt_insertPos hj (by omega)
  refine ⟨_, List.getElem?_eq_getElem hi, ?_, .inr ⟨?_, ?_⟩⟩
  · intro heq
    exact hc.irrefl (heq ▸ hbefore _ hi)
  · intro z hz hxz
    obtain ⟨j, hj, rfl⟩ := List.getElem_of_mem hz
    exact hc.irrefl (hc.lt_trans (hbefore j hj) hxz)
  · intro z hz _ hlt
    obtain ⟨j, hj, rfl⟩ := List.getElem_of_mem hz
    rcases Nat.eq_or_lt_of_le (show j ≤ l.length - 1 by omega) with rfl | hjlt
    · exact hc.irrefl hlt
    · exact hc.irrefl (hc.lt_trans hlt (hs.getElem_lt hj hi hjlt))

end InsertPos

end Lib
