import Mathlib.Data.List.Basic
import Mathlib.Tactic.Common

/-!
# Lib.Merge

Bringing a sorted list up to date with another by a merge of the two that keeps an old element
where it compares equal to a new one.

* `mergeKept cmp old new`     : the elements kept and the new ones put in.
* `mergeKept_eq_iff`          : this is `new` exactly when elements that compare equal are equal.
* `mergeDropped cmp old new`  : the old elements that the merge takes out.
* `mergeDropped_eq`           : under a total order these are the elements that are not in `new`.
-/

namespace Lib

variable {α : Type*}

/-- The laws of a three-way comparison. -/
structure Comparison (cmp : α → α → Int) : Prop where
  lt_trans : ∀ {a b c}, cmp a b < 0 → cmp b c < 0 → cmp a c < 0
  swap : ∀ {a b}, cmp a b < 0 ↔ 0 < cmp b a

/-- A comparison that tells any two elements apart. -/
structure TotalComparison (cmp : α → α → Int) : Prop extends Comparison cmp where
  eq_of_zero : ∀ {a b}, cmp a b = 0 → a = b

def StrictlySorted (cmp : α → α → Int) (l : List α) : Prop := l.Pairwise fun a b => cmp a b < 0

variable (cmp : α → α → Int)

def mergeKept : List α → List α → List α
  | [], ns => ns
  | _ :: _, [] => []
  | o :: os, n :: ns =>
    if cmp o n = 0 then o :: mergeKept os ns
    else if cmp o n < 0 then mergeKept os (n :: ns)
    else n :: mergeKept (o :: os) ns
termination_by os ns => os.length + ns.length

def mergeDropped : List α → List α → List α
  | [], _ => []
  | o :: os, [] => o :: os
  | o :: os, n :: ns =>
    if cmp o n = 0 then mergeDropped os ns
    else if cmp o n < 0 then o :: mergeDropped os (n :: ns)
    else mergeDropped (o :: os) ns
termination_by os ns => os.length + ns.length

/-- Elements of the two lists that compare equal are equal. -/
def Agree (old new : List α) : Prop := ∀ o ∈ old, ∀ n ∈ new, cmp o n = 0 → o = n

variable {cmp}

theorem agree_cons_left {o : α} {old new : List α} :
    Agree cmp (o :: old) new ↔ (∀ n ∈ new, cmp o n = 0 → o = n) ∧ Agree cmp old new :=
  List.forall_mem_cons

theorem agree_cons_right {n : α} {old new : List α} :
    Agree cmp old (n :: new) ↔ (∀ o ∈ old, cmp o n = 0 → o = n) ∧ Agree cmp old new := by
  simp only [Agree, List.forall_mem_cons, forall_and]

theorem StrictlySorted.head_lt {l : List α} {a x : α} (h : StrictlySorted cmp (a :: l)) (hx : x ∈ l) :
    cmp a x < 0 := List.rel_of_pairwise_cons h hx

theorem StrictlySorted.getElem_lt {l : List α} {i j : Nat} (h : StrictlySorted cmp l)
    (hi : i < l.length) (hj : j < l.length) (hlt : i < j) : cmp l[i] l[j] < 0 :=
  List.pairwise_iff_getElem.mp h i j hi hj hlt

theorem StrictlySorted.lt_of_lt {l : List α} {i j : Nat} {a b : α} (h : StrictlySorted cmp l)
    (ha : l[i]? = some a) (hb : l[j]? = some b) (hlt : i < j) : cmp a b < 0 := by
  obtain ⟨hi, rfl⟩ := List.getElem?_eq_some_iff.mp ha
  obtain ⟨hj, rfl⟩ := List.getElem?_eq_some_iff.mp hb
  exact h.getElem_lt hi hj hlt

/-- **The merge gives the new list** exactly when elements that compare equal are equal. -/
theorem mergeKept_eq_iff (hc : Comparison cmp) {old new : List α} (ho : StrictlySorted cmp old)
    (hn : StrictlySorted cmp new) : mergeKept cmp old new = new ↔ Agree cmp old new := by
  fun_induction mergeKept cmp old new with
  | case1 ns => exact iff_of_true rfl fun o ho => absurd ho List.not_mem_nil
  | case2 o os => exact iff_of_true rfl fun o _ n hn => absurd hn List.not_mem_nil
  | case3 o os n ns heq ih =>
    -- the old element stays, and is equal to no other new one
    rw [List.cons.injEq, ih ho.of_cons hn.of_cons, agree_cons_left, agree_cons_right,
      List.forall_mem_cons]
    constructor
    · rintro ⟨rfl, hrest⟩
      refine ⟨⟨fun _ => rfl, fun n' hn' h0 => ?_⟩, fun o' ho' h0 => ?_, hrest⟩
      · exact absurd h0 (Int.ne_of_lt (hn.head_lt hn'))
      · exact absurd h0 (Int.ne_of_gt (hc.swap.mp (ho.head_lt ho')))
    · rintro ⟨⟨hon, -⟩, -, hrest⟩
      exact ⟨hon heq, hrest⟩
  | case4 o os n ns hne hlt ih =>
    -- the old element lies before all new ones
    rw [ih ho.of_cons hn, agree_cons_left]
    refine ⟨fun hrest => ⟨fun n' hn' h0 => ?_, hrest⟩, fun h => h.2⟩
    rcases List.mem_cons.mp hn' with rfl | hn'
    · exact absurd h0 hne
    · exact absurd h0 (Int.ne_of_lt (hc.lt_trans hlt (hn.head_lt hn')))
  | case5 o os n ns hne hnlt ih =>
    -- the new element lies before all old ones
    have hgt : cmp n o < 0 := hc.swap.mpr (by omega)
    rw [List.cons.injEq, ih ho hn.of_cons, agree_cons_right]
    refine ⟨fun ⟨_, hrest⟩ => ⟨fun o' ho' h0 => ?_, hrest⟩, fun h => ⟨rfl, h.2⟩⟩
    rcases List.mem_cons.mp ho' with rfl | ho'
    · exact absurd h0 hne
    · exact absurd h0 (Int.ne_of_gt (hc.swap.mp (hc.lt_trans hgt (ho.head_lt ho'))))

theorem Comparison.irrefl (hc : Comparison cmp) {a : α} : ¬ cmp a a < 0 := by
  intro h
  have h' := hc.swap.mp h
  omega

theorem TotalComparison.lt_or_eq (hc : TotalComparison cmp) {a b : α} (h : ¬ cmp b a < 0) :
    cmp a b < 0 ∨ a = b := by
  by_cases hab : cmp a b < 0
  · exact .inl hab
  · refine .inr (hc.eq_of_zero ?_)
    have hle := mt hc.swap.mpr h
    omega

/-- The comparison of `b` with `a`. -/
def flipped (cmp : α → α → Int) (a b : α) : Int := -cmp b a

theorem Comparison.flipped (hc : Comparison cmp) : Comparison (flipped cmp) := by
  constructor
  · intro a b c hab hbc
    have hba := hc.swap.mpr (Int.neg_lt_zero_iff.mp hab)
    have hcb := hc.swap.mpr (Int.neg_lt_zero_iff.mp hbc)
    exact Int.neg_lt_zero_iff.mpr (hc.swap.mp (hc.lt_trans hba hcb))
  · intro a b
    rw [Lib.flipped, Lib.flipped, Int.neg_lt_zero_iff]
    exact hc.swap.symm.trans Int.neg_pos.symm

theorem TotalComparison.flipped (hc : TotalComparison cmp) : TotalComparison (flipped cmp) :=
  ⟨hc.toComparison.flipped, fun h0 => (hc.eq_of_zero (Int.neg_eq_zero.mp h0)).symm⟩

theorem StrictlySorted.flipped (hc : Comparison cmp) {l : List α} (h : StrictlySorted cmp l) :
    StrictlySorted (flipped cmp) l :=
  h.imp fun hab => Int.neg_lt_zero_iff.mpr (hc.swap.mp hab)

theorem StrictlySorted.nodup (hc : Comparison cmp) {l : List α} (h : StrictlySorted cmp l) :
    l.Nodup := by
  refine h.imp fun {a b} hab => ?_
  rintro rfl
  exact hc.irrefl hab

theorem TotalComparison.reversed (hc : TotalComparison cmp) :
    TotalComparison fun a b => cmp b a :=
  ⟨⟨fun hab hbc => hc.lt_trans hbc hab, hc.swap⟩, fun h0 => (hc.eq_of_zero h0).symm⟩

theorem TotalComparison.agree (hc : TotalComparison cmp) (old new : List α) : Agree cmp old new :=
  fun _ _ _ _ h0 => hc.eq_of_zero h0

/-- **What a merge drops** are the old elements that are not among the new ones. -/
theorem mergeDropped_eq [BEq α] [LawfulBEq α] (hc : TotalComparison cmp) {old new : List α}
    (ho : StrictlySorted cmp old) (hn : StrictlySorted cmp new) :
    mergeDropped cmp old new = old.filter (· ∉ new) := by
  fun_induction mergeDropped cmp old new with
  | case1 ns => rfl
  | case2 o os => simp
  | case3 o os n ns heq ih =>
    obtain rfl := hc.eq_of_zero heq
    -- the old elements after it are not equal to it
    have hmem : ∀ x ∈ os, (x ∉ o :: ns ↔ x ∉ ns) := by
      intro x hx
      rw [List.mem_cons, not_or]
      refine and_iff_right ?_
      rintro rfl
      exact hc.irrefl (ho.head_lt hx)
    rw [ih ho.of_cons hn.of_cons, List.filter_cons_of_neg (by simp)]
    refine List.filter_congr fun x hx => ?_
    simp only [hmem x hx]
  | case4 o os n ns hne hlt ih =>
    have hnot : o ∉ n :: ns := by
      intro ho'
      rcases List.mem_cons.mp ho' with rfl | hmem
      · exact hc.irrefl hlt
      · exact hc.irrefl (hc.lt_trans hlt (hn.head_lt hmem))
    rw [ih ho.of_cons hn, List.filter_cons, if_pos]
    exact decide_eq_true hnot
  | case5 o os n ns hne hnlt ih =>
    have hgt : cmp n o < 0 := hc.swap.mpr (by omega)
    have hnot : n ∉ o :: os := by
      intro hn'
      rcases List.mem_cons.mp hn' with rfl | hmem
      · exact hc.irrefl hgt
      · exact hc.irrefl (hc.lt_trans hgt (ho.head_lt hmem))
    rw [ih ho hn.of_cons]
    refine List.filter_congr fun x hx => ?_
    have hxn : x ≠ n := fun h => hnot (h ▸ hx)
    simp only [List.mem_cons, hxn, false_or]

end Lib
