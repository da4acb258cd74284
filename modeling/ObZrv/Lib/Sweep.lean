import Mathlib.Data.List.Nodup

/-!
# Lib.Sweep

A list with a cursor on one element, of which the element at the cursor is taken out again and
again. The cursor goes on to a neighbour: in the direction it is heading while there is one there,
else the other way.

* `Cursor.remove` : one removal.
* `Cursor.order`  : the elements still to come, in the order in which the cursor reaches them.
* `order_of_remove`, `remove_eq_none_iff` : every removal goes on to the first of them, and there is
  none left to go to exactly when they are used up.
-/

namespace Lib

inductive Heading where
  | ahead
  | back
deriving DecidableEq, Repr

/-- What stands left of the cursor, nearest first, the element at the cursor, and what stands right
of it. -/
structure Cursor (α : Type*) where
  left : List α
  cur : α
  right : List α

namespace Cursor

variable {α : Type*}

def list (z : Cursor α) : List α := z.left.reverse ++ z.cur :: z.right

def idx (z : Cursor α) : Nat := z.left.length

/-- Takes the element at the cursor out and goes on to a neighbour. -/
def remove : Heading → Cursor α → Option (Heading × Cursor α)
  | .ahead, ⟨ls, _, r :: rs⟩ => some (.ahead, ⟨ls, r, rs⟩)
  | .ahead, ⟨l :: ls, _, []⟩ => some (.back, ⟨ls, l, []⟩)
  | .back, ⟨l :: ls, _, rs⟩ => some (.back, ⟨ls, l, rs⟩)
  | .back, ⟨[], _, r :: rs⟩ => some (.ahead, ⟨[], r, rs⟩)
  | _, ⟨[], _, []⟩ => none

def order : Heading → Cursor α → List α
  | .ahead, z => z.right ++ z.left
  | .back, z => z.left ++ z.right

/-- The cursor at an index of a list. -/
def ofList (l : List α) (i : Nat) (h : i < l.length) : Cursor α :=
  ⟨(l.take i).reverse, l[i], l.drop (i + 1)⟩

variable {z z' : Cursor α} {hd hd' : Heading} {i : Nat}

@[simp] theorem ofList_list {l : List α} (h : i < l.length) : (ofList l i h).list = l := by
  simp [ofList, list]

@[simp] theorem ofList_idx {l : List α} (h : i < l.length) : (ofList l i h).idx = i := by
  simp [ofList, idx, Nat.le_of_lt h]

theorem list_length (z : Cursor α) : z.list.length = z.left.length + 1 + z.right.length := by
  simp [list]
  omega

theorem idx_lt (z : Cursor α) : z.idx < z.list.length := by
  rw [list_length, idx]
  omega

theorem getElem?_idx (z : Cursor α) : z.list[z.idx]? = some z.cur := by
  simp [list, idx]

theorem getD_idx (z : Cursor α) (x : α) : z.list.getD z.idx x = z.cur := by
  rw [List.getD_eq_getElem?_getD, getElem?_idx, Option.getD_some]

theorem cur_mem (z : Cursor α) : z.cur ∈ z.list := List.mem_of_getElem? z.getElem?_idx

theorem eraseIdx_idx (z : Cursor α) : z.list.eraseIdx z.idx = z.left.reverse ++ z.right := by
  simp [list, idx, List.eraseIdx_append_of_length_le]

theorem cur_not_mem (hz : z.list.Nodup) : z.cur ∉ z.left ∧ z.cur ∉ z.right := by
  rw [list, List.nodup_middle, List.nodup_cons, List.mem_append, not_or, List.mem_reverse] at hz
  exact hz.1

theorem mem_eraseIdx_ne (hz : z.list.Nodup) {x : α} (hx : x ∈ z.list.eraseIdx z.idx) :
    x ∈ z.list ∧ x ≠ z.cur := by
  refine ⟨List.mem_of_mem_eraseIdx hx, ?_⟩
  rintro rfl
  rw [eraseIdx_idx, List.mem_append, List.mem_reverse] at hx
  exact hx.elim (cur_not_mem hz).1 (cur_not_mem hz).2

/-- In a list without repetitions a search for the element finds the cursor. -/
theorem findIdx?_cur [BEq α] [LawfulBEq α] (hz : z.list.Nodup) :
    z.list.findIdx? (· == z.cur) = some z.idx := by
  have hleft : z.left.reverse.findIdx? (· == z.cur) = none := by
    refine List.findIdx?_eq_none_iff.mpr fun x hx => ?_
    rw [beq_eq_false_iff_ne]
    rintro rfl
    exact (cur_not_mem hz).1 (List.mem_reverse.mp hx)
  rw [list, List.findIdx?_append, hleft, Option.none_or, List.findIdx?_cons]
  simp [idx]

/-! ## One removal -/

theorem remove_eq_none_iff : z.remove hd = none ↔ z.order hd = [] := by
  obtain ⟨left, cur, right⟩ := z
  cases hd with
  | ahead => cases right <;> cases left <;> simp [remove, order]
  | back => cases left <;> cases right <;> simp [remove, order]

theorem order_length (hd : Heading) (z : Cursor α) :
    (z.cur :: z.order hd).length = z.list.length := by
  rw [list_length]
  cases hd with
  | ahead => simp only [order, List.length_cons, List.length_append]; omega
  | back => simp only [order, List.length_cons, List.length_append]; omega

theorem eraseIdx_eq_nil_iff : z.list.eraseIdx z.idx = [] ↔ z.remove hd = none := by
  rw [remove_eq_none_iff, eraseIdx_idx]
  cases hd with
  | ahead => simp [order, and_comm]
  | back => simp [order]

/-- A removal goes on to the first element of the order, and keeps the rest. -/
theorem order_of_remove (h : z.remove hd = some (hd', z')) :
    z.order hd = z'.cur :: z'.order hd' := by
  revert h
  fun_cases remove hd z with
  | case1 ls cur r rs =>
    rintro ⟨⟩
    rfl
  | case2 l ls cur =>
    rintro ⟨⟩
    simp [order]
  | case3 l ls cur rs =>
    rintro ⟨⟩
    rfl
  | case4 cur r rs =>
    rintro ⟨⟩
    simp [order]
  | case5 => nofun

/-- The heading after a removal is the side that the cursor went to. -/
theorem remove_cases (h : z.remove hd = some (hd', z')) :
    hd' = .ahead ∧ z.right = z'.cur :: z'.right ∧ z'.left = z.left ∨
      hd' = .back ∧ z.left = z'.cur :: z'.left ∧ z'.right = z.right := by
  revert h
  fun_cases remove hd z with
  | case1 ls cur r rs =>
    rintro ⟨⟩
    exact .inl ⟨rfl, rfl, rfl⟩
  | case2 l ls cur =>
    rintro ⟨⟩
    exact .inr ⟨rfl, rfl, rfl⟩
  | case3 l ls cur rs =>
    rintro ⟨⟩
    exact .inr ⟨rfl, rfl, rfl⟩
  | case4 cur r rs =>
    rintro ⟨⟩
    exact .inl ⟨rfl, rfl, rfl⟩
  | case5 => nofun

theorem list_of_remove (h : z.remove hd = some (hd', z')) : z'.list = z.list.eraseIdx z.idx := by
  rw [eraseIdx_idx, list]
  rcases remove_cases h with ⟨-, hright, hleft⟩ | ⟨-, hleft, hright⟩
  · rw [hright, hleft]
  · rw [hright, hleft, List.reverse_cons, List.append_assoc]
    rfl

/-- Where the cursor is afterwards: in the place of the element taken out, or before it. -/
theorem idx_of_remove (h : z.remove hd = some (hd', z')) :
    z'.idx =
      if hd = .back ∧ 1 ≤ z.idx then z.idx - 1
      else if z.idx < (z.list.eraseIdx z.idx).length then z.idx
      else (z.list.eraseIdx z.idx).length - 1 := by
  rw [eraseIdx_idx]
  revert h
  fun_cases remove hd z with
  | case1 ls cur r rs =>
    rintro ⟨⟩
    simp [idx]
  | case2 l ls cur =>
    rintro ⟨⟩
    simp [idx]
  | case3 l ls cur rs =>
    rintro ⟨⟩
    simp [idx]
  | case4 cur r rs =>
    rintro ⟨⟩
    simp [idx]
  | case5 => nofun

/-- The element right after the one taken out, or right before it, and where it is then. -/
def Adjacent (z z' : Cursor α) : Prop :=
  z.list[z.idx + 1]? = some z'.cur ∧ z'.idx = z.idx ∨
    z.idx = z'.idx + 1 ∧ z.list[z'.idx]? = some z'.cur

theorem adjacent_of_remove (h : z.remove hd = some (hd', z')) : z.Adjacent z' := by
  obtain ⟨left, cur, right⟩ := z
  obtain ⟨left', cur', right'⟩ := z'
  rcases remove_cases h with ⟨-, hright, hleft⟩ | ⟨-, hleft, hright⟩
  · simp only at hright hleft
    subst hright hleft
    refine .inl ⟨?_, rfl⟩
    simp [list, idx]
  · simp only at hright hleft
    subst hright hleft
    refine .inr ⟨rfl, ?_⟩
    simp [list, idx]

end Cursor
end Lib
