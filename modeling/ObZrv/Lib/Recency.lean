import Mathlib.Data.List.Induction
import Mathlib.Data.List.Nodup

/-!
# Lib.Recency

Lists of distinct entries with the one used last in front, at most `n` of them.

* `touch n x l`       : `x` is used; it comes to the front, and what is too much falls off.
* `touch_of_mem`      : an entry that is there only changes its place.
* `touch_of_not_mem`  : a new one drops the last if the list is full.
* `touchAll_eq`       : after any number of uses the list is the history without repetitions, the
  last use first, cut at `n`.
-/

namespace Lib

section

variable {α : Type*} [DecidableEq α] {n : Nat} {x : α} {l : List α}

def touch (n : Nat) (x : α) (l : List α) : List α := (x :: l.filter (· ≠ x)).take n

def touchAll (n : Nat) (xs l : List α) : List α := xs.foldl (fun l x => touch n x l) l

theorem touch_length_le : (touch n x l).length ≤ n := List.length_take_le _ _

theorem touch_nodup (h : l.Nodup) : (touch n x l).Nodup := by
  refine List.Nodup.sublist (List.take_sublist _ _) ?_
  refine List.nodup_cons.mpr ⟨?_, h.filter _⟩
  simp

theorem mem_of_mem_touch {y : α} (h : y ∈ touch n x l) : y = x ∨ y ∈ l := by
  rcases List.mem_cons.mp (List.mem_of_mem_take h) with heq | hmem
  · exact .inl heq
  · exact .inr (List.mem_of_mem_filter hmem)

theorem filter_eq_erase (h : l.Nodup) : l.filter (· ≠ x) = l.erase x := by
  rw [h.erase_eq_filter]
  refine List.filter_congr ?_
  intro y _
  simp [bne, beq_eq_decide]

theorem filter_of_not_mem (h : x ∉ l) : l.filter (· ≠ x) = l := by
  refine List.filter_eq_self.mpr ?_
  intro y hy
  refine decide_eq_true ?_
  rintro rfl
  exact h hy

/-- An entry that is there moves to the front, the others stay as they are. -/
theorem touch_of_mem (hl : l.Nodup) (hn : l.length ≤ n) (h : x ∈ l) :
    touch n x l = x :: l.erase x := by
  rw [touch, filter_eq_erase hl]
  refine List.take_of_length_le ?_
  rw [List.length_cons, List.length_erase_of_mem h]
  have hpos := List.length_pos_of_mem h
  omega

/-- A new entry drops only the last one, and only from a full list. -/
theorem touch_of_not_mem (hn : l.length ≤ n) (hpos : 0 < n) (h : x ∉ l) :
    touch n x l = x :: if l.length = n then l.dropLast else l := by
  obtain ⟨m, rfl⟩ := Nat.exists_eq_add_one.mpr hpos
  rw [touch, filter_of_not_mem h, List.take_succ_cons]
  congr 1
  split
  · rename_i hfull
    rw [List.dropLast_eq_take, hfull, Nat.add_sub_cancel]
  · exact List.take_of_length_le (by omega)

/-- What has been cut off is too old to come back. -/
theorem touch_take (hl : l.Nodup) : touch n x (l.take n) = touch n x l := by
  cases n with
  | zero => rfl
  | succ n =>
    rw [touch, touch, List.take_succ_cons, List.take_succ_cons]
    congr 1
    have hsplit : l.filter (· ≠ x) =
        (l.take (n + 1)).filter (· ≠ x) ++ (l.drop (n + 1)).filter (· ≠ x) := by
      rw [← List.filter_append, List.take_append_drop]
    rw [hsplit]
    by_cases hlen : l.length ≤ n + 1
    · rw [List.drop_eq_nil_of_le hlen, List.filter_nil, List.append_nil]
    · refine (List.take_append_of_le_length ?_).symm
      have hnodup : (l.take (n + 1)).Nodup := hl.sublist (List.take_sublist _ _)
      rw [filter_eq_erase hnodup]
      have hle := List.le_length_erase (l := l.take (n + 1)) (a := x)
      rw [List.length_take] at hle
      omega

theorem touchAll_append (xs ys : List α) : touchAll n (xs ++ ys) l = touchAll n ys (touchAll n xs l) :=
  List.foldl_append

/-- Repetitions are dropped before or after a filter. -/
theorem eraseDups_filter (p : α → Bool) (l : List α) :
    (l.filter p).eraseDups = l.eraseDups.filter p := by
  induction h : l.length using Nat.strongRecOn generalizing l with
  | _ k ih =>
    cases l with
    | nil => rfl
    | cons a l =>
      have hlt : (l.filter fun b => !b == a).length < k := by
        rw [← h]
        exact Nat.lt_succ_of_le (List.length_filter_le _ _)
      have hrest := ih _ hlt (l.filter fun b => !b == a) rfl
      rw [List.eraseDups_cons]
      by_cases hp : p a = true
      · rw [List.filter_cons_of_pos hp, List.filter_cons_of_pos hp, List.eraseDups_cons, ← hrest,
          List.filter_filter, List.filter_filter]
        simp only [Bool.and_comm]
      · rw [List.filter_cons_of_neg hp, List.filter_cons_of_neg hp, ← hrest, List.filter_filter]
        congr 1
        refine List.filter_congr ?_
        intro b _
        by_cases hb : b = a
        · subst hb
          simp [hp]
        · simp [hb]

theorem eraseDups_nodup (l : List α) : l.eraseDups.Nodup := by
  induction l with
  | nil => exact List.nodup_nil
  | cons a l ih =>
    rw [List.eraseDups_cons, eraseDups_filter]
    refine List.nodup_cons.mpr ⟨?_, ih.filter _⟩
    simp

theorem eraseDups_of_nodup (h : l.Nodup) : l.eraseDups = l := by
  induction l with
  | nil => rfl
  | cons a l ih =>
    obtain ⟨hnot, hl⟩ := List.nodup_cons.mp h
    rw [List.eraseDups_cons, eraseDups_filter, ih hl]
    congr 1
    refine List.filter_eq_self.mpr ?_
    intro b hb
    have hne : b ≠ a := by
      rintro rfl
      exact hnot hb
    simp [hne]

/-- **The history**: the last use first, each entry once, and as many as there is room for. -/
theorem touchAll_eq (xs : List α) (hl : l.Nodup) (hn : l.length ≤ n) :
    touchAll n xs l = (xs.reverse ++ l).eraseDups.take n := by
  induction xs using List.reverseRecOn with
  | nil => exact ((congrArg (List.take n) (eraseDups_of_nodup hl)).trans
      (List.take_of_length_le hn)).symm
  | append_singleton xs x ih =>
    have hlast : touchAll n (xs ++ [x]) l = touch n x (touchAll n xs l) := by
      rw [touchAll_append]
      rfl
    rw [hlast, ih, touch_take (eraseDups_nodup _), List.reverse_append, List.reverse_singleton,
      List.singleton_append, List.cons_append, List.eraseDups_cons, eraseDups_filter, touch]
    congr 2
    refine List.filter_congr ?_
    intro b _
    simp [beq_eq_decide]

end

end Lib
