import Mathlib.Data.List.TakeWhile

/-!
# Lib.Delimited

Strings in one buffer, each ended by a mark, the last of them empty.

* `delimited`, `readStrings` : the writer, and a reader that stops at the empty string.
* `readStrings_delimited`    : the reader gets what the writer has written.
-/

namespace Lib

section

variable {α : Type*} (mark : α)

/-- The strings one after another, each with the mark behind it. -/
def delimited (strings : List (List α)) : List α := strings.flatMap (· ++ [mark])

/-- The string that a buffer begins with. -/
def firstString [DecidableEq α] (buf : List α) : List α := buf.takeWhile (· ≠ mark)

/-- At most `fuel` strings, up to the first that is empty. -/
def readStrings [DecidableEq α] : Nat → List α → List (List α)
  | 0, _ => []
  | fuel + 1, buf =>
    if (firstString mark buf).isEmpty then []
    else firstString mark buf :: readStrings fuel (buf.drop ((firstString mark buf).length + 1))

/-- Strings that can be told apart: none is empty or holds the mark. -/
def Marked (strings : List (List α)) : Prop := ∀ s ∈ strings, s ≠ [] ∧ mark ∉ s

variable {mark}

theorem firstString_append [DecidableEq α] {s : List α} (h : mark ∉ s) (rest : List α) :
    firstString mark (s ++ mark :: rest) = s := by
  unfold firstString
  rw [List.takeWhile_append_of_pos]
  · simp
  · intro a ha
    have hne : a ≠ mark := fun heq => h (heq ▸ ha)
    simpa using hne

theorem drop_firstString (mark : α) (s rest : List α) :
    (s ++ mark :: rest).drop (s.length + 1) = rest := by
  rw [List.drop_append, List.drop_eq_nil_of_le (Nat.le_succ _), Nat.add_sub_cancel_left]
  rfl

/-- **What was written is read**, whatever stands behind it. -/
theorem readStrings_delimited [DecidableEq α] {strings : List (List α)} (h : Marked mark strings)
    (rest : List α) {fuel : Nat} (hfuel : strings.length ≤ fuel) :
    readStrings mark fuel (delimited mark strings ++ mark :: rest) = strings := by
  induction strings generalizing fuel with
  | nil =>
    cases fuel with
    | zero => rfl
    | succ fuel => simp [readStrings, delimited, firstString]
  | cons s strings ih =>
    obtain ⟨hs, hrest⟩ := List.forall_mem_cons.mp h
    cases fuel with
    | zero => simp at hfuel
    | succ fuel =>
      have hbuf : delimited mark (s :: strings) ++ mark :: rest =
          s ++ mark :: (delimited mark strings ++ mark :: rest) := by
        simp [delimited]
      have hnonempty : s.isEmpty = false := by simpa using hs.1
      rw [readStrings, hbuf, firstString_append hs.2, if_neg (by simp [hnonempty]),
        drop_firstString, ih hrest (by simpa using hfuel)]

theorem length_le_delimited (mark : α) (strings : List (List α)) :
    strings.length ≤ (delimited mark strings).length := by
  induction strings with
  | nil => exact Nat.le_refl _
  | cons s strings ih =>
    simp only [delimited, List.flatMap_cons, List.length_append, List.length_cons,
      List.length_nil] at ih ⊢
    omega

end

end Lib
