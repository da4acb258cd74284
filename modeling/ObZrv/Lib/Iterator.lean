import Mathlib.Tactic.Common
import Mathlib.Tactic.TypeStar

/-!
# Lib.Iterator

Iterators that give an element a call, and nothing when they are through.

* `Gives`           : the calls give the elements of a list in order, once each, and then nothing.
* `Remaining.gives` : it is enough to say what is left in each state.
* `Gives.forEach`   : a loop over the iterator goes through the list.
* `firstSome_eq`      : a search for the next element that counts.
-/

namespace Lib

section

variable {σ α : Type*} (next : σ → Option α × σ)

/-- The answer to a call after `k` others. -/
def nth : Nat → σ → Option α
  | 0, s => (next s).1
  | k + 1, s => nth k (next s).2

def Gives (s : σ) (l : List α) : Prop := ∀ k, nth next k s = l[k]?

/-- `R s l` says that `l` is left in the state `s`. -/
structure Remaining (R : σ → List α → Prop) : Prop where
  done : ∀ s, R s [] → (next s).1 = none ∧ R (next s).2 []
  step : ∀ s a l, R s (a :: l) → (next s).1 = some a ∧ R (next s).2 l

/-- What a loop over at most `fuel` elements goes through, up to the first call that gives nothing. -/
def forEach : Nat → σ → List α
  | 0, _ => []
  | fuel + 1, s =>
    match next s with
    | (none, _) => []
    | (some a, s) => a :: forEach fuel s

variable {next}

theorem Remaining.gives {R : σ → List α → Prop} (h : Remaining next R) {s : σ} {l : List α}
    (hR : R s l) : Gives next s l := by
  intro k
  induction k generalizing s l with
  | zero =>
    cases l with
    | nil => exact (h.done s hR).1
    | cons a l => exact (h.step s a l hR).1
  | succ k ih =>
    cases l with
    | nil =>
      have hrest := ih (h.done s hR).2
      rw [List.getElem?_nil] at hrest ⊢
      exact hrest
    | cons a l => exact ih (h.step s a l hR).2

theorem Gives.tail {s : σ} {a : α} {l : List α} (h : Gives next s (a :: l)) :
    (next s).1 = some a ∧ Gives next (next s).2 l :=
  ⟨h 0, fun k => h (k + 1)⟩

theorem Gives.forEach {s : σ} {l : List α} (h : Gives next s l) {fuel : Nat}
    (hfuel : l.length < fuel) : forEach next fuel s = l := by
  induction fuel generalizing s l with
  | zero => exact absurd hfuel (Nat.not_lt_zero _)
  | succ fuel ih =>
    cases hs : next s with
    | mk o s' =>
      cases l with
      | nil =>
        have hnone : (next s).1 = none := h 0
        rw [hs] at hnone
        simp only at hnone
        simp only [Lib.forEach, hs, hnone]
      | cons a l =>
        obtain ⟨hsome, htail⟩ := h.tail
        rw [hs] at hsome htail
        simp only at hsome
        simp only [Lib.forEach, hs, hsome, ih htail (Nat.lt_of_succ_lt_succ hfuel)]

end

/-- The first element that `f` makes something of, and what stands behind it. -/
def firstSome {α β : Type*} (f : α → Option β) : List α → Option β × List α
  | [] => (none, [])
  | a :: l =>
    match f a with
    | some b => (some b, l)
    | none => firstSome f l

theorem firstSome_eq {α β : Type*} (f : α → Option β) (l : List α) :
    (firstSome f l).1 = (l.filterMap f).head? ∧
      (firstSome f l).2.filterMap f = (l.filterMap f).tail := by
  induction l with
  | nil => exact ⟨rfl, rfl⟩
  | cons a l ih =>
    cases ha : f a with
    | some b => simp [firstSome, ha]
    | none =>
      rw [firstSome, ha, List.filterMap_cons_none ha]
      exact ih

end Lib
