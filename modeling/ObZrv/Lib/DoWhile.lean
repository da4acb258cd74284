import Mathlib.Tactic.TypeStar

/-!
# Lib.DoWhile

Loops that need not end, run on fuel. A body goes on in a new state (`inl`) or leaves the loop with
a result (`inr`); `none` stands for a loop that has used up its fuel.

* `doWhile_inv`      : what the passes keep holds where the loop leaves.
* `doWhile_leaves`   : a loop leaves if a measure falls with every pass.
* `not_ends_of_inv`  : a loop does not end if every pass keeps an invariant and goes on.
* `not_ends_go`      : a loop that does not end goes on, in a state from which it does not end.
-/

namespace Lib

section

variable {σ ρ : Type*} (body : σ → σ ⊕ ρ)

def doWhile : Nat → σ → Option ρ
  | 0, _ => none
  | fuel + 1, s =>
    match body s with
    | .inl s' => doWhile fuel s'
    | .inr r => some r

def Ends (s : σ) : Prop := ∃ fuel r, doWhile body fuel s = some r

variable {body} {s s' : σ} {r : ρ}

theorem doWhile_inl (h : body s = .inl s') (fuel : Nat) :
    doWhile body (fuel + 1) s = doWhile body fuel s' := by
  rw [doWhile, h]

theorem doWhile_inr (h : body s = .inr r) (fuel : Nat) : doWhile body (fuel + 1) s = some r := by
  rw [doWhile, h]

theorem doWhile_inv {P : σ → Prop} {Q : ρ → Prop}
    (hgo : ∀ s s', P s → body s = .inl s' → P s')
    (hleave : ∀ s r, P s → body s = .inr r → Q r) {fuel : Nat} (hs : P s)
    (h : doWhile body fuel s = some r) : Q r := by
  induction fuel generalizing s with
  | zero => cases h
  | succ fuel ih =>
    cases hb : body s with
    | inl s' =>
      rw [doWhile_inl hb] at h
      exact ih (hgo s s' hs hb) h
    | inr r' =>
      rw [doWhile_inr hb] at h
      exact Option.some.inj h ▸ hleave s r' hs hb

/-- Total correctness: with fuel above the measure the loop leaves, with a result as promised. -/
theorem doWhile_leaves {P : σ → Prop} {Q : ρ → Prop} (measure : σ → Nat)
    (hstep : ∀ s, P s → (∃ s', body s = .inl s' ∧ P s' ∧ measure s' < measure s) ∨
      ∃ r, body s = .inr r ∧ Q r)
    {fuel : Nat} (hs : P s) (hfuel : measure s < fuel) :
    ∃ r, doWhile body fuel s = some r ∧ Q r := by
  induction fuel generalizing s with
  | zero => exact absurd hfuel (Nat.not_lt_zero _)
  | succ fuel ih =>
    rcases hstep s hs with ⟨s', hb, hs', hlt⟩ | ⟨r, hb, hr⟩
    · rw [doWhile_inl hb]
      exact ih hs' (Nat.lt_of_lt_of_le hlt (Nat.le_of_lt_succ hfuel))
    · exact ⟨r, doWhile_inr hb fuel, hr⟩

theorem ends_inr (h : body s = .inr r) : Ends body s := ⟨1, r, doWhile_inr h 0⟩

theorem ends_inl (h : body s = .inl s') : Ends body s ↔ Ends body s' := by
  constructor
  · rintro ⟨fuel, r, hr⟩
    cases fuel with
    | zero => cases hr
    | succ fuel =>
      rw [doWhile_inl h] at hr
      exact ⟨fuel, r, hr⟩
  · rintro ⟨fuel, r, hr⟩
    exact ⟨fuel + 1, r, (doWhile_inl h fuel).trans hr⟩

theorem not_ends_of_inv {P : σ → Prop} (hstep : ∀ s, P s → ∃ s', body s = .inl s' ∧ P s')
    (hs : P s) : ¬ Ends body s := by
  rintro ⟨fuel, r, h⟩
  induction fuel generalizing s with
  | zero => cases h
  | succ fuel ih =>
    obtain ⟨s', hb, hs'⟩ := hstep s hs
    rw [doWhile_inl hb] at h
    exact ih hs' h

theorem not_ends_go (h : ¬ Ends body s) : ∃ s', body s = .inl s' ∧ ¬ Ends body s' := by
  cases hb : body s with
  | inl s' => exact ⟨s', rfl, fun hs' => h ((ends_inl hb).mpr hs')⟩
  | inr r => exact absurd (ends_inr hb) h

end

end Lib
