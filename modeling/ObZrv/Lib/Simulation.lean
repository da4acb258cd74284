import Mathlib.Tactic.TypeStar
import Mathlib.Tactic.Common

/-!
# Lib.Simulation

Two systems that answer calls, and when no sequence of calls tells them apart.

* `answers`       : the answers of a system to a sequence of calls.
* `Mirrors`       : a relation that every call answered keeps, with equal answers.
* `Follows`       : a relation that the one system keeps in every call the other one answers.
* `Follows.calls` : then it answers every sequence that the other one does, and alike.
* `Dialogue`      : a program that makes calls and goes on with the answers.
* `Mirrors.run`   : such a program has the same result on both systems.
-/

namespace Lib

variable {σ τ ι ω : Type*}

/-- The answers to a sequence of calls; `none` where one of them fails. -/
def answers (call : σ → ι → Option (ω × σ)) : σ → List ι → Option (List ω × σ)
  | s, [] => some ([], s)
  | s, c :: cs =>
    match call s c with
    | none => none
    | some (o, s) => (answers call s cs).map fun (os, s) => (o :: os, s)

/-- From related states, a call that is allowed has the same answer and leads to related states. -/
def Mirrors (ok : ι → Prop) (call : σ → ι → Option (ω × σ)) (call' : τ → ι → Option (ω × τ))
    (R : σ → τ → Prop) : Prop :=
  ∀ s t c, R s t → ok c → ∃ o s' t', call s c = some (o, s') ∧ call' t c = some (o, t') ∧ R s' t'

/-- From related states, an allowed call that the second system answers has the same answer in the
first, and leads to related states. -/
def Follows (ok : ι → Prop) (call : σ → ι → Option (ω × σ)) (call' : τ → ι → Option (ω × τ))
    (R : σ → τ → Prop) : Prop :=
  ∀ s t c o t', R s t → ok c → call' t c = some (o, t') → ∃ s', call s c = some (o, s') ∧ R s' t'

theorem Follows.calls {ok : ι → Prop} {call : σ → ι → Option (ω × σ)}
    {call' : τ → ι → Option (ω × τ)} {R : σ → τ → Prop} (h : Follows ok call call' R)
    {s : σ} {t t' : τ} (hR : R s t) {cs : List ι} (hok : ∀ c ∈ cs, ok c) {os : List ω}
    (hcalls : answers call' t cs = some (os, t')) :
    ∃ s', answers call s cs = some (os, s') ∧ R s' t' := by
  induction cs generalizing s t os with
  | nil =>
    cases hcalls
    exact ⟨s, rfl, hR⟩
  | cons c cs ih =>
    obtain ⟨hc, hcs⟩ := List.forall_mem_cons.mp hok
    rw [answers] at hcalls
    split at hcalls
    · cases hcalls
    · rename_i o t₁ ht
      obtain ⟨⟨os', t₂⟩, hrest, heq⟩ := Option.map_eq_some_iff.mp hcalls
      cases heq
      obtain ⟨s₁, hs, hR₁⟩ := h s t c o t₁ hR hc ht
      obtain ⟨s', hs', hR'⟩ := ih hR₁ hcs hrest
      refine ⟨s', ?_, hR'⟩
      simp only [answers, hs, hs', Option.map_some]

/-! ## Dialogues -/

/-- A program that is done, or makes a call and goes on with its answer. -/
inductive Dialogue (ι ω : Type*) (α : Type*) where
  | done (a : α)
  | ask (c : ι) (next : ω → Dialogue ι ω α)

namespace Dialogue

variable {α : Type*}

/-- The result on a system; `none` where a call fails. -/
def run (call : σ → ι → Option (ω × σ)) : Dialogue ι ω α → σ → Option (α × σ)
  | .done a, s => some (a, s)
  | .ask c next, s =>
    match call s c with
    | none => none
    | some (o, s) => (next o).run call s

/-- The program makes only calls that are allowed, given answers that can come. -/
def Asks (ok : ι → Prop) (can : ω → Prop) : Dialogue ι ω α → Prop
  | .done _ => True
  | .ask c next => ok c ∧ ∀ o, can o → (next o).Asks ok can

theorem Asks.ite {ok : ι → Prop} {can : ω → Prop} {c : Prop} [Decidable c] {p q : Dialogue ι ω α}
    (hp : c → p.Asks ok can) (hq : ¬ c → q.Asks ok can) : (if c then p else q).Asks ok can := by
  split
  · exact hp ‹c›
  · exact hq ‹¬ c›

end Dialogue

theorem Mirrors.run {ok : ι → Prop} {can : ω → Prop} {call : σ → ι → Option (ω × σ)}
    {call' : τ → ι → Option (ω × τ)} {R : σ → τ → Prop} (h : Mirrors ok call call' R)
    (hcan : ∀ s t c o s', R s t → ok c → call s c = some (o, s') → can o)
    {α : Type*} {p : Dialogue ι ω α} (hp : p.Asks ok can) {s : σ} {t : τ} (hR : R s t) :
    ∃ a s' t', p.run call s = some (a, s') ∧ p.run call' t = some (a, t') ∧ R s' t' := by
  induction p generalizing s t with
  | done a => exact ⟨a, s, t, rfl, rfl, hR⟩
  | ask c next ih =>
    obtain ⟨hc, hnext⟩ := hp
    obtain ⟨o, s₁, t₁, hs, ht, hR₁⟩ := h s t c hR hc
    obtain ⟨a, s', t', hs', ht', hR'⟩ := ih o (hnext o (hcan s t c o s₁ hR hc hs)) hR₁
    refine ⟨a, s', t', ?_, ?_, hR'⟩
    · simp only [Dialogue.run, hs, hs']
    · simp only [Dialogue.run, ht, ht']

end Lib
