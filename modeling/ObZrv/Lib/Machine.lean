import Mathlib.Tactic.TypeStar

/-!
# Lib.Machine

Labelled machines and their guarded runs.

* `Run ok s ls s'`  : from `s` the machine takes steps labelled `ls` to `s'`, and every step is
  taken in a state and with a label that meet the guard `ok`.
* `Reach ok s`      : some run under the guard leads from an initial state to `s`.
* `ofExec`          : the machine of a partial step function; `execAll` runs it on a list of labels
  and `run_of_execAll` turns what it computes into a run.

The guard is how an assumption about the environment enters a proof: an invariant has to be
preserved by the guarded steps only (`Run.preserves`, `Run.holds_with`, `Reach.holds`).
-/

namespace Lib

/-- Initial states and a labelled step relation. -/
structure Machine (σ ι : Type*) where
  init : σ → Prop
  step : σ → ι → σ → Prop

namespace Machine

variable {σ ι : Type*}

inductive Run (M : Machine σ ι) (ok : σ → ι → Prop) : σ → List ι → σ → Prop where
  | nil {s : σ} : Run M ok s [] s
  | cons {s s' s'' : σ} {l : ι} {ls : List ι} :
      ok s l → M.step s l s' → Run M ok s' ls s'' → Run M ok s (l :: ls) s''

def Reach (M : Machine σ ι) (ok : σ → ι → Prop) (s : σ) : Prop :=
  ∃ s₀ ls, M.init s₀ ∧ M.Run ok s₀ ls s

/-- The guard that allows every step. -/
def always (_ : σ) (_ : ι) : Prop := True

instance (s : σ) (l : ι) : Decidable (always s l) := .isTrue trivial

variable {M : Machine σ ι} {ok : σ → ι → Prop}

namespace Run

theorem single {s s' : σ} {l : ι} (hok : ok s l) (h : M.step s l s') : M.Run ok s [l] s' :=
  .cons hok h .nil

theorem trans {s s' s'' : σ} {ls ls' : List ι} (h₁ : M.Run ok s ls s') (h₂ : M.Run ok s' ls' s'') :
    M.Run ok s (ls ++ ls') s'' := by
  induction h₁ with
  | nil => exact h₂
  | cons hok hs _ ih => exact .cons hok hs (ih h₂)

/-- What every guarded step preserves, a guarded run preserves. -/
theorem preserves {P : σ → Prop} (hstep : ∀ {s l s'}, P s → ok s l → M.step s l s' → P s')
    {s s' : σ} {ls : List ι} (h : M.Run ok s ls s') (hs : P s) : P s' := by
  induction h with
  | nil => exact hs
  | cons hok hst _ ih => exact ih (hstep hs hok hst)

/-- An invariant that also speaks of the labels so far. -/
theorem holds_with {P : List ι → σ → Prop}
    (hstep : ∀ {ls s l s'}, P ls s → ok s l → M.step s l s' → P (ls ++ [l]) s')
    {s s' : σ} {ls : List ι} (h : M.Run ok s ls s') : ∀ ls₀, P ls₀ s → P (ls₀ ++ ls) s' := by
  induction h with
  | nil =>
    intro ls₀ hs
    rwa [List.append_nil]
  | cons hok hst _ ih =>
    intro ls₀ hs
    simpa using ih _ (hstep hs hok hst)

/-- A run that ends where `done` holds, if a step that lowers `m` can be taken until then. -/
theorem exists_done {P done : σ → Prop} (m : σ → Nat)
    (hstep : ∀ s, P s → done s ∨ ∃ l s', ok s l ∧ M.step s l s' ∧ P s' ∧ m s' < m s) :
    ∀ s, P s → ∃ ls s', M.Run ok s ls s' ∧ P s' ∧ done s' := by
  intro s
  induction hm : m s using Nat.strongRecOn generalizing s with
  | ind k ih =>
    intro hs
    rcases hstep s hs with hd | ⟨l, s₁, hok, hst, hs₁, hlt⟩
    · exact ⟨[], s, .nil, hs, hd⟩
    · obtain ⟨ls, s', hr, hs', hd⟩ := ih (m s₁) (hm ▸ hlt) s₁ rfl hs₁
      exact ⟨l :: ls, s', .cons hok hst hr, hs', hd⟩

/-- A run whose steps lower a rank takes no more steps than the rank it starts at. -/
theorem length_le {P : Nat → σ → Prop}
    (hstep : ∀ {k s l s'}, P k s → ok s l → M.step s l s' → ∃ k', k' < k ∧ P k' s')
    {s s' : σ} {ls : List ι} (h : M.Run ok s ls s') : ∀ {k}, P k s → ls.length ≤ k := by
  induction h with
  | nil =>
    intro k _
    exact Nat.zero_le k
  | cons hok hst _ ih =>
    intro k hs
    obtain ⟨k', hlt, hs'⟩ := hstep hs hok hst
    exact Nat.lt_of_le_of_lt (ih hs') hlt

end Run

namespace Reach

theorem of_init {s : σ} (h : M.init s) : M.Reach ok s := ⟨s, [], h, .nil⟩

theorem extend {s s' : σ} {ls : List ι} (h : M.Reach ok s) (hr : M.Run ok s ls s') :
    M.Reach ok s' := by
  obtain ⟨s₀, ls₀, h₀, hr₀⟩ := h
  exact ⟨s₀, ls₀ ++ ls, h₀, hr₀.trans hr⟩

theorem step {s s' : σ} {l : ι} (h : M.Reach ok s) (hok : ok s l) (hs : M.step s l s') :
    M.Reach ok s' := h.extend (.single hok hs)

/-- An inductive invariant holds in every reachable state. -/
theorem holds {P : σ → Prop} (hinit : ∀ {s}, M.init s → P s)
    (hstep : ∀ {s l s'}, P s → ok s l → M.step s l s' → P s') {s : σ} (h : M.Reach ok s) : P s := by
  obtain ⟨s₀, ls, h₀, hr⟩ := h
  exact hr.preserves hstep (hinit h₀)

/-- A reachable state is an initial one, or the last step leads to it. -/
theorem init_or_step {s : σ} (h : M.Reach ok s) :
    M.init s ∨ ∃ s₀ l, M.Reach ok s₀ ∧ ok s₀ l ∧ M.step s₀ l s := by
  have hlast : M.Reach ok s ∧ (M.init s ∨ ∃ s₀ l, M.Reach ok s₀ ∧ ok s₀ l ∧ M.step s₀ l s) := by
    refine h.holds (P := fun s => M.Reach ok s ∧
      (M.init s ∨ ∃ s₀ l, M.Reach ok s₀ ∧ ok s₀ l ∧ M.step s₀ l s)) ?_ ?_
    · intro s hs
      exact ⟨.of_init hs, .inl hs⟩
    · rintro s l s' ⟨h, -⟩ hok hs
      exact ⟨h.step hok hs, .inr ⟨s, l, h, hok, hs⟩⟩
  exact hlast.2

end Reach

/-! ## Machines of a step function -/

/-- The machine whose steps are the defined values of a partial function. -/
def ofExec (init : σ → Prop) (exec : σ → ι → Option σ) : Machine σ ι where
  init := init
  step s l s' := exec s l = some s'

/-- Runs a list of labels, stopping where the guard fails or the step is not defined. -/
def execAll (exec : σ → ι → Option σ) (ok : σ → ι → Prop) [∀ s l, Decidable (ok s l)] (s : σ) :
    List ι → Option σ
  | [] => some s
  | l :: ls =>
    if ok s l then
      match exec s l with
      | none => none
      | some s' => execAll exec ok s' ls
    else none

theorem run_of_execAll {init : σ → Prop} {exec : σ → ι → Option σ} {ok : σ → ι → Prop}
    [∀ s l, Decidable (ok s l)] {ls : List ι} :
    ∀ {s s' : σ}, execAll exec ok s ls = some s' → (ofExec init exec).Run ok s ls s' := by
  induction ls with
  | nil => intro s s' h; cases h; exact .nil
  | cons l ls ih =>
    intro s s' h
    simp only [execAll] at h
    split at h
    · rename_i hok
      split at h
      · cases h
      · rename_i s₁ hs
        exact .cons hok hs (ih h)
    · cases h

end Machine
end Lib
