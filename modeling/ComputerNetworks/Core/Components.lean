import ComputerNetworks.Core.Machine
import Mathlib.Logic.Function.Basic

/-!
# Machines side by side

Copies of a machine run next to each other, each with operations of its own. What
one of them does in any interleaving is what it does alone. A larger machine is
shown to be such a family by following some of its operations and letting the
others pass.
-/

namespace ComputerNetworks.Machine

variable {Site σ ι κ : Type} [DecidableEq κ]

/-- One copy of the machine for each index. -/
def sideBySide (κ : Type) [DecidableEq κ] (M : Machine Site σ ι) :
    Machine Site (κ → σ) (κ × ι) where
  enabled := fun t op => M.enabled (t op.1) op.2
  step := fun t op => do
    let s ← M.step (t op.1) op.2
    pure (Function.update t op.1 s)

/-- The operations of one copy. -/
def opsOf (k : κ) (ops : List (κ × ι)) : List ι :=
  (ops.filter fun op => op.1 = k).map Prod.snd

/-- An operation of the component is its next one. -/
theorem opsOf_cons_self (k : κ) (op : ι) (ops : List (κ × ι)) :
    opsOf k ((k, op) :: ops) = op :: opsOf k ops := by
  rw [opsOf, List.filter_cons_of_pos (by simp)]
  rfl

/-- An operation of another component is none of its own. -/
theorem opsOf_cons_of_ne {k k' : κ} (h : k' ≠ k) (op : ι) (ops : List (κ × ι)) :
    opsOf k ((k', op) :: ops) = opsOf k ops := by
  rw [opsOf, List.filter_cons_of_neg (by simp [h])]
  rfl

variable {M : Machine Site σ ι}

/-- In any interleaving each copy does what it does alone. -/
theorem sideBySide_run {t t' : κ → σ} {ops : List (κ × ι)}
    (hops : (M.sideBySide κ).Admissible t ops) (hrun : (M.sideBySide κ).run t ops = .ok t')
    (k : κ) :
    M.Admissible (t k) (opsOf k ops) ∧ M.run (t k) (opsOf k ops) = .ok (t' k) := by
  induction ops generalizing t with
  | nil =>
    cases hrun
    exact ⟨trivial, rfl⟩
  | cons op ops ih =>
    obtain ⟨k', op⟩ := op
    obtain ⟨t₁, hstep, hrest⟩ := Exec.bind_eq_ok.1 hrun
    obtain ⟨hadm, hrun'⟩ := ih (hops.2 t₁ hstep) hrest
    obtain ⟨s, hs, ht₁⟩ := Exec.bind_eq_ok.1 hstep
    cases ht₁
    by_cases hk : k' = k
    · subst hk
      have henabled : M.enabled (t k') op := hops.1
      rw [Function.update_self] at hadm hrun'
      rw [opsOf_cons_self]
      exact ⟨admissible_of_ok henabled hs hadm, (run_of_ok hs _).trans hrun'⟩
    · rw [Function.update_of_ne (Ne.symm hk)] at hadm hrun'
      rw [opsOf_cons_of_ne hk]
      exact ⟨hadm, hrun'⟩

/-- Where each operation of `M` does what the operation of `A` does that is seen of it, or leaves
the state of `A` alone if none is, each run of `M` does what a run of `A` does. -/
theorem run_viewed {Site' τ ι' : Type} {A : Machine Site' τ ι'} {stands : σ → τ → Prop}
    {view : ι → Option ι'}
    (hpass : ∀ s t op, stands s t → M.enabled s op → view op = none →
      ∃ s', M.step s op = .ok s' ∧ stands s' t)
    (hseen : ∀ s t op op', stands s t → M.enabled s op → view op = some op' →
      A.enabled t op' ∧ ∃ s' t', M.step s op = .ok s' ∧ A.step t op' = .ok t' ∧ stands s' t')
    {s : σ} {t : τ} (hst : stands s t) {ops : List ι} (hops : M.Admissible s ops) :
    ∃ s' t', M.run s ops = .ok s' ∧ A.Admissible t (ops.filterMap view) ∧
      A.run t (ops.filterMap view) = .ok t' ∧ stands s' t' := by
  induction ops generalizing s t with
  | nil => exact ⟨s, t, rfl, trivial, rfl, hst⟩
  | cons op ops ih =>
    cases hview : view op with
    | none =>
      obtain ⟨s₁, hs₁, hst₁⟩ := hpass s t op hst hops.1 hview
      rw [run_of_ok hs₁, List.filterMap_cons_none hview]
      exact ih hst₁ (hops.2 s₁ hs₁)
    | some op' =>
      obtain ⟨henabled, s₁, t₁, hs₁, ht₁, hst₁⟩ := hseen s t op op' hst hops.1 hview
      obtain ⟨s', t', hrun, hadm, hrun', hst'⟩ := ih hst₁ (hops.2 s₁ hs₁)
      rw [run_of_ok hs₁, List.filterMap_cons_some hview]
      exact ⟨s', t', hrun, admissible_of_ok henabled ht₁ hadm, (run_of_ok ht₁ _).trans hrun', hst'⟩

end ComputerNetworks.Machine
