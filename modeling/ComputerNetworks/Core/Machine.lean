import ComputerNetworks.Core.Memory

/-!
# Machines of atomic operations

A machine takes operations one at a time. `enabled` says where an operation may
be asked for and `step` what it does there, which may be a fault. The one rule
here turns a step lemma into a statement about every run of any length.
-/

namespace ComputerNetworks

/-- A system of atomic operations `ι` over states `σ`. -/
structure Machine (Site σ ι : Type) where
  /-- Where the surroundings may ask for an operation. -/
  enabled : σ → ι → Prop
  /-- What the operation does. -/
  step : σ → ι → Exec Site σ

namespace Machine

variable {Site σ ι : Type}

/-- Execute the operations from left to right; the first fault ends the run. -/
def run (M : Machine Site σ ι) : σ → List ι → Exec Site σ
  | s, [] => .ok s
  | s, op :: ops => do M.run (← M.step s op) ops

/-- Each operation of the list is enabled in the state in which it is executed. -/
def Admissible (M : Machine Site σ ι) : σ → List ι → Prop
  | _, [] => True
  | s, op :: ops => M.enabled s op ∧ ∀ s', M.step s op = .ok s' → M.Admissible s' ops

/-- Admissibility of a given run is decided by executing it. -/
instance decidableAdmissible (M : Machine Site σ ι) [∀ s op, Decidable (M.enabled s op)] :
    ∀ s ops, Decidable (M.Admissible s ops)
  | _, [] => isTrue trivial
  | s, op :: ops =>
    match hstep : M.step s op with
    | .ok s' =>
      have := decidableAdmissible M s' ops
      decidable_of_iff (M.enabled s op ∧ M.Admissible s' ops)
        ⟨fun h => ⟨h.1, fun _ hs => Except.ok.inj (hstep.symm.trans hs) ▸ h.2⟩,
          fun h => ⟨h.1, h.2 s' hstep⟩⟩
    | .error _ =>
      decidable_of_iff (M.enabled s op)
        ⟨fun h => ⟨h, fun _ hs => nomatch hstep.symm.trans hs⟩, fun h => h.1⟩

/-- `Inv` is kept by every enabled operation, which also never faults. -/
def Preserves (M : Machine Site σ ι) (Inv : σ → Prop) : Prop :=
  ∀ s op, Inv s → M.enabled s op → ∃ s', M.step s op = .ok s' ∧ Inv s'

/-- The machine whose operations must also meet a condition. -/
def restrict (M : Machine Site σ ι) (cond : σ → ι → Prop) : Machine Site σ ι where
  enabled := fun s op => M.enabled s op ∧ cond s op
  step := M.step

instance restrict_decidableEnabled (M : Machine Site σ ι) (cond : σ → ι → Prop)
    [∀ s op, Decidable (M.enabled s op)] [∀ s op, Decidable (cond s op)] (s : σ) (op : ι) :
    Decidable ((M.restrict cond).enabled s op) :=
  inferInstanceAs (Decidable (M.enabled s op ∧ cond s op))

variable {M : Machine Site σ ι}

/-- A first step that returns is taken. -/
theorem run_of_ok {s s' : σ} {op : ι} (hstep : M.step s op = .ok s') (ops : List ι) :
    M.run s (op :: ops) = M.run s' ops := by
  rw [run, hstep]
  rfl

/-- A first step that faults ends the run. -/
theorem run_of_error {s : σ} {op : ι} {fault : Fault Site} (hstep : M.step s op = .error fault)
    (ops : List ι) : M.run s (op :: ops) = .error fault := by
  rw [run, hstep]
  rfl

/-- A condition on the operations does not change what they do. -/
theorem restrict_run (cond : σ → ι → Prop) (s : σ) (ops : List ι) :
    (M.restrict cond).run s ops = M.run s ops := by
  induction ops generalizing s with
  | nil => rfl
  | cons op ops ih =>
    cases hstep : M.step s op with
    | error fault =>
      have hstep' : (M.restrict cond).step s op = .error fault := hstep
      rw [run_of_error hstep, run_of_error hstep']
    | ok s' =>
      have hstep' : (M.restrict cond).step s op = .ok s' := hstep
      rw [run_of_ok hstep, run_of_ok hstep', ih s']

/-- Every admissible run from a good state returns, in a good state. -/
theorem Preserves.run {Inv : σ → Prop} (hM : M.Preserves Inv) {s : σ} (hs : Inv s)
    {ops : List ι} (hops : M.Admissible s ops) : ∃ s', M.run s ops = .ok s' ∧ Inv s' := by
  induction ops generalizing s with
  | nil => exact ⟨s, rfl, hs⟩
  | cons op ops ih =>
    obtain ⟨s₁, hstep, hs₁⟩ := hM s op hs hops.1
    obtain ⟨s', hrun, hs'⟩ := ih hs₁ (hops.2 s₁ hstep)
    refine ⟨s', ?_, hs'⟩
    rw [run_of_ok hstep, hrun]

/-- An enabled operation that returns, and a run from there. -/
theorem admissible_of_ok {s s' : σ} {op : ι} (henabled : M.enabled s op)
    (hstep : M.step s op = .ok s') {ops : List ι} (hops : M.Admissible s' ops) :
    M.Admissible s (op :: ops) := by
  refine ⟨henabled, fun s'' hs'' => ?_⟩
  cases hstep.symm.trans hs''
  exact hops

/-- Where every operation may be asked for, every list of them is a run. -/
theorem admissible_of_enabled (h : ∀ s op, M.enabled s op) (s : σ) (ops : List ι) :
    M.Admissible s ops := by
  induction ops generalizing s with
  | nil => trivial
  | cons op ops ih => exact ⟨h s op, fun s' _ => ih s'⟩

/-- The states of `M` stand for states of `A`, and each operation of `M` does what `A` does. -/
def Simulates {Site' τ : Type} (M : Machine Site σ ι) (A : Machine Site' τ ι)
    (stands : σ → τ → Prop) : Prop :=
  ∀ s t op, stands s t → M.enabled s op → A.enabled t op ∧
    ∀ t', A.step t op = .ok t' → ∃ s', M.step s op = .ok s' ∧ stands s' t'

/-- A condition that carries over to the simulated machine may restrict both. -/
theorem Simulates.restrict {Site' τ : Type} {A : Machine Site' τ ι} {stands : σ → τ → Prop}
    (hsim : M.Simulates A stands) {cond : σ → ι → Prop} {cond' : τ → ι → Prop}
    (hcond : ∀ s t op, stands s t → cond s op → cond' t op) :
    (M.restrict cond).Simulates (A.restrict cond') stands := by
  rintro s t op hst ⟨henabled, hc⟩
  obtain ⟨henabled', hstep⟩ := hsim s t op hst henabled
  exact ⟨⟨henabled', hcond s t op hst hc⟩, hstep⟩

/-- An invariant of the simulated machine is one of the simulating machine. -/
theorem Simulates.preserves {Site' τ : Type} {A : Machine Site' τ ι} {stands : σ → τ → Prop}
    (hsim : M.Simulates A stands) {Inv : τ → Prop} (hA : A.Preserves Inv) :
    M.Preserves fun s => ∃ t, stands s t ∧ Inv t := by
  rintro s op ⟨t, hst, ht⟩ henabled
  obtain ⟨henabled', hstep⟩ := hsim s t op hst henabled
  obtain ⟨t', ht', hinv⟩ := hA t op ht henabled'
  obtain ⟨s', hs', hst'⟩ := hstep t' ht'
  exact ⟨s', hs', t', hst', hinv⟩

/-- Every state a run returns is a good one, whether or not other runs fault. -/
theorem run_ok {Inv : σ → Prop}
    (hkeep : ∀ s op s', Inv s → M.enabled s op → M.step s op = .ok s' → Inv s') {s s' : σ}
    (hs : Inv s) {ops : List ι} (hops : M.Admissible s ops) (hrun : M.run s ops = .ok s') :
    Inv s' := by
  induction ops generalizing s with
  | nil =>
    cases hrun
    exact hs
  | cons op ops ih =>
    obtain ⟨s₁, hstep, hrest⟩ := Exec.bind_eq_ok.1 hrun
    exact ih (hkeep s op s₁ hs hops.1 hstep) (hops.2 s₁ hstep) hrest

/-- A condition that an invariant gives restricts no run. -/
theorem admissible_restrict {Inv : σ → Prop} {cond : σ → ι → Prop}
    (hkeep : ∀ s op s', Inv s → M.enabled s op → M.step s op = .ok s' → Inv s')
    (hcond : ∀ s op, Inv s → M.enabled s op → cond s op) {s : σ} (hs : Inv s) {ops : List ι}
    (hops : M.Admissible s ops) : (M.restrict cond).Admissible s ops := by
  induction ops generalizing s with
  | nil => trivial
  | cons op ops ih =>
    refine ⟨⟨hops.1, hcond s op hs hops.1⟩, fun s' hs' => ?_⟩
    exact ih (hkeep s op s' hs hops.1 hs') (hops.2 s' hs')

section Outcome

variable {Inv : σ → Prop} {cond : σ → ι → Prop} {good : Exec Site σ → Prop}

/-- What no step mends stays lost. -/
theorem not_good_run
    (hkeep : ∀ s op s', Inv s → M.enabled s op → M.step s op = .ok s' → Inv s')
    (hstay : ∀ s op, Inv s → ¬good (.ok s) → M.enabled s op → ¬good (M.step s op))
    {s : σ} (hs : Inv s) (hbad : ¬good (.ok s)) {ops : List ι} (hops : M.Admissible s ops) :
    ¬good (M.run s ops) := by
  induction ops generalizing s with
  | nil => exact hbad
  | cons op ops ih =>
    have hnot := hstay s op hs hbad hops.1
    cases hstep : M.step s op with
    | error fault =>
      rw [run_of_error hstep, ← hstep]
      exact hnot
    | ok s' =>
      rw [run_of_ok hstep]
      exact ih (hkeep s op s' hs hops.1 hstep) (hstep ▸ hnot) (hops.2 s' hstep)

/-- Where each step from a good state turns out well exactly under a condition, and no step mends
a lost state, a run turns out well exactly when all of its steps meet the condition. -/
theorem run_good_iff
    (hkeep : ∀ s op s', Inv s → M.enabled s op → M.step s op = .ok s' → Inv s')
    (hcond : ∀ s op, Inv s → good (.ok s) → M.enabled s op → (good (M.step s op) ↔ cond s op))
    (hstay : ∀ s op, Inv s → ¬good (.ok s) → M.enabled s op → ¬good (M.step s op))
    {s : σ} (hs : Inv s) (hgood : good (.ok s)) {ops : List ι} (hops : M.Admissible s ops) :
    good (M.run s ops) ↔ (M.restrict cond).Admissible s ops := by
  induction ops generalizing s with
  | nil => exact iff_of_true hgood trivial
  | cons op ops ih =>
    have hiff := hcond s op hs hgood hops.1
    cases hstep : M.step s op with
    | error fault =>
      rw [run_of_error hstep, ← hstep, hiff]
      refine ⟨fun hc => ⟨⟨hops.1, hc⟩, fun s' hs' => ?_⟩, fun h => h.1.2⟩
      exact nomatch hstep.symm.trans hs'
    | ok s' =>
      have hs' := hkeep s op s' hs hops.1 hstep
      rw [run_of_ok hstep]
      by_cases hgood' : good (.ok s')
      · rw [ih hs' hgood' (hops.2 s' hstep)]
        have hc := hiff.1 (hstep ▸ hgood')
        refine ⟨fun h => ⟨⟨hops.1, hc⟩, fun s'' hs'' => ?_⟩, fun h => h.2 s' hstep⟩
        cases hstep.symm.trans hs''
        exact h
      · refine iff_of_false (not_good_run hkeep hstay hs' hgood' (hops.2 s' hstep)) fun h => ?_
        exact hgood' (hstep ▸ hiff.2 h.1.2)

end Outcome

section Throughout

variable {Inv Good : σ → Prop} {cond : σ → ι → Prop}

/-- Where a step keeps the invariant under a condition, and without it either faults or leaves a
state that is not good, a run passes through good states alone exactly when all of its steps meet
the condition. -/
theorem good_throughout_iff (hinv : ∀ s, Inv s → Good s)
    (hkeep : ∀ s op, Inv s → M.enabled s op → cond s op → ∃ s', M.step s op = .ok s' ∧ Inv s')
    (hbreak : ∀ s op s', Inv s → M.enabled s op → ¬ cond s op → M.step s op = .ok s' → ¬ Good s')
    {s : σ} (hs : Inv s) {ops : List ι} (hops : M.Admissible s ops) :
    (∀ before, before <+: ops → ∃ s', M.run s before = .ok s' ∧ Good s') ↔
      (M.restrict cond).Admissible s ops := by
  induction ops generalizing s with
  | nil =>
    refine iff_of_true (fun before hbefore => ?_) trivial
    rw [List.prefix_nil.1 hbefore]
    exact ⟨s, rfl, hinv s hs⟩
  | cons op ops ih =>
    constructor
    · intro hgood
      obtain ⟨s₁, hrun, hgood₁⟩ := hgood [op] (List.prefix_append [op] ops)
      obtain ⟨s₁', hstep, hend⟩ := Exec.bind_eq_ok.1 hrun
      cases hend
      have hc : cond s op := by
        by_contra hno
        exact hbreak s op s₁ hs hops.1 hno hstep hgood₁
      obtain ⟨s₁', hstep', hs₁⟩ := hkeep s op hs hops.1 hc
      cases hstep.symm.trans hstep'
      refine ⟨⟨hops.1, hc⟩, fun s' hs' => ?_⟩
      cases hstep.symm.trans hs'
      refine (ih hs₁ (hops.2 s₁ hstep)).1 fun before hbefore => ?_
      obtain ⟨s', hrun', hgood'⟩ := hgood (op :: before) (List.cons_prefix_cons.2 ⟨rfl, hbefore⟩)
      exact ⟨s', (run_of_ok hstep before).symm.trans hrun', hgood'⟩
    · rintro ⟨⟨henabled, hc⟩, hrest⟩ before hbefore
      obtain ⟨s₁, hstep, hs₁⟩ := hkeep s op hs henabled hc
      rcases List.prefix_cons_iff.1 hbefore with rfl | ⟨rest, rfl, hprefix⟩
      · exact ⟨s, rfl, hinv s hs⟩
      · obtain ⟨s', hrun, hgood⟩ := (ih hs₁ (hops.2 s₁ hstep)).2 (hrest s₁ hstep) rest hprefix
        exact ⟨s', (run_of_ok hstep rest).trans hrun, hgood⟩

end Throughout

/-- Where each enabled operation returns and follows an abstract one, so does every run. -/
theorem run_follows {τ : Type} {stands : σ → τ → Prop} {next : τ → ι → τ}
    (hstep : ∀ s t op, stands s t → M.enabled s op →
      ∃ s', M.step s op = .ok s' ∧ stands s' (next t op))
    {s : σ} {t : τ} (hst : stands s t) {ops : List ι} (hops : M.Admissible s ops) :
    ∃ s', M.run s ops = .ok s' ∧ stands s' (ops.foldl next t) := by
  induction ops generalizing s t with
  | nil => exact ⟨s, rfl, hst⟩
  | cons op ops ih =>
    obtain ⟨s₁, hs₁, hst₁⟩ := hstep s t op hst hops.1
    rw [run_of_ok hs₁, List.foldl_cons]
    exact ih hst₁ (hops.2 s₁ hs₁)

section EndsAs

variable {Stop τ : Type}

/-- A run of the code ends as one of an abstract system does: in a state that stands for its
state, or at the assertion that belongs to the reason for which it stops. -/
def EndsAs (stands : σ → τ → Prop) (site : Stop → Site) (run : Exec Site σ) :
    Except Stop τ → Prop
  | .ok t => ∃ s, run = .ok s ∧ stands s t
  | .error stop => run = .error (.assertion (site stop))

/-- Where each enabled operation ends as it does in the abstract system, so does every run. -/
theorem run_endsAs {stands : σ → τ → Prop} {site : Stop → Site} {next : τ → ι → Except Stop τ}
    (hstep : ∀ s t op, stands s t → M.enabled s op →
      EndsAs stands site (M.step s op) (next t op))
    {s : σ} {t : τ} (hst : stands s t) {ops : List ι} (hops : M.Admissible s ops) :
    EndsAs stands site (M.run s ops) (ops.foldlM next t) := by
  induction ops generalizing s t with
  | nil => exact ⟨s, rfl, hst⟩
  | cons op ops ih =>
    have hop := hstep s t op hst hops.1
    rw [List.foldlM_cons]
    cases hnext : next t op with
    | error stop =>
      rw [hnext] at hop
      exact run_of_error hop ops
    | ok t' =>
      rw [hnext] at hop
      obtain ⟨s', hs', hst'⟩ := hop
      rw [run_of_ok hs']
      exact ih hst' (hops.2 s' hs')

end EndsAs

end Machine

end ComputerNetworks
