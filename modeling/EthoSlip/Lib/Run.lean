import Mathlib.Tactic
import Mathlib.Data.List.Basic

/-!
# Runs of a transition function

A transition that may fail is run over a list of inputs. What one step keeps, a whole run keeps; in
a guarded run each step may use what is asked of the state in which it is taken.
-/

namespace EthoSlip.Lib

variable {σ α : Type*} (step : σ → α → Option σ)

def run (s : σ) (as : List α) : Option σ := as.foldlM step s

@[simp] lemma run_nil (s : σ) : run step s [] = some s := rfl

@[simp] lemma run_cons (s : σ) (a : α) (as : List α) :
    run step s (a :: as) = (step s a).bind (fun s => run step s as) := by
  rw [run, List.foldlM_cons]
  rfl

lemma run_append (s : σ) (as bs : List α) :
    run step s (as ++ bs) = (run step s as).bind (fun s => run step s bs) := by
  rw [run, List.foldlM_append]
  rfl

/-- Each step of the run is taken in a state that admits it. -/
def Guarded (G : σ → α → Prop) : σ → List α → Prop
  | _, [] => True
  | s, a :: as => G s a ∧ ∀ s', step s a = some s' → Guarded G s' as

instance Guarded.decidable (G : σ → α → Prop) [∀ s a, Decidable (G s a)] :
    ∀ s as, Decidable (Guarded step G s as)
  | _, [] => isTrue trivial
  | s, a :: as =>
    match h : step s a with
    | none => decidable_of_iff (G s a) (by simp [Guarded, h])
    | some t =>
      have := Guarded.decidable G t as
      decidable_of_iff (G s a ∧ Guarded step G t as) (by simp [Guarded, h])

variable {step}

lemma exists_step_of_run_cons {s s' : σ} {a : α} {as : List α} (h : run step s (a :: as) = some s') :
    ∃ t, step s a = some t ∧ run step t as = some s' := by
  rw [run_cons] at h
  exact Option.bind_eq_some_iff.mp h

/-- What every admitted step keeps is kept by a run of admitted steps. -/
theorem guarded_run_invariant {G : σ → α → Prop} {I : σ → Prop}
    (hstep : ∀ s a s', I s → G s a → step s a = some s' → I s') {s s' : σ} {as : List α} (hs : I s)
    (hG : Guarded step G s as) (hrun : run step s as = some s') : I s' := by
  induction as generalizing s with
  | nil =>
    rw [run_nil, Option.some.injEq] at hrun
    rw [← hrun]
    exact hs
  | cons a as ih =>
    obtain ⟨t, ht, hrun⟩ := exists_step_of_run_cons hrun
    apply ih _ (hG.2 t ht) hrun
    exact hstep s a t hs hG.1 ht

lemma guarded_of_forall {G : σ → α → Prop} (s : σ) (as : List α) (h : ∀ s, ∀ a ∈ as, G s a) :
    Guarded step G s as := by
  induction as generalizing s with
  | nil => trivial
  | cons a as ih =>
    constructor
    · exact h s a (by simp)
    · intro s' _
      exact ih s' (fun s b hb => h s b (by simp [hb]))

/-- What every step keeps is kept by a run. -/
theorem run_invariant {I : σ → Prop} (hstep : ∀ s a s', I s → step s a = some s' → I s') {s s' : σ}
    {as : List α} (hs : I s) (hrun : run step s as = some s') : I s' :=
  guarded_run_invariant (G := fun _ _ => True) (fun s a s' hs _ h => hstep s a s' hs h) hs
    (guarded_of_forall s as (fun _ _ _ => trivial)) hrun

/-- A run in which every state with the invariant has a step goes through. -/
theorem run_total {I : σ → Prop} {A : α → Prop}
    (hstep : ∀ s a, I s → A a → ∃ s', step s a = some s' ∧ I s') {s : σ} (as : List α) (hs : I s)
    (has : ∀ a ∈ as, A a) : ∃ s', run step s as = some s' ∧ I s' := by
  induction as generalizing s with
  | nil => exact ⟨s, rfl, hs⟩
  | cons a as ih =>
    obtain ⟨t, ht, hIt⟩ := hstep s a hs (has a (by simp))
    obtain ⟨s', hrun, hI⟩ := ih hIt (fun b hb => has b (by simp [hb]))
    refine ⟨s', ?_, hI⟩
    rw [run_cons, ht, Option.bind_some]
    exact hrun

/-- A guarded run goes through where each admitted step does. -/
theorem guarded_run_total {G : σ → α → Prop} {I : σ → Prop}
    (hstep : ∀ s a, I s → G s a → ∃ s', step s a = some s' ∧ I s') {s : σ} {as : List α} (hs : I s)
    (hG : Guarded step G s as) : ∃ s', run step s as = some s' ∧ I s' := by
  induction as generalizing s with
  | nil => exact ⟨s, rfl, hs⟩
  | cons a as ih =>
    obtain ⟨t, ht, hIt⟩ := hstep s a hs hG.1
    obtain ⟨s', hrun, hI⟩ := ih hIt (hG.2 t ht)
    refine ⟨s', ?_, hI⟩
    rw [run_cons, ht, Option.bind_some]
    exact hrun

/-- A function that the steps of two systems agree on is one that their runs agree on. -/
theorem run_map {τ : Type*} {step' : τ → α → Option τ} {f : σ → τ}
    (hstep : ∀ s a, (step s a).map f = step' (f s) a) (s : σ) (as : List α) :
    (run step s as).map f = run step' (f s) as := by
  induction as generalizing s with
  | nil => rfl
  | cons a as ih =>
    rw [run_cons, run_cons, ← hstep, Option.bind_map, Option.map_bind]
    congr 1
    funext t
    exact ih t

/-- A run is simulated by a system that simulates each step. -/
theorem run_simulated {τ : Type*} {step' : τ → α → Option τ} {R : σ → τ → Prop}
    (hstep : ∀ s t a t', R s t → step' t a = some t' → ∃ s', step s a = some s' ∧ R s' t')
    {s : σ} {t t' : τ} (h : R s t) {as : List α} (hrun : run step' t as = some t') :
    ∃ s', run step s as = some s' ∧ R s' t' := by
  induction as generalizing s t with
  | nil =>
    rw [run_nil, Option.some.injEq] at hrun
    rw [← hrun]
    exact ⟨s, rfl, h⟩
  | cons a as ih =>
    obtain ⟨t₁, ht, hrun⟩ := exists_step_of_run_cons hrun
    obtain ⟨s₁, hs, h₁⟩ := hstep s t a t₁ h ht
    obtain ⟨s', hrun', h'⟩ := ih h₁ hrun
    refine ⟨s', ?_, h'⟩
    rw [run_cons, hs, Option.bind_some]
    exact hrun'

section Results

variable {β τ : Type*}

/-- The run of a system whose steps give results. -/
def runResults (step : σ → α → Option (σ × β)) : σ → List α → Option (σ × List β)
  | s, [] => some (s, [])
  | s, a :: as => do
    let (t, b) ← step s a
    let (s', bs) ← runResults step t as
    return (s', b :: bs)

/-- Systems whose related states have steps with equal results have runs with equal results. -/
theorem runResults_related {step : σ → α → Option (σ × β)} {step' : τ → α → Option (τ × β)}
    {R : σ → τ → Prop}
    (hstep : ∀ s t a, R s t →
      ∃ s' t' b, step s a = some (s', b) ∧ step' t a = some (t', b) ∧ R s' t')
    {s : σ} {t : τ} (h : R s t) (as : List α) :
    ∃ s' t' bs, runResults step s as = some (s', bs) ∧ runResults step' t as = some (t', bs) ∧
      R s' t' := by
  induction as generalizing s t with
  | nil => exact ⟨s, t, [], rfl, rfl, h⟩
  | cons a as ih =>
    obtain ⟨s₁, t₁, b, hs, ht, h₁⟩ := hstep s t a h
    obtain ⟨s', t', bs, hsrun, htrun, h'⟩ := ih h₁
    refine ⟨s', t', b :: bs, ?_, ?_, h'⟩
    · simp only [runResults, hs, hsrun, Option.bind_eq_bind, Option.bind_some, Option.pure_def]
    · simp only [runResults, ht, htrun, Option.bind_eq_bind, Option.bind_some, Option.pure_def]

/-- A run of a specification, which says what inputs, results and states go together. -/
inductive SpecRun (spec : τ → α → β → τ → Prop) : τ → List (α × β) → τ → Prop
  | nil (t : τ) : SpecRun spec t [] t
  | cons {t t₁ t' : τ} {a : α} {b : β} {abs : List (α × β)} :
    spec t a b t₁ → SpecRun spec t₁ abs t' → SpecRun spec t ((a, b) :: abs) t'

/-- A system meets a specification over guarded runs where it does so in each admitted step. -/
theorem runResults_refines {step : σ → α → Option (σ × β)} {G : σ → α → Prop}
    {spec : τ → α → β → τ → Prop} {R : σ → τ → Prop}
    (hstep : ∀ s t a, R s t → G s a →
      ∃ s' b t', step s a = some (s', b) ∧ spec t a b t' ∧ R s' t')
    {s : σ} {t : τ} (h : R s t) {as : List α}
    (hG : Guarded (fun s a => (step s a).map Prod.fst) G s as) :
    ∃ s' bs t', runResults step s as = some (s', bs) ∧ bs.length = as.length ∧
      SpecRun spec t (as.zip bs) t' ∧ R s' t' := by
  induction as generalizing s t with
  | nil => exact ⟨s, [], t, rfl, rfl, .nil t, h⟩
  | cons a as ih =>
    obtain ⟨s₁, b, t₁, hcall, hspec, h₁⟩ := hstep s t a h hG.1
    obtain ⟨s', bs, t', hrun, hlen, hspecs, h'⟩ :=
      ih h₁ (hG.2 s₁ (by simp only [hcall, Option.map_some]))
    refine ⟨s', b :: bs, t', ?_, ?_, .cons hspec hspecs, h'⟩
    · simp only [runResults, hcall, hrun, Option.bind_eq_bind, Option.bind_some, Option.pure_def]
    · rw [List.length_cons, List.length_cons, hlen]

end Results

section Log

variable {ε : Type*} {ok : List ε → ε → Prop}

/-- Each entry of the log is admitted by the entries before it. -/
def EveryEntry (ok : List ε → ε → Prop) (log : List ε) : Prop :=
  ∀ before e after, log = before ++ e :: after → ok before e

lemma everyEntry_nil : EveryEntry ok [] := by
  intro before e after h
  simp at h

/-- A log is checked entry by entry as it grows. -/
theorem everyEntry_concat {log : List ε} {e : ε} (hlog : EveryEntry ok log) (he : ok log e) :
    EveryEntry ok (log ++ [e]) := by
  intro before e' after h
  rcases List.eq_nil_or_concat after with rfl | ⟨after, last, rfl⟩
  · obtain ⟨rfl, hlast⟩ := List.append_inj' h rfl
    rw [List.singleton_inj] at hlast
    rw [← hlast]
    exact he
  · rw [List.concat_eq_append, ← List.cons_append, ← List.append_assoc] at h
    exact hlog before e' after (List.append_inj' h rfl).1

end Log

end EthoSlip.Lib
