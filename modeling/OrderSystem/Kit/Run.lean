/-
# Runs of a guarded step function

A system here is a step function `step : σ → ε → Option σ`: an event either moves the state
or is not enabled.  A run is a list of events that are all enabled, one after the other.
Everything the development says about "every reachable state" is said about `run`, so the
inductions over runs are done once, in this file:

* `run_invariant` -- a predicate that holds at the start and is kept by every step holds
  after every run;
* `run_invariant_of` -- the same for runs whose steps all meet a side condition on the state
  before the step and the event (`Meets`);
* `run_relation_of` -- a reflexive relation that every step extends relates the start of a
  run to its end;
* `run_history_of` -- the invariant rule for a predicate that may also speak of the events so
  far;
* `foldl_visited` -- the same rule for a loop over a list.
-/
import Mathlib.Data.List.Induction

namespace OrderSystem.Kit

variable {σ ε : Type}

/-! ## 1. Runs -/

/-- The state after a list of events, if each of them is enabled when its turn comes. -/
def run (step : σ → ε → Option σ) : σ → List ε → Option σ
  | s, [] => some s
  | s, e :: es => (step s e).bind fun s' => run step s' es

/-- `Meets C step s es`: along the run of `es` from `s`, every step meets the condition `C`
on the state before it and its event. -/
def Meets (C : σ → ε → Prop) (step : σ → ε → Option σ) : σ → List ε → Prop
  | _, [] => True
  | s, e :: es => C s e ∧ ∀ s', step s e = some s' → Meets C step s' es

variable {step : σ → ε → Option σ}

/-- Whether a run meets a decidable condition can be computed. -/
instance Meets.decidable {C : σ → ε → Prop} [∀ s e, Decidable (C s e)] :
    ∀ (s : σ) (es : List ε), Decidable (Meets C step s es)
  | _, [] => isTrue trivial
  | s, e :: es =>
    match hstep : step s e with
    | none => decidable_of_iff (C s e) (by simp [Meets, hstep])
    | some s' =>
      have := Meets.decidable (C := C) s' es
      decidable_of_iff (C s e ∧ Meets C step s' es) (by simp [Meets, hstep])

variable {s s' : σ} {es : List ε} {C : σ → ε → Prop}

theorem run_cons {e : ε} :
    run step s (e :: es) = some s' ↔ ∃ t, step s e = some t ∧ run step t es = some s' := by
  simp only [run, Option.bind_eq_some_iff]

theorem run_append {fs : List ε} :
    run step s (es ++ fs) = some s' ↔ ∃ t, run step s es = some t ∧ run step t fs = some s' := by
  induction es generalizing s with
  | nil => simp [run]
  | cons e es ih =>
    simp only [List.cons_append, run_cons, ih]
    constructor
    · rintro ⟨t, ht, u, hu, hs⟩
      exact ⟨u, ⟨t, ht, hu⟩, hs⟩
    · rintro ⟨u, ⟨t, ht, hu⟩, hs⟩
      exact ⟨t, ht, u, hu, hs⟩

/-- A run with one more event at the end is a run and then a step. -/
theorem run_snoc {e : ε} :
    run step s (es ++ [e]) = some s' ↔ ∃ t, run step s es = some t ∧ step t e = some s' := by
  rw [run_append]
  constructor
  · rintro ⟨t, ht, hs⟩
    obtain ⟨u, hu, hr⟩ := run_cons.mp hs
    simp only [run, Option.some.injEq] at hr
    exact ⟨t, ht, hr ▸ hu⟩
  · rintro ⟨t, ht, hs⟩
    exact ⟨t, ht, run_cons.mpr ⟨s', hs, rfl⟩⟩

/-- The condition holds along a run exactly when it holds along each of its two parts. -/
theorem meets_append {t : σ} {fs : List ε} (ht : run step s es = some t) :
    Meets C step s (es ++ fs) ↔ Meets C step s es ∧ Meets C step t fs := by
  induction es generalizing s with
  | nil =>
    simp only [run, Option.some.injEq] at ht
    subst ht
    simp [Meets]
  | cons e es ih =>
    obtain ⟨u, hu, hr⟩ := run_cons.mp ht
    simp only [List.cons_append, Meets, hu, Option.some.injEq, forall_eq', ih hr, and_assoc]

/-! ## 2. The rules -/

/-- **The invariant rule, under a condition on the steps.** -/
theorem run_invariant_of {I : σ → Prop} (hstep : ∀ s e s', I s → C s e → step s e = some s' → I s')
    (h0 : I s) (hC : Meets C step s es) (hrun : run step s es = some s') : I s' := by
  induction es generalizing s with
  | nil =>
    simp only [run, Option.some.injEq] at hrun
    exact hrun ▸ h0
  | cons e es ih =>
    obtain ⟨t, ht, hr⟩ := run_cons.mp hrun
    exact ih (hstep s e t h0 hC.1 ht) (hC.2 t ht) hr

/-- A condition on the events alone. -/
theorem meets_of_forall (h : ∀ e ∈ es, ∀ s, C s e) (s : σ) :
    Meets C step s es := by
  induction es generalizing s with
  | nil => trivial
  | cons e es ih =>
    exact ⟨h e (by simp) s, fun s' _ => ih (fun e' he' => h e' (by simp [he'])) s'⟩

/-- A condition that may look at where a run is going. -/
theorem meets_of_run (hrun : run step s es = some s')
    (h : ∀ t e t' fs, e ∈ es → step t e = some t' → run step t' fs = some s' → C t e) :
    Meets C step s es := by
  induction es generalizing s with
  | nil => trivial
  | cons e es ih =>
    obtain ⟨t, ht, hr⟩ := run_cons.mp hrun
    refine ⟨h s e t es (by simp) ht hr, fun t' ht' => ?_⟩
    obtain rfl := Option.some.inj (ht.symm.trans ht')
    exact ih hr fun u e' u' fs he' => h u e' u' fs (by simp [he'])

theorem meets_true (s : σ) (es : List ε) : Meets (fun _ _ => True) step s es := by
  induction es generalizing s with
  | nil => trivial
  | cons e es ih => exact ⟨trivial, fun s' _ => ih s'⟩

/-- **The invariant rule.** -/
theorem run_invariant {I : σ → Prop} (hstep : ∀ s e s', I s → step s e = some s' → I s') (h0 : I s)
    (hrun : run step s es = some s') : I s' :=
  run_invariant_of (C := fun _ _ => True) (fun s e s' hI _ => hstep s e s' hI) h0
    (meets_true s es) hrun

/-- **The rule for relations between the two ends of a run.**  The invariant `I` may be used
at every step, and the condition `C` holds at every step. -/
theorem run_relation_of {I : σ → Prop} {R : σ → σ → Prop}
    (hI : ∀ s e s', I s → C s e → step s e = some s' → I s') (hrefl : ∀ s, R s s)
    (hR : ∀ s₀ s e s', I s → C s e → step s e = some s' → R s₀ s → R s₀ s') (h0 : I s)
    (hC : Meets C step s es) (hrun : run step s es = some s') : R s s' := by
  refine (run_invariant_of (C := C) (I := fun t => I t ∧ R s t) ?_ ⟨h0, hrefl s⟩ hC hrun).2
  rintro t e t' ⟨hIt, hRt⟩ hCt ht
  exact ⟨hI t e t' hIt hCt ht, hR s t e t' hIt hCt ht hRt⟩

/-- **The invariant rule, with the events so far.** -/
theorem run_history_of {I : List ε → σ → Prop} {s₀ : σ}
    (hstep : ∀ es s e s', run step s₀ es = some s → I es s → C s e → step s e = some s' →
      I (es ++ [e]) s') (h0 : I [] s₀) (hC : Meets C step s₀ es) (hrun : run step s₀ es = some s') :
    I es s' := by
  induction es using List.reverseRecOn generalizing s' with
  | nil =>
    simp only [run, Option.some.injEq] at hrun
    exact hrun ▸ h0
  | append_singleton es e ih =>
    obtain ⟨t, ht, hs⟩ := run_snoc.mp hrun
    obtain ⟨hCes, hCe⟩ := (meets_append ht).mp hC
    exact hstep es t e s' ht (ih hCes ht) hCe.1 hs

/-- **The rule for loops over a list**, with what has been visited so far. -/
theorem foldl_visited {f : σ → ε → σ} {I : List ε → σ → Prop} {s₀ : σ} (h0 : I [] s₀)
    (hstep : ∀ es s e, I es s → I (es ++ [e]) (f s e)) (es : List ε) : I es (es.foldl f s₀) := by
  induction es using List.reverseRecOn with
  | nil => exact h0
  | append_singleton es e ih =>
    rw [List.foldl_append]
    exact hstep es _ e ih

end OrderSystem.Kit
