/-
# Watching a system

A system whose steps are watched by somebody who keeps notes: some steps are not allowed in the
light of the notes, those that happen may be noted, and the notes may change by themselves.  It
is how a guarantee of the environment is added to a system that was defined without it, and how
a proof remembers what the system itself does not.

A run of the watched system is a run of the system (`overlay_base`), so what is known of the
system's runs is known of the watched ones.
-/
import OrderSystem.Kit.Run

namespace OrderSystem.Kit

variable {σ ε γ δ : Type}

/-- What the watcher allows and notes; `δ` are the events that concern the notes alone. -/
structure Overlay (σ ε γ δ : Type) where
  allows : σ → γ → ε → Bool
  note : σ → ε → γ → γ
  own : γ → δ → γ

/-- An event of the system, or one of the notes. -/
inductive Watched (ε δ : Type) where
  | sys (e : ε)
  | own (d : δ)

/-- A condition on the steps of the system, for watched steps. -/
def Watched.Of (C : σ → ε → Prop) (t : σ × γ) : Watched ε δ → Prop
  | .sys e => C t.1 e
  | .own _ => True

instance (C : σ → ε → Prop) [∀ s e, Decidable (C s e)] (t : σ × γ) :
    (e : Watched ε δ) → Decidable (Watched.Of C t e)
  | .sys e => inferInstanceAs (Decidable (C t.1 e))
  | .own _ => isTrue trivial

/-- One step under watch. -/
def overlayStep (O : Overlay σ ε γ δ) (step : σ → ε → Option σ) :
    σ × γ → Watched ε δ → Option (σ × γ)
  | (s, x), .sys e => if O.allows s x e then (step s e).map fun s' => (s', O.note s e x) else none
  | (s, x), .own d => some (s, O.own x d)

variable {O : Overlay σ ε γ δ} {step : σ → ε → Option σ}

theorem overlayStep_sys {s s' : σ} {x x' : γ} {e : ε}
    (h : overlayStep O step (s, x) (.sys e) = some (s', x')) :
    O.allows s x e = true ∧ step s e = some s' ∧ x' = O.note s e x := by
  simp only [overlayStep] at h
  split at h
  · rename_i ha
    obtain ⟨t, ht, heq⟩ := Option.map_eq_some_iff.mp h
    obtain ⟨rfl, rfl⟩ := Prod.mk.inj heq
    exact ⟨ha, ht, rfl⟩
  · exact absurd h (by simp)

theorem overlayStep_own {s s' : σ} {x x' : γ} {d : δ}
    (h : overlayStep O step (s, x) (.own d) = some (s', x')) : s' = s ∧ x' = O.own x d := by
  obtain ⟨rfl, rfl⟩ := Prod.mk.inj (Option.some.inj h)
  exact ⟨rfl, rfl⟩

/-- **A watched run is a run**, and every step of it was allowed. -/
theorem overlay_base {C : σ → ε → Prop} (hC : ∀ s x e, O.allows s x e = true → C s e)
    {s s' : σ} {x x' : γ} {es : List (Watched ε δ)}
    (h : run (overlayStep O step) (s, x) es = some (s', x')) :
    ∃ es₀, run step s es₀ = some s' ∧ Meets C step s es₀ := by
  induction es generalizing s x with
  | nil =>
    obtain ⟨rfl, rfl⟩ := Prod.mk.inj (Option.some.inj h)
    exact ⟨[], rfl, trivial⟩
  | cons e es ih =>
    obtain ⟨⟨t, y⟩, ht, hr⟩ := run_cons.mp h
    obtain ⟨es₀, hrun, hmeets⟩ := ih hr
    cases e with
    | own d =>
      obtain ⟨rfl, -⟩ := overlayStep_own ht
      exact ⟨es₀, hrun, hmeets⟩
    | sys e =>
      obtain ⟨ha, hstep, -⟩ := overlayStep_sys ht
      refine ⟨e :: es₀, run_cons.mpr ⟨t, hstep, hrun⟩, hC s x e ha, fun t' ht' => ?_⟩
      obtain rfl := Option.some.inj (hstep.symm.trans ht')
      exact hmeets

end OrderSystem.Kit
