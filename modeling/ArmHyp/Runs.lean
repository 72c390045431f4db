/-!
# Runs of a partial step function

A machine is a step function `σ → ε → Option σ`: `none` is a step that
never comes back (a handler that parks the CPU). `Reach` collects the
states a machine can be in after any number of steps, each of which
satisfies a side condition `ok` on the state it starts from and the event
it consumes. The side condition carries what is assumed of the
environment, and any restriction a result puts on a run.

The one rule everything else uses is `Reach.invariant`: what holds at the
start and is kept by every admissible step holds at every state reached.
-/

namespace ArmHyp

variable {σ ε : Type _}

/-- The states reached from `init` by admissible steps. -/
inductive Reach (init : σ → Prop) (step : σ → ε → Option σ) (ok : σ → ε → Prop) :
    σ → Prop
  | start {s : σ} : init s → Reach init step ok s
  | next {s s' : σ} {e : ε} : Reach init step ok s → ok s e → step s e = some s' →
      Reach init step ok s'

variable {init : σ → Prop} {step : σ → ε → Option σ} {ok ok' : σ → ε → Prop}

/-- The invariant rule. The step hypothesis may use that the state is itself
reachable, so invariants already established can be used in later ones. -/
theorem Reach.invariant {I : σ → Prop} (hinit : ∀ s, init s → I s)
    (hstep : ∀ s e s', Reach init step ok s → I s → ok s e → step s e = some s' → I s')
    {s : σ} (h : Reach init step ok s) : I s := by
  induction h with
  | start h => exact hinit _ h
  | next hr hok hs ih => exact hstep _ _ _ hr ih hok hs

/-- A stricter side condition reaches fewer states. -/
theorem Reach.weaken (himp : ∀ s e, ok s e → ok' s e) {s : σ}
    (h : Reach init step ok s) : Reach init step ok' s := by
  induction h with
  | start h => exact .start h
  | next _ hok hs ih => exact .next ih (himp _ _ hok) hs

/-! ## Runs with an observer -/

section Observer

variable {γ : Type _}

/-- The same steps, with a record `γ` that is updated from the state before
each step and never influences it. -/
def observed (step : σ → ε → Option σ) (observe : σ → γ → ε → γ) (s : σ × γ) (e : ε) :
    Option (σ × γ) :=
  (step s.1 e).map fun s' => (s', observe s.1 s.2 e)

theorem observed_eq_some {observe : σ → γ → ε → γ} {s s' : σ × γ} {e : ε} :
    observed step observe s e = some s' ↔ step s.1 e = some s'.1 ∧ observe s.1 s.2 e = s'.2 := by
  simp only [observed, Option.map_eq_some_iff]
  constructor
  · rintro ⟨t, ht, rfl⟩
    exact ⟨ht, rfl⟩
  · rintro ⟨ht, hg⟩
    exact ⟨s'.1, ht, Prod.ext rfl hg⟩

/-- An observed run is a run. -/
theorem Reach.forget {observe : σ → γ → ε → γ} {initObs : σ × γ → Prop}
    {okObs : σ × γ → ε → Prop} (hinit : ∀ s, initObs s → init s.1)
    (hok : ∀ s e, okObs s e → ok s.1 e) {s : σ × γ}
    (h : Reach initObs (observed step observe) okObs s) : Reach init step ok s.1 := by
  induction h with
  | start hs => exact .start (hinit _ hs)
  | next _ hoks hs ih => exact .next ih (hok _ _ hoks) (observed_eq_some.mp hs).1

/-- A run whose events leave the record alone, with the record. -/
theorem Reach.observe {observe : σ → γ → ε → γ} {g : γ}
    (hsame : ∀ s e, ok s e → observe s g e = g) {s : σ} (h : Reach init step ok s) :
    Reach (fun x => init x.1 ∧ x.2 = g) (observed step observe) (fun x e => ok x.1 e) (s, g) := by
  induction h with
  | start hs => exact .start ⟨hs, rfl⟩
  | next _ hok hs ih => exact .next ih hok (observed_eq_some.mpr ⟨hs, hsame _ _ hok⟩)

end Observer

end ArmHyp
