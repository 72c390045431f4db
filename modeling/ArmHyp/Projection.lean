import ArmHyp.Runs

/-!
# Projecting a run onto one party

In a run of a partial step function some events belong to a given party and
the others do not (`own`, which may look at the state). The party sees part
of the state (`view`) and, at each of its own events, some observations
(`obs`). `Unwinding` collects the local conditions under which the other
events do not matter to it: they leave its view alone, and one of its own
events does the same from any two states with the same view, even in a
system where nothing else happens (`Alone`).

`Unwinding.projection` is the rule for runs: the party's own events, run
alone, succeed, and give the same observations and the same final view.
-/

namespace ArmHyp

variable {σ ε ν ω : Type _}

/-- Run a list of events; `none` if one of them never comes back. -/
def runEvents (step : σ → ε → Option σ) : σ → List ε → Option σ
  | s, [] => some s
  | s, e :: es => (step s e).bind fun s' => runEvents step s' es

theorem runEvents_cons_eq_some {step : σ → ε → Option σ} {s s'' : σ} {e : ε} {es : List ε} :
    runEvents step s (e :: es) = some s''
      ↔ ∃ s', step s e = some s' ∧ runEvents step s' es = some s'' :=
  Option.bind_eq_some_iff

/-- The party's own events of a run from `s`. -/
def ownEvents (step : σ → ε → Option σ) (own : σ → ε → Bool) : σ → List ε → List ε
  | _, [] => []
  | s, e :: es =>
      match step s e with
      | none => []
      | some s' =>
          if own s e then e :: ownEvents step own s' es else ownEvents step own s' es

/-- What the party observes at them. -/
def ownObs (step : σ → ε → Option σ) (own : σ → ε → Bool) (obs : ε → σ → List ω) :
    σ → List ε → List ω
  | _, [] => []
  | s, e :: es =>
      match step s e with
      | none => []
      | some s' =>
          if own s e then obs e s' ++ ownObs step own obs s' es else ownObs step own obs s' es

/-- Local conditions for a party's view to be its own. -/
structure Unwinding (step : σ → ε → Option σ) (own : σ → ε → Bool) (obs : ε → σ → List ω)
    (Inv Alone : σ → Prop) (view : σ → ν) : Prop where
  inv : ∀ {s s' : σ} {e : ε}, Inv s → step s e = some s' → Inv s'
  frame : ∀ {s s' : σ} {e : ε}, Inv s → own s e = false → step s e = some s' → view s' = view s
  follow : ∀ {s s' t : σ} {e : ε}, Inv s → Alone t → view t = view s → own s e = true →
    step s e = some s' →
      own t e = true ∧ ∃ t', step t e = some t' ∧ Alone t' ∧ view t' = view s' ∧ obs e t' = obs e s'

/-- **Projection.** A party's events, run alone, show it the same. -/
theorem Unwinding.projection {step : σ → ε → Option σ} {own : σ → ε → Bool}
    {obs : ε → σ → List ω} {Inv Alone : σ → Prop} {view : σ → ν}
    (hu : Unwinding step own obs Inv Alone view) {s s'' t : σ} {es : List ε} (hs : Inv s)
    (ht : Alone t) (hview : view t = view s) (hrun : runEvents step s es = some s'') :
    ∃ t'', runEvents step t (ownEvents step own s es) = some t'' ∧ Alone t''
      ∧ view t'' = view s''
      ∧ ownObs step own obs t (ownEvents step own s es) = ownObs step own obs s es := by
  induction es generalizing s t with
  | nil =>
      cases hrun
      exact ⟨t, rfl, ht, hview, rfl⟩
  | cons e es ih =>
      obtain ⟨s', hstep, hrest⟩ := runEvents_cons_eq_some.mp hrun
      have hs' := hu.inv hs hstep
      cases hown : own s e with
      | false =>
          have hview' : view t = view s' := hview.trans (hu.frame hs hown hstep).symm
          obtain ⟨t'', hrun', halone, hv, hobs⟩ := ih hs' ht hview' hrest
          simp only [ownEvents, ownObs, hstep, hown, Bool.false_eq_true, if_false]
          exact ⟨t'', hrun', halone, hv, hobs⟩
      | true =>
          obtain ⟨hown', t', hstep', halone', hview', hobs'⟩ := hu.follow hs ht hview hown hstep
          obtain ⟨t'', hrun', halone, hv, hobs⟩ := ih hs' halone' hview' hrest
          refine ⟨t'', ?_, halone, hv, ?_⟩
          · simp only [ownEvents, hstep, hown, if_true]
            exact runEvents_cons_eq_some.mpr ⟨t', hstep', hrun'⟩
          · simp only [ownEvents, ownObs, hstep, hown, if_true, hstep', hown', hobs', hobs]

end ArmHyp
