import Mathlib.Data.List.Infix
import ArmHyp.Projection

/-!
# Code that is interrupted once

A machine takes one instruction at a time (`step`, `none` where it is stuck)
and may take an interrupt before any of them (`irq`). While it is `Quiet`,
interrupts are masked and a stretch of code runs as if it were alone:
`Path n s t` is `n` such instructions from `s` to `t`.

`OneShot` is the shape of a program that sets itself up, waits, serves one
interrupt and is done: from a waiting state an instruction leads to a waiting
state, and an interrupt along a path to a finished one. Whatever the order of
instructions and interrupts, such a program is never stuck, what it has
observably done is always a beginning of what a finished state shows
(`OneShot.safe`), and enough instructions before and after one interrupt
finish it (`OneShot.finishes`).
-/

namespace ArmHyp

variable {σ ω : Type _}

/-- What can happen next: an instruction, or an interrupt if it is not masked. -/
inductive Tick where
  | insn
  | irq
deriving DecidableEq

section Paths

variable (step : σ → Option σ) (Quiet : σ → Prop)

/-- `n` instructions from `s` to `t`, with interrupts masked before each. -/
inductive Path : Nat → σ → σ → Prop
  | refl (s : σ) : Path 0 s s
  | next {n : Nat} {s s' t : σ} : Quiet s → step s = some s' → Path n s' t → Path (n + 1) s t

/-- A path to a state in `C`, of `n` instructions at most. -/
def Within (C : σ → Prop) (n : Nat) (s : σ) : Prop := ∃ m t, m ≤ n ∧ Path step Quiet m s t ∧ C t

end Paths

section PathLemmas

variable {step : σ → Option σ} {Quiet : σ → Prop}

theorem Path.trans {m n : Nat} {s t u : σ} (h : Path step Quiet m s t)
    (h' : Path step Quiet n t u) : Path step Quiet (m + n) s u := by
  induction h with
  | refl s => rwa [Nat.zero_add]
  | next hq hs _ ih =>
      rw [Nat.succ_add]
      exact .next hq hs (ih h')

/-- What only grows along instructions is, along a path, a beginning of what
it is at the end. -/
theorem Path.grows {obs : σ → List ω} (hobs : ∀ s s', step s = some s' → obs s <+: obs s')
    {n : Nat} {s t : σ} (h : Path step Quiet n s t) : obs s <+: obs t := by
  induction h with
  | refl s => exact List.prefix_refl _
  | next _ hs _ ih => exact (hobs _ _ hs).trans ih

theorem Within.mono {C : σ → Prop} {n n' : Nat} {s : σ} (hn : n ≤ n')
    (h : Within step Quiet C n s) : Within step Quiet C n' s := by
  obtain ⟨m, t, hm, hp, hc⟩ := h
  exact ⟨m, t, hm.trans hn, hp, hc⟩

theorem Within.here {C : σ → Prop} {s : σ} (h : C s) (n : Nat) : Within step Quiet C n s :=
  ⟨0, s, n.zero_le, .refl s, h⟩

/-- One stretch after another. -/
theorem Within.andThen {C D : σ → Prop} {n m : Nat} {s : σ} (h : Within step Quiet C n s)
    (hnext : ∀ t, C t → Within step Quiet D m t) : Within step Quiet D (n + m) s := by
  obtain ⟨k, t, hk, hp, hc⟩ := h
  obtain ⟨k', u, hk', hp', hd⟩ := hnext t hc
  exact ⟨k + k', u, by omega, hp.trans hp', hd⟩

theorem Path.within {C : σ → Prop} {m n : Nat} {s t : σ} (h : Path step Quiet m s t)
    (ht : Within step Quiet C n t) : Within step Quiet C (m + n) s :=
  Within.andThen (C := (· = t)) ⟨m, t, Nat.le_refl m, h, rfl⟩ fun _ hu => hu ▸ ht

/-- Nothing left to go. -/
theorem Within.reached {C : σ → Prop} {s : σ} (h : Within step Quiet C 0 s) : C s := by
  obtain ⟨m, t, hm, hp, hc⟩ := h
  obtain rfl := Nat.le_zero.mp hm
  cases hp
  exact hc

/-- Either there, or at a quiet instruction that brings it closer. -/
theorem Within.cases_next {C : σ → Prop} {n : Nat} {s : σ} (h : Within step Quiet C n s) :
    C s ∨ (Quiet s ∧ ∃ s', step s = some s' ∧ Within step Quiet C (n - 1) s') := by
  obtain ⟨m, t, hm, hp, hc⟩ := h
  cases hp with
  | refl => exact .inl hc
  | next hq hs hrest => exact .inr ⟨hq, _, hs, _, t, by omega, hrest, hc⟩

end PathLemmas

/-! ## One interrupt -/

section OneShot

variable (step : σ → Option σ) (irq : σ → σ)

/-- One event. -/
def tick (s : σ) : Tick → Option σ
  | .insn => step s
  | .irq => some (irq s)

theorem runEvents_append {ε : Type _} (step : σ → ε → Option σ) (s : σ) (es es' : List ε) :
    runEvents step s (es ++ es') = (runEvents step s es).bind (runEvents step · es') := by
  induction es generalizing s with
  | nil => rfl
  | cons e es ih => simp only [List.cons_append, runEvents, Option.bind_assoc, ih]

/-- A program that waits in `W` for one interrupt, and is done in `D` after at
most `n` more instructions. -/
structure OneShot (Quiet W D : σ → Prop) (n : Nat) : Prop where
  masked : ∀ s, Quiet s → irq s = s
  wait : ∀ s, W s → ∃ s', step s = some s' ∧ W s'
  serve : ∀ s, W s → Within step Quiet D n (irq s)
  stay : ∀ s, D s → Quiet s ∧ ∃ s', step s = some s' ∧ D s'

variable {step irq} {Quiet W D : σ → Prop} {n : Nat}

namespace OneShot

variable (h : OneShot step irq Quiet W D n)

include h

/-- An instruction on the way to the wait, or in it. -/
theorem insn_before {k : Nat} {s : σ} (hs : Within step Quiet W k s) :
    ∃ s', step s = some s' ∧ Within step Quiet W (k - 1) s' := by
  rcases hs.cases_next with hw | ⟨-, s', hstep, hs'⟩
  · obtain ⟨s', hstep, hw'⟩ := h.wait s hw
    exact ⟨s', hstep, .here hw' _⟩
  · exact ⟨s', hstep, hs'⟩

/-- An instruction on the way to the end, or there. -/
theorem insn_after {k : Nat} {s : σ} (hs : Within step Quiet D k s) :
    ∃ s', step s = some s' ∧ Within step Quiet D (k - 1) s' := by
  rcases hs.cases_next with hd | ⟨-, s', hstep, hs'⟩
  · obtain ⟨-, s', hstep, hd'⟩ := h.stay s hd
    exact ⟨s', hstep, .here hd' _⟩
  · exact ⟨s', hstep, hs'⟩

theorem irq_before {k : Nat} {s : σ} (hs : Within step Quiet W k s) :
    Within step Quiet W k (irq s) ∨ Within step Quiet D n (irq s) := by
  rcases hs.cases_next with hw | ⟨hq, -⟩
  · exact .inr (h.serve s hw)
  · rw [h.masked s hq]
    exact .inl hs

theorem irq_after {k : Nat} {s : σ} (hs : Within step Quiet D k s) :
    Within step Quiet D k (irq s) := by
  rcases hs.cases_next with hd | ⟨hq, -⟩
  · rwa [h.masked s (h.stay s hd).1]
  · rwa [h.masked s hq]

/-- Events on the way to the end: it comes as much closer as there are
instructions among them. -/
theorem ticks_after {k : Nat} {s : σ} (hs : Within step Quiet D k s) (es : List Tick) :
    ∃ t, runEvents (tick step irq) s es = some t ∧ Within step Quiet D (k - es.count .insn) t := by
  induction es generalizing k s with
  | nil => exact ⟨s, rfl, hs⟩
  | cons e es ih =>
      cases e with
      | insn =>
          obtain ⟨s', hstep, hs'⟩ := h.insn_after hs
          obtain ⟨t, ht, hd⟩ := ih hs'
          refine ⟨t, ?_, hd.mono ?_⟩
          · exact runEvents_cons_eq_some.mpr ⟨s', hstep, ht⟩
          · rw [List.count_cons_self]
            omega
      | irq =>
          obtain ⟨t, ht, hd⟩ := ih (h.irq_after hs)
          refine ⟨t, ht, hd.mono ?_⟩
          rw [List.count_cons_of_ne (by decide)]

/-- Events before the interrupt has been taken. -/
theorem ticks_before {k : Nat} {s : σ} (hs : Within step Quiet W k s) (es : List Tick) :
    ∃ t, runEvents (tick step irq) s es = some t
      ∧ (Within step Quiet W (k - es.count .insn) t ∨ Within step Quiet D n t) := by
  induction es generalizing k s with
  | nil => exact ⟨s, rfl, .inl hs⟩
  | cons e es ih =>
      cases e with
      | insn =>
          obtain ⟨s', hstep, hs'⟩ := h.insn_before hs
          obtain ⟨t, ht, ht'⟩ := ih hs'
          refine ⟨t, ?_, ht'.imp_left (Within.mono ?_)⟩
          · exact runEvents_cons_eq_some.mpr ⟨s', hstep, ht⟩
          · rw [List.count_cons_self]
            omega
      | irq =>
          rcases h.irq_before hs with hs' | hs'
          · obtain ⟨t, ht, ht'⟩ := ih hs'
            refine ⟨t, ht, ht'.imp_left (Within.mono ?_)⟩
            rw [List.count_cons_of_ne (by decide)]
          · obtain ⟨t, ht, hd⟩ := h.ticks_after hs' es
            exact ⟨t, ht, .inr (hd.mono (by omega))⟩

/-- Whatever comes, the program is not stuck, and it is on its way to the wait
or to the end. -/
theorem ticks_ok {k : Nat} {s : σ} (hs : Within step Quiet W k s) (es : List Tick) :
    ∃ t, runEvents (tick step irq) s es = some t
      ∧ (Within step Quiet W k t ∨ Within step Quiet D n t) := by
  obtain ⟨t, ht, hw | hd⟩ := h.ticks_before hs es
  · exact ⟨t, ht, .inl (hw.mono (by omega))⟩
  · exact ⟨t, ht, .inr hd⟩

/-- Safety: what a program shows that is nowhere stuck begins what it shows
when it waits, or when it is done. -/
theorem safe {obs : σ → List ω} (hobs : ∀ s s', step s = some s' → obs s <+: obs s')
    {shown : List ω} (hwait : ∀ s, W s → obs s <+: shown) (hdone : ∀ s, D s → obs s <+: shown)
    {k : Nat} {s : σ} (hs : Within step Quiet W k s) (es : List Tick) :
    ∃ t, runEvents (tick step irq) s es = some t ∧ obs t <+: shown := by
  obtain ⟨t, ht, ⟨_, u, -, hp, hu⟩ | ⟨_, u, -, hp, hu⟩⟩ := h.ticks_ok hs es
  · exact ⟨t, ht, (hp.grows hobs).trans (hwait u hu)⟩
  · exact ⟨t, ht, (hp.grows hobs).trans (hdone u hu)⟩

/-- Liveness: enough instructions, an interrupt, and enough instructions. -/
theorem finishes {k : Nat} {s : σ} (hs : Within step Quiet W k s) {es es' : List Tick}
    (hes : k ≤ es.count .insn) (hes' : n ≤ es'.count .insn) :
    ∃ t, runEvents (tick step irq) s (es ++ .irq :: es') = some t ∧ D t := by
  obtain ⟨t, ht, hw⟩ := h.ticks_before hs es
  have hd : Within step Quiet D n (irq t) := by
    rcases hw with hw | hd
    · rw [Nat.sub_eq_zero_of_le hes] at hw
      exact h.serve t hw.reached
    · exact h.irq_after hd
  obtain ⟨u, hu, hdu⟩ := h.ticks_after hd es'
  rw [Nat.sub_eq_zero_of_le hes'] at hdu
  refine ⟨u, ?_, hdu.reached⟩
  rw [runEvents_append, ht]
  exact hu

end OneShot

end OneShot

end ArmHyp
