import Mathlib.Data.List.Basic
import Mathlib.Logic.Function.Basic

/-!
# Ledgers of taken and returned tokens

A ledger records, newest entry first, which tokens were taken and which
were given back. It is the bookkeeping behind every acknowledge/complete
protocol: a token is *open* while it has been taken once more often than
given back, and a ledger *alternates* if, at every earlier moment, no token
was given back without being open and none was taken while open. In an
alternating ledger each taking is given back at most once.

`busy key` is the coarser view of a device that only remembers the key of
a token (an interrupt controller remembers the interrupt number, not the
whole value it handed out): a key is busy if the newest entry with that
key is a taking. `Sound key l` says that the ledger alternates and that the
two views agree; it is kept by taking a token whose key is not busy and by
giving back an open token, which is all a protocol has to show.

`Deferred` is for protocols that give some tokens back later: tokens of one
key `k` are parked in slots, at most one at a time, and the open tokens of
that key are exactly the parked ones. Any other open token is `lost`; with
`lost` empty, every open token is parked.
-/

namespace ArmHyp

namespace Ledger

/-- One entry: token `a` was taken, or given back. -/
inductive Entry (α : Type _) where
  | take (a : α)
  | give (a : α)
deriving DecidableEq, Repr

end Ledger

/-- A ledger, newest entry first. -/
abbrev Ledger (α : Type _) := List (Ledger.Entry α)

namespace Ledger

variable {α κ : Type _} [DecidableEq α] [DecidableEq κ]

/-- Taken once more often than given back. -/
def Open (l : Ledger α) (a : α) : Prop :=
  l.count (.take a) = l.count (.give a) + 1

instance (l : Ledger α) (a : α) : Decidable (Open l a) := inferInstanceAs (Decidable (_ = _))

/-- At every moment of the ledger's history, each token has been taken as
often as it was given back, or once more. -/
def Alternates (l : Ledger α) : Prop :=
  ∀ l', l' <:+ l → ∀ a, l'.count (.give a) ≤ l'.count (.take a)
    ∧ l'.count (.take a) ≤ l'.count (.give a) + 1

/-- The newest entry with key `k` is a taking. -/
def busy (key : α → κ) : Ledger α → κ → Bool
  | [], _ => false
  | .take a :: l, k => decide (key a = k) || busy key l k
  | .give a :: l, k => !decide (key a = k) && busy key l k

/-! ## One more entry -/

theorem count_take_cons (l : Ledger α) (a : α) (e : Entry α) :
    List.count (Entry.take a) (e :: l) = l.count (.take a) + if e = .take a then 1 else 0 := by
  simp [List.count_cons]

theorem count_give_cons (l : Ledger α) (a : α) (e : Entry α) :
    List.count (Entry.give a) (e :: l) = l.count (.give a) + if e = .give a then 1 else 0 := by
  simp [List.count_cons]

/-- Taking a token that is not open opens it and nothing else. -/
theorem open_take {l : Ledger α} (h : Alternates l) {a : α} (ha : ¬Open l a) (b : α) :
    Open (.take a :: l) b ↔ b = a ∨ Open l b := by
  have hl := h l (List.suffix_refl l) a
  simp only [Open, count_take_cons, count_give_cons, Entry.take.injEq, reduceCtorEq,
    if_false, Nat.add_zero] at ha ⊢
  by_cases hba : a = b
  · subst hba
    simp only [if_true, true_or, iff_true]
    omega
  · simp [hba, Ne.symm hba]

/-- Giving an open token back closes it and nothing else. -/
theorem open_give {l : Ledger α} {a : α} (ha : Open l a) (b : α) :
    Open (.give a :: l) b ↔ b ≠ a ∧ Open l b := by
  simp only [Open, count_take_cons, count_give_cons, Entry.give.injEq, reduceCtorEq,
    if_false, Nat.add_zero] at ha ⊢
  by_cases hba : a = b
  · subst hba
    simp only [if_true, ne_eq, not_true_eq_false, false_and, iff_false]
    omega
  · simp [hba, Ne.symm hba]

theorem Alternates.cons_take {l : Ledger α} (h : Alternates l) {a : α}
    (ha : ¬Open l a) : Alternates (.take a :: l) := by
  intro l' hl' b
  rcases List.suffix_cons_iff.mp hl' with rfl | hl'
  · have hb := h l (List.suffix_refl l) b
    simp only [Open] at ha
    simp only [count_take_cons, count_give_cons, Entry.take.injEq, reduceCtorEq, if_false,
      Nat.add_zero]
    by_cases hba : a = b
    · subst hba
      rw [if_pos rfl]
      omega
    · rw [if_neg hba]
      exact hb
  · exact h l' hl' b

theorem Alternates.cons_give {l : Ledger α} (h : Alternates l) {a : α}
    (ha : Open l a) : Alternates (.give a :: l) := by
  intro l' hl' b
  rcases List.suffix_cons_iff.mp hl' with rfl | hl'
  · have hb := h l (List.suffix_refl l) b
    simp only [Open] at ha
    simp only [count_take_cons, count_give_cons, Entry.give.injEq, reduceCtorEq, if_false,
      Nat.add_zero]
    by_cases hba : a = b
    · subst hba
      rw [if_pos rfl]
      omega
    · rw [if_neg hba]
      exact hb
  · exact h l' hl' b

/-! ## Sound ledgers -/

/-- The ledger alternates, a key is busy exactly when an open token has it,
and no two open tokens share a key. -/
structure Sound (key : α → κ) (l : Ledger α) : Prop where
  alternates : Alternates l
  busy_iff : ∀ k, busy key l k = true ↔ ∃ a, Open l a ∧ key a = k
  apart : ∀ {a b}, Open l a → Open l b → key a = key b → a = b

variable {key : α → κ} {l : Ledger α}

theorem sound_nil : Sound key ([] : Ledger α) where
  alternates := by
    intro l' hl' a
    obtain rfl := List.suffix_nil.mp hl'
    simp
  busy_iff := by simp [busy, Open]
  apart := by simp [Open]

theorem Sound.not_open (h : Sound key l) {a : α} (hb : busy key l (key a) = false) :
    ¬Open l a := by
  intro ha
  have := (h.busy_iff (key a)).mpr ⟨a, ha, rfl⟩
  rw [hb] at this
  cases this

theorem Sound.cons_take (h : Sound key l) {a : α} (hb : busy key l (key a) = false) :
    Sound key (.take a :: l) where
  alternates := h.alternates.cons_take (h.not_open hb)
  busy_iff := by
    intro k
    simp only [open_take h.alternates (h.not_open hb), busy, Bool.or_eq_true,
      decide_eq_true_eq, h.busy_iff]
    constructor
    · rintro (hk | ⟨b, hob, hk⟩)
      · exact ⟨a, Or.inl rfl, hk⟩
      · exact ⟨b, Or.inr hob, hk⟩
    · rintro ⟨b, rfl | hob, hk⟩
      · exact Or.inl hk
      · exact Or.inr ⟨b, hob, hk⟩
  apart := by
    intro b c hob hoc hbc
    -- an open token that shares the new token's key would have made it busy
    have hfresh : ∀ d, Open l d → key d ≠ key a := fun d hd hk => by
      have := (h.busy_iff (key a)).mpr ⟨d, hd, hk⟩
      rw [hb] at this
      cases this
    rw [open_take h.alternates (h.not_open hb)] at hob hoc
    rcases hob with rfl | hob <;> rcases hoc with rfl | hoc
    · rfl
    · exact absurd hbc.symm (hfresh c hoc)
    · exact absurd hbc (hfresh b hob)
    · exact h.apart hob hoc hbc

theorem Sound.cons_give (h : Sound key l) {a : α} (ha : Open l a) :
    Sound key (.give a :: l) where
  alternates := h.alternates.cons_give ha
  busy_iff := by
    intro k
    simp only [open_give ha, busy, Bool.and_eq_true, Bool.not_eq_true', decide_eq_false_iff_not,
      h.busy_iff]
    constructor
    · rintro ⟨hk, b, hob, hbk⟩
      exact ⟨b, ⟨fun hba => hk (hba ▸ hbk), hob⟩, hbk⟩
    · rintro ⟨b, ⟨hne, hob⟩, hbk⟩
      exact ⟨fun hk => hne (h.apart hob ha (hbk.trans hk.symm)), b, hob, hbk⟩
  apart := by
    intro b c hob hoc hbc
    rw [open_give ha] at hob hoc
    exact h.apart hob.2 hoc.2 hbc

/-- Taking a token and giving it straight back leaves the open tokens alone. -/
theorem Sound.open_give_take (h : Sound key l) {a : α} (hb : busy key l (key a) = false) (b : α) :
    Open (.give a :: .take a :: l) b ↔ Open l b := by
  have ha := h.not_open hb
  have hopen : Open (.take a :: l) a := (open_take h.alternates ha a).mpr (Or.inl rfl)
  rw [open_give hopen, open_take h.alternates ha]
  constructor
  · rintro ⟨hne, rfl | hob⟩
    · exact absurd rfl hne
    · exact hob
  · intro hob
    exact ⟨fun hba => ha (hba ▸ hob), Or.inr hob⟩

theorem Sound.cons_give_take (h : Sound key l) {a : α} (hb : busy key l (key a) = false) :
    Sound key (.give a :: .take a :: l) :=
  (h.cons_take hb).cons_give ((open_take h.alternates (h.not_open hb) a).mpr (Or.inl rfl))

/-! ## Deferral slots -/

/-- The open tokens with key `k` are the ones parked in slots `0..n-1`, at
most one slot is in use, and open tokens with another key are `lost`. -/
structure Deferred (key : α → κ) (k : κ) (lost : α → Prop) (n : Nat) (slot : Nat → Option α)
    (l : Ledger α) : Prop where
  sound : Sound key l
  open_key : ∀ {a}, Open l a → key a = k ∨ lost a
  open_of_slot : ∀ {i a}, i < n → slot i = some a → Open l a ∧ key a = k
  slot_of_open : ∀ {a}, Open l a → key a = k → ∃ i < n, slot i = some a
  one : ∀ {i j a b}, i < n → j < n → slot i = some a → slot j = some b → i = j

namespace Deferred

variable {k : κ} {lost : α → Prop} {n : Nat} {slot : Nat → Option α}

theorem nil (h : ∀ i < n, slot i = none) : Deferred key k lost n slot [] where
  sound := sound_nil
  open_key ho := by simp [Open] at ho
  open_of_slot hi hs := by simp [h _ hi] at hs
  slot_of_open ho := by simp [Open] at ho
  one hi _ hs := by simp [h _ hi] at hs

/-- Taken and given straight back. -/
theorem pass (h : Deferred key k lost n slot l) {a : α} (hb : busy key l (key a) = false) :
    Deferred key k lost n slot (.give a :: .take a :: l) where
  sound := h.sound.cons_give_take hb
  open_key ho := h.open_key ((h.sound.open_give_take hb _).mp ho)
  open_of_slot hi hs := by
    rw [h.sound.open_give_take hb]
    exact h.open_of_slot hi hs
  slot_of_open ho hk := h.slot_of_open ((h.sound.open_give_take hb _).mp ho) hk
  one := h.one

/-- Taken with another key, and not parked: the parked tokens do not notice. -/
theorem leak (h : Deferred key k lost n slot l) {a : α} (hb : busy key l (key a) = false)
    (hk : key a ≠ k) (hl : lost a) : Deferred key k lost n slot (.take a :: l) where
  sound := h.sound.cons_take hb
  open_key ho := by
    rw [open_take h.sound.alternates (h.sound.not_open hb)] at ho
    rcases ho with rfl | ho
    · exact Or.inr hl
    · exact h.open_key ho
  open_of_slot hi hs := by
    rw [open_take h.sound.alternates (h.sound.not_open hb)]
    obtain ⟨ho, hka⟩ := h.open_of_slot hi hs
    exact ⟨Or.inr ho, hka⟩
  slot_of_open ho hka := by
    rw [open_take h.sound.alternates (h.sound.not_open hb)] at ho
    rcases ho with rfl | ho
    · exact absurd hka hk
    · exact h.slot_of_open ho hka
  one := h.one

/-- While `k` is not busy every slot is free. -/
theorem slots_free (h : Deferred key k lost n slot l) (hb : busy key l k = false) {i : Nat}
    (hi : i < n) : slot i = none := by
  cases hs : slot i with
  | none => rfl
  | some a =>
      obtain ⟨ho, hka⟩ := h.open_of_slot hi hs
      have := (h.sound.busy_iff k).mpr ⟨a, ho, hka⟩
      rw [hb] at this
      cases this

/-- Taken and parked. -/
theorem park (h : Deferred key k lost n slot l) {a : α} (hb : busy key l (key a) = false)
    (hk : key a = k) {i : Nat} (hi : i < n) :
    Deferred key k lost n (Function.update slot i (some a)) (.take a :: l) := by
  have hfree : ∀ j < n, slot j = none := fun j hj => h.slots_free (hk ▸ hb) hj
  have hopen := open_take h.sound.alternates (h.sound.not_open hb)
  -- the only slot in use is the new one
  have honly : ∀ {j b}, j < n → Function.update slot i (some a) j = some b → j = i ∧ b = a := by
    intro j b hj hs
    by_cases hji : j = i
    · subst hji
      rw [Function.update_self] at hs
      exact ⟨rfl, (Option.some.inj hs).symm⟩
    · rw [Function.update_of_ne hji, hfree j hj] at hs
      cases hs
  refine ⟨h.sound.cons_take hb, ?_, ?_, ?_, ?_⟩
  · intro b ho
    rcases (hopen b).mp ho with rfl | ho
    · exact Or.inl hk
    · exact h.open_key ho
  · intro j b hj hs
    obtain ⟨-, rfl⟩ := honly hj hs
    exact ⟨(hopen b).mpr (Or.inl rfl), hk⟩
  · intro b ho hkb
    rcases (hopen b).mp ho with rfl | ho
    · exact ⟨i, hi, Function.update_self _ _ _⟩
    · obtain ⟨j, hj, hs⟩ := h.slot_of_open ho hkb
      rw [hfree j hj] at hs
      cases hs
  · intro j j' b b' hj hj' hs hs'
    exact (honly hj hs).1.trans (honly hj' hs').1.symm

/-- Given back from its slot. -/
theorem release (h : Deferred key k lost n slot l) {i : Nat} (hi : i < n) {a : α}
    (hs : slot i = some a) :
    Deferred key k lost n (Function.update slot i none) (.give a :: l) := by
  obtain ⟨ho, hka⟩ := h.open_of_slot hi hs
  have hempty : ∀ j < n, Function.update slot i none j = none := by
    intro j hj
    by_cases hji : j = i
    · rw [hji, Function.update_self]
    · rw [Function.update_of_ne hji]
      cases hs' : slot j with
      | none => rfl
      | some b => exact absurd (h.one hj hi hs' hs) hji
  refine ⟨h.sound.cons_give ho, ?_, ?_, ?_, ?_⟩
  · intro b hob
    exact h.open_key ((open_give ho b).mp hob).2
  · intro j b hj hs'
    rw [hempty j hj] at hs'
    cases hs'
  · intro b hob hkb
    obtain ⟨hne, hob⟩ := (open_give ho b).mp hob
    exact absurd (h.sound.apart hob ho (hkb.trans hka.symm)) hne
  · intro j j' b b' hj _ hs'
    rw [hempty j hj] at hs'
    cases hs'

end Deferred

end Ledger

end ArmHyp
