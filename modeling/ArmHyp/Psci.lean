import ArmHyp.FrameEffects

/-!
# PSCI calls and the upper half of a function identifier

`handle_hvc` classifies a call with `is_psci_fid`, which looks at bits 55:24
of `x0`, and `handle_psci` then switches on bits 31:0. Both are reduced to
one function here: `psciAnswer` is what `handle_psci` does with an
identifier and an argument, and `hvcAnswer` what `handle_hvc` does with a
64-bit `x0` whose low half is in the PSCI range. The calling convention says
that the upper half of `x0` (and of `x1`, for a 32-bit call) is not part of
the call, so two calls that differ only there should be answered alike.
-/

namespace ArmHyp

open Machine

/-! ## Answers -/

/-- `fn` is in the PSCI range: `0x84` or `0xC4` in bits 31:24. -/
def InPsciRange (fn : BitVec 32) : Prop := fn.extractLsb' 24 8 = 0x84 ∨ fn.extractLsb' 24 8 = 0xC4

instance psciRange_decidable (fn : BitVec 32) : Decidable (InPsciRange fn) :=
  inferInstanceAs (Decidable (_ ∨ _))

/-- Bits 55:32, the part of the upper half that `is_psci_fid` looks at. -/
def fidHigh (fid : BitVec 64) : BitVec 24 := fid.extractLsb' 32 24

theorem shifted_fid (fid : BitVec 64) :
    (fid >>> 24).setWidth 32 = fidHigh fid ++ (fid.setWidth 32).extractLsb' 24 8 := by
  apply BitVec.eq_of_getLsbD_eq
  intro i hi
  simp only [fidHigh, BitVec.getLsbD_setWidth, BitVec.getLsbD_ushiftRight, BitVec.getLsbD_append,
    BitVec.getLsbD_extractLsb', hi, decide_true, Bool.true_and]
  by_cases h8 : i < 8
  · have h32 : 24 + i < 32 := by omega
    simp [h8, h32]
  · have h24 : i - 8 < 24 := by omega
    have heq : 32 + (i - 8) = 24 + i := by omega
    simp [h8, h24, heq]

/-- In the PSCI range, `is_psci_fid` asks whether bits 55:32 are zero. -/
theorem isPsciFid_iff {fid : BitVec 64} (h : InPsciRange (fid.setWidth 32)) :
    isPsciFid fid = true ↔ fidHigh fid = 0 := by
  have hfields : ∀ b : BitVec 8, (fid >>> 24).setWidth 32 = 0#24 ++ b
      ↔ fidHigh fid = 0 ∧ (fid.setWidth 32).extractLsb' 24 8 = b := by
    intro b
    rw [shifted_fid]
    exact BitField.fields_inj
  simp only [isPsciFid, Bool.or_eq_true, decide_eq_true_eq]
  calc (fid >>> 24).setWidth 32 = 0#24 ++ 0x84#8 ∨ (fid >>> 24).setWidth 32 = 0#24 ++ 0xC4#8
      ↔ fidHigh fid = 0 ∧ InPsciRange (fid.setWidth 32) := by
        rw [hfields, hfields, ← and_or_left]
        rfl
    _ ↔ fidHigh fid = 0 := and_iff_left h

/-- What `handle_hvc` does with an identifier in the PSCI range. -/
def hvcAnswer (fid arg : BitVec 64) : PsciAnswer :=
  if fidHigh fid = 0 then psciAnswer (fid.setWidth 32) arg else .value psciRetNotSupported

/-- The hypercall numbers of this hypervisor are not in the PSCI range. -/
theorem InPsciRange.ne_hvc {fid n : BitVec 64} (h : InPsciRange (fid.setWidth 32))
    (hn : ¬ InPsciRange (n.setWidth 32)) : fid ≠ n := by
  rintro rfl
  exact hn h

theorem handleHvc_eq {m : Machine} (h : InPsciRange ((m.tf.x 0).setWidth 32)) :
    handleHvc m = (hvcAnswer (m.tf.x 0) (m.tf.x 1)).run m := by
  simp only [handleHvc, hvcAnswer, ← isPsciFid_iff h]
  by_cases hp : isPsciFid (m.tf.x 0) = true
  · rw [if_pos hp, if_pos hp, handlePsci_eq]
  · rw [if_neg hp, if_neg hp, if_neg (h.ne_hvc (by decide)), if_neg (h.ne_hvc (by decide)),
      if_neg (h.ne_hvc (by decide))]
    rfl

/-! ## The same call twice -/

/-- A hypercall with `fid` in `x0` and `arg` in `x1`. -/
def hvcCall (fid arg : BitVec 64) (m : Machine) : Outcome Machine :=
  handleHvc ((m.setX 0 fid).setX 1 arg)

/-- Two calls have the same effect: they return with the same `x0`, or halt,
and leave the same machine apart from the arguments in the frame. -/
def SameEffect : Outcome Machine → Outcome Machine → Prop
  | .ret m, .ret m' => m.setX 1 0 = m'.setX 1 0
  | .halt m, .halt m' => (m.setX 0 0).setX 1 0 = (m'.setX 0 0).setX 1 0
  | _, _ => False

theorem TrapFrame.setX_setX (tf : TrapFrame) (i : Nat) (v w : BitVec 64) :
    (tf.setX i v).setX i w = tf.setX i w := by
  simp only [setX, Function.update_idem]

theorem TrapFrame.setX_comm (tf : TrapFrame) {i j : Nat} (hi : i < 34) (hj : j < 34) (h : i ≠ j)
    (v w : BitVec 64) : (tf.setX i v).setX j w = (tf.setX j w).setX i v := by
  have hne : Fin.ofNat 34 i ≠ Fin.ofNat 34 j := by
    simp only [ne_eq, Fin.ext_iff, Fin.ofNat]
    omega
  simp only [setX, Function.update_comm hne]

/-- A call with its arguments overwritten. -/
theorem setX_hvcArgs (m : Machine) (fid arg v w : BitVec 64) :
    (((m.setX 0 fid).setX 1 arg).setX 0 v).setX 1 w = (m.setX 0 v).setX 1 w := by
  have hframe : (((m.tf.setX 0 fid).setX 1 arg).setX 0 v).setX 1 w
      = (m.tf.setX 0 v).setX 1 w := by
    rw [(m.tf.setX 0 fid).setX_comm (i := 1) (j := 0) (by decide) (by decide) (by decide),
      TrapFrame.setX_setX, TrapFrame.setX_setX]
  simp only [Machine.setX, hframe]

/-- The console does not see the frame. -/
theorem uartPuts_setX (s : String) (i : Nat) (v : BitVec 64) (m : Machine) :
    (m.setX i v).uartPuts s = (m.uartPuts s).setX i v := rfl

theorem hvcCall_eq {fid : BitVec 64} (h : InPsciRange (fid.setWidth 32)) (arg : BitVec 64)
    (m : Machine) : hvcCall fid arg m = (hvcAnswer fid arg).run ((m.setX 0 fid).setX 1 arg) := by
  have h0 : ((m.setX 0 fid).setX 1 arg).tf.x 0 = fid := rfl
  have h1 : ((m.setX 0 fid).setX 1 arg).tf.x 1 = arg := rfl
  rw [hvcCall, handleHvc_eq (by rw [h0]; exact h), h0, h1]

section SameEffect

variable (m : Machine) (fid fid' arg arg' : BitVec 64)

theorem sameEffect_value (v v' : BitVec 64) :
    SameEffect (PsciAnswer.run ((m.setX 0 fid).setX 1 arg) (.value v))
      (PsciAnswer.run ((m.setX 0 fid').setX 1 arg') (.value v')) ↔ v = v' := by
  simp only [PsciAnswer.run, SameEffect, setX_hvcArgs]
  constructor
  · intro h
    exact congrArg (fun m : Machine => m.tf.x 0) h
  · rintro rfl
    rfl

theorem sameEffect_stop (why : String) :
    SameEffect (PsciAnswer.run ((m.setX 0 fid).setX 1 arg) (.stop why))
      (PsciAnswer.run ((m.setX 0 fid').setX 1 arg') (.stop why)) := by
  -- the message goes to the console, whatever the frame holds
  simp only [PsciAnswer.run, psciHalt, SameEffect, uartPuts_setX, setX_hvcArgs]

theorem sameEffect_value_iff (x : PsciAnswer) (v : BitVec 64) :
    SameEffect (x.run ((m.setX 0 fid).setX 1 arg))
      (PsciAnswer.run ((m.setX 0 fid').setX 1 arg') (.value v)) ↔ x = .value v := by
  cases x with
  | value w => rw [sameEffect_value, PsciAnswer.value.injEq]
  | stop why => exact ⟨fun h => h.elim, fun h => absurd h (by simp)⟩

theorem sameEffect_refl (x : PsciAnswer) :
    SameEffect (x.run ((m.setX 0 fid).setX 1 arg)) (x.run ((m.setX 0 fid').setX 1 arg')) := by
  cases x with
  | value w => exact (sameEffect_value m fid fid' arg arg' w w).mpr rfl
  | stop why => exact sameEffect_stop m fid fid' arg arg' why

end SameEffect

theorem sameEffect_comm {o o' : Outcome Machine} : SameEffect o o' ↔ SameEffect o' o := by
  cases o <;> cases o'
  · exact eq_comm
  · exact Iff.rfl
  · exact Iff.rfl
  · exact eq_comm

/-- `arg'` is `arg` up to what the convention ignores: nothing for a 64-bit
call, the upper half for a 32-bit one (bit 30 clear). -/
def SameArg (fn : BitVec 32) (arg arg' : BitVec 64) : Prop :=
  arg = arg' ∨ fn.getLsbD 30 = false ∧ arg.setWidth 32 = arg'.setWidth 32

/-- EL2 answers the call with something other than "not supported": the
functions `PSCI_FEATURES` lists, and for `PSCI_FEATURES` itself a question
about one of them. -/
def PsciAnswered (fn : BitVec 32) (arg : BitVec 64) : Prop :=
  psciFeature fn = psciRetSuccess
    ∧ (fn = psciFeaturesFn → psciFeature (arg.setWidth 32) = psciRetSuccess)

theorem psciFeature_eq_success {fn : BitVec 32} :
    psciFeature fn = psciRetSuccess ↔
      fn = psciVersionFn ∨ fn = psciCpuOffFn ∨ fn = psciAffinityInfo32 ∨ fn = psciAffinityInfo64
        ∨ fn = psciMigrateInfoType ∨ fn = psciSystemOffFn ∨ fn = psciSystemResetFn
        ∨ fn = psciFeaturesFn := by
  unfold psciFeature
  split_ifs with h
  · exact iff_of_true rfl h
  · exact iff_of_false (by decide) h

theorem psciFeature_eq_notSupported {fn : BitVec 32} :
    psciFeature fn = psciRetNotSupported ↔ psciFeature fn ≠ psciRetSuccess := by
  unfold psciFeature
  split_ifs with h
  · decide
  · decide

/-- A function `PSCI_FEATURES` does not list is not supported. -/
theorem psciAnswer_of_unlisted {fn : BitVec 32} (h : psciFeature fn ≠ psciRetSuccess)
    (arg : BitVec 64) : psciAnswer fn arg = .value psciRetNotSupported := by
  rw [ne_eq, psciFeature_eq_success] at h
  simp only [not_or] at h
  simp only [psciAnswer, h, or_self, if_false]

theorem PsciAnswer.stop_ne {why : String} {v : BitVec 64} : stop why ≠ value v := by
  intro h
  cases h

theorem PsciAnswer.value_ne {v w : BitVec 64} (h : v ≠ w) : value v ≠ value w :=
  fun heq => h (PsciAnswer.value.inj heq)

/-- A listed function other than `PSCI_FEATURES` itself never is. -/
theorem psciAnswer_of_listed {fn : BitVec 32} (h : psciFeature fn = psciRetSuccess)
    (hfeat : fn ≠ psciFeaturesFn) (arg : BitVec 64) :
    psciAnswer fn arg ≠ .value psciRetNotSupported := by
  have hbit : (if arg = 0 then 0 else 1 : BitVec 64) ≠ psciRetNotSupported := by
    split_ifs <;> decide
  obtain rfl | rfl | rfl | rfl | rfl | rfl | rfl | rfl := psciFeature_eq_success.mp h
  · exact PsciAnswer.value_ne (v := 0x00010000) (by decide)
  · exact PsciAnswer.stop_ne
  · exact PsciAnswer.value_ne hbit
  · exact PsciAnswer.value_ne hbit
  · exact PsciAnswer.value_ne (v := 2) (by decide)
  · exact PsciAnswer.stop_ne
  · exact PsciAnswer.stop_ne
  · exact absurd rfl hfeat

theorem psciAnswer_eq_notSupported (fn : BitVec 32) (arg : BitVec 64) :
    psciAnswer fn arg = .value psciRetNotSupported ↔ ¬ PsciAnswered fn arg := by
  by_cases hlist : psciFeature fn = psciRetSuccess
  · by_cases hfeat : fn = psciFeaturesFn
    · subst hfeat
      have hval : psciAnswer psciFeaturesFn arg = .value (psciFeature (arg.setWidth 32)) := rfl
      rw [hval, PsciAnswer.value.injEq, psciFeature_eq_notSupported, PsciAnswered,
        and_iff_right hlist, forall_prop_of_true rfl]
    · exact iff_of_false (psciAnswer_of_listed hlist hfeat arg)
        (not_not_intro ⟨hlist, fun h => absurd h hfeat⟩)
  · exact iff_of_true (psciAnswer_of_unlisted hlist arg) fun h => hlist h.1

/-- Only `AFFINITY_INFO_32` sees the upper half of the argument of a 32-bit call. -/
theorem psciAnswer_congr {fn : BitVec 32} {arg arg' : BitVec 64} (h : SameArg fn arg arg') :
    psciAnswer fn arg = psciAnswer fn arg'
      ↔ (fn = psciAffinityInfo32 → (arg = 0 ↔ arg' = 0)) := by
  by_cases haff : fn = psciAffinityInfo32
  · subst haff
    have hans : ∀ arg, psciAnswer psciAffinityInfo32 arg = .value (if arg = 0 then 0 else 1) :=
      fun _ => rfl
    rw [hans, hans, PsciAnswer.value.injEq]
    split_ifs with h0 h0' h0'
    · exact iff_of_true rfl fun _ => iff_of_true h0 h0'
    · exact iff_of_false (by decide) fun h => h0' ((h rfl).mp h0)
    · exact iff_of_false (by decide) fun h => h0 ((h rfl).mpr h0')
    · exact iff_of_true rfl fun _ => iff_of_false h0 h0'
  · refine iff_of_true ?_ (fun h => absurd h haff)
    obtain rfl | ⟨h30, hlow⟩ := h
    · rfl
    · have h64 : fn ≠ psciAffinityInfo64 := by
        rintro rfl
        exact absurd h30 (by decide)
      simp only [psciAnswer, haff, h64, or_self, if_false, hlow]

/-! ## Upper halves -/

theorem PsciAnswered.congr {fn : BitVec 32} {arg arg' : BitVec 64} (h : SameArg fn arg arg') :
    PsciAnswered fn arg ↔ PsciAnswered fn arg' := by
  have hlow : arg.setWidth 32 = arg'.setWidth 32 := by
    obtain rfl | ⟨-, hlow⟩ := h
    · rfl
    · exact hlow
  rw [PsciAnswered, PsciAnswered, hlow]

theorem sameEffect_answer (m : Machine) {fid fid' arg arg' : BitVec 64}
    (harg : SameArg (fid.setWidth 32) arg arg') :
    SameEffect ((psciAnswer (fid.setWidth 32) arg).run ((m.setX 0 fid).setX 1 arg))
      ((psciAnswer (fid.setWidth 32) arg').run ((m.setX 0 fid').setX 1 arg'))
      ↔ (fid.setWidth 32 = psciAffinityInfo32 → (arg = 0 ↔ arg' = 0)) := by
  by_cases haff : fid.setWidth 32 = psciAffinityInfo32
  · have hval : psciAnswer (fid.setWidth 32) arg' = .value (if arg' = 0 then 0 else 1) := by
      rw [haff]
      rfl
    rw [← psciAnswer_congr harg, hval, sameEffect_value_iff]
  · refine iff_of_true ?_ fun h => absurd h haff
    rw [(psciAnswer_congr harg).mpr fun h => absurd h haff]
    exact sameEffect_refl m fid fid' arg arg' _

/-- **PSCI and the upper halves.** Two calls that differ only in what the
calling convention ignores have the same effect, except that:
`AFFINITY_INFO_32` compares all of `x1` with zero, and bits 55:32 of `x0`
turn a call that EL2 answers into an unknown hypercall. -/
theorem psci_upper_half_iff (m : Machine) (fid fid' arg arg' : BitVec 64)
    (hfid : fid.setWidth 32 = fid'.setWidth 32) (hrange : InPsciRange (fid.setWidth 32))
    (harg : SameArg (fid.setWidth 32) arg arg') :
    SameEffect (hvcCall fid arg m) (hvcCall fid' arg' m)
      ↔ (fidHigh fid = 0 → fidHigh fid' = 0 →
            fid.setWidth 32 = psciAffinityInfo32 → (arg = 0 ↔ arg' = 0))
        ∧ ((fidHigh fid = 0 ↔ fidHigh fid' ≠ 0) → ¬ PsciAnswered (fid.setWidth 32) arg) := by
  rw [hvcCall_eq hrange, hvcCall_eq (hfid ▸ hrange), hvcAnswer, hvcAnswer, ← hfid]
  by_cases hp : fidHigh fid = 0 <;> by_cases hp' : fidHigh fid' = 0
  · rw [if_pos hp, if_pos hp', sameEffect_answer m harg]
    exact ⟨fun h => ⟨fun _ _ => h, fun hx => absurd hp' (hx.mp hp)⟩, fun h => h.1 hp hp'⟩
  · rw [if_pos hp, if_neg hp', sameEffect_value_iff, psciAnswer_eq_notSupported]
    exact ⟨fun h => ⟨fun _ h' => absurd h' hp', fun _ => h⟩, fun h => h.2 (iff_of_true hp hp')⟩
  · rw [if_neg hp, if_pos hp', sameEffect_comm, sameEffect_value_iff, psciAnswer_eq_notSupported,
      ← PsciAnswered.congr harg]
    exact ⟨fun h => ⟨fun h' => absurd h' hp, fun _ => h⟩,
      fun h => h.2 (iff_of_false hp (not_not_intro hp'))⟩
  · rw [if_neg hp, if_neg hp']
    exact iff_of_true (sameEffect_refl m fid fid' arg arg' _)
      ⟨fun h => absurd h hp, fun hx => absurd (hx.mpr hp') hp⟩

theorem psci_upper_half_iff_features :
    SameEffect (hvcCall 0x8400000A 0x84000000 default) (hvcCall 0xAA0000008400000A
      0xFFFFFFFF84000000 default) :=
  (psci_upper_half_iff default 0x8400000A 0xAA0000008400000A 0x84000000 0xFFFFFFFF84000000
    (by decide) (by decide) (.inr ⟨by decide, by decide⟩)).mpr
    ⟨fun _ _ h => absurd h (by decide), fun h => absurd (h.mp (by decide)) (by decide)⟩

/-- `PSCI_VERSION` with bit 32 of `x0` set is an unknown hypercall, and bit 32
of `x1` decides what `AFFINITY_INFO_32` returns. -/
theorem psci_upper_half_differs :
    ((0x84000000 : BitVec 64).setWidth 32 = (0x184000000 : BitVec 64).setWidth 32
        ∧ InPsciRange ((0x84000000 : BitVec 64).setWidth 32)
        ∧ ¬ SameEffect (hvcCall 0x84000000 0 default) (hvcCall 0x184000000 0 default))
      ∧ (((0x84000004 : BitVec 64).setWidth 32).getLsbD 30 = false
        ∧ (0 : BitVec 64).setWidth 32 = (0x100000000 : BitVec 64).setWidth 32
        ∧ ¬ SameEffect (hvcCall 0x84000004 0 default)
            (hvcCall 0x84000004 0x100000000 default)) := by
  have hunknown : hvcAnswer 0x184000000 0 = .value psciRetNotSupported := by decide
  have hoff : hvcAnswer 0x84000004 0x100000000 = .value 1 := by decide
  rw [hvcCall_eq (by decide), hvcCall_eq (by decide), hvcCall_eq (by decide),
    hvcCall_eq (by decide), hunknown, hoff, sameEffect_value_iff, sameEffect_value_iff]
  exact ⟨⟨by decide, by decide, by decide⟩, by decide, by decide, by decide⟩

/-! ## PSCI_FEATURES -/

/-- The cases of the switch in `handle_psci`. -/
inductive PsciCase where
  | version | migrateInfoType | affinityInfo | features
  | cpuOff | systemOff | systemReset | cpuOn | unknown
deriving DecidableEq

/-- The case `handle_psci` jumps to. -/
def psciCase (fn : BitVec 32) : PsciCase :=
  if fn = psciVersionFn then .version
  else if fn = psciMigrateInfoType then .migrateInfoType
  else if fn = psciAffinityInfo32 ∨ fn = psciAffinityInfo64 then .affinityInfo
  else if fn = psciFeaturesFn then .features
  else if fn = psciCpuOffFn then .cpuOff
  else if fn = psciSystemOffFn then .systemOff
  else if fn = psciSystemResetFn then .systemReset
  else if fn = psciCpuOnFn32 ∨ fn = psciCpuOnFn64 then .cpuOn
  else .unknown

/-- The body of a case. -/
def PsciCase.run (m : Machine) : PsciCase → Outcome Machine
  | version => .ret (m.setX 0 0x00010000)
  | migrateInfoType => .ret (m.setX 0 2)
  | affinityInfo => .ret (m.setX 0 (if m.tf.x 1 = 0 then 0 else 1))
  | features => .ret (m.setX 0 (psciFeature ((m.tf.x 1).setWidth 32)))
  | cpuOff => psciHalt "guest CPU_OFF" m
  | systemOff => psciHalt "guest SYSTEM_OFF" m
  | systemReset => psciHalt "guest SYSTEM_RESET" m
  | cpuOn => .ret (m.setX 0 psciRetNotSupported)
  | unknown => .ret (m.setX 0 psciRetNotSupported)

theorem handlePsci_case (fid : BitVec 64) (m : Machine) :
    handlePsci fid m = (psciCase (fid.setWidth 32)).run m := by
  simp only [handlePsci, psciCase, apply_ite (PsciCase.run m)]
  rfl

/-- The body returns NOT_SUPPORTED, whatever the frame holds. -/
def PsciCase.NotSupported (c : PsciCase) : Prop :=
  ∀ m : Machine, c.run m = .ret (m.setX 0 psciRetNotSupported)

/-- The machine to tell a case from NOT_SUPPORTED: it asks `PSCI_FEATURES`
about `PSCI_VERSION`. -/
def askVersion : Machine := (default : Machine).setX 1 0x84000000

theorem PsciCase.notSupported_iff (c : PsciCase) : c.NotSupported ↔ c = .cpuOn ∨ c = .unknown := by
  constructor
  · intro h
    have hask := h askVersion
    -- what the call leaves in `x0`, if it returns
    have hx := congrArg (fun o => o.ret?.map fun m : Machine => m.tf.x 0) hask
    cases c with
    | cpuOn => exact Or.inl rfl
    | unknown => exact Or.inr rfl
    | cpuOff => cases hx
    | systemOff => cases hx
    | systemReset => cases hx
    | version => exact absurd hx (by decide)
    | migrateInfoType => exact absurd hx (by decide)
    | affinityInfo => exact absurd hx (by decide)
    | features => exact absurd hx (by decide)
  · rintro (rfl | rfl) m
    · rfl
    · rfl

/-- EL2 implements the call with identifier `fn`: whatever the other
registers hold, `handle_hvc` hands it to `handle_psci`, which reaches a case
other than those that return NOT_SUPPORTED. -/
def PsciImplemented (fn : BitVec 32) : Prop :=
  ∀ (m : Machine) (arg : BitVec 64), ∃ c : PsciCase, ¬ c.NotSupported ∧ psciCase fn = c
    ∧ hvcCall (fn.setWidth 64) arg m = c.run ((m.setX 0 (fn.setWidth 64)).setX 1 arg)

/-- The two switches list the same identifiers. -/
theorem psciCase_supported_iff (fn : BitVec 32) :
    ¬ (psciCase fn).NotSupported ↔ psciFeature fn = psciRetSuccess := by
  rw [PsciCase.notSupported_iff, psciFeature_eq_success]
  constructor
  · intro h
    by_contra hlist
    simp only [not_or] at hlist
    apply h
    simp only [psciCase, hlist, or_self, if_false]
    split
    · exact Or.inl rfl
    · exact Or.inr rfl
  · rintro (rfl | rfl | rfl | rfl | rfl | rfl | rfl | rfl) <;> decide

/-- The listed identifiers are in the range `is_psci_fid` accepts. -/
theorem isPsciFid_of_listed {fn : BitVec 32} (h : psciFeature fn = psciRetSuccess) :
    isPsciFid (fn.setWidth 64) = true := by
  obtain rfl | rfl | rfl | rfl | rfl | rfl | rfl | rfl := psciFeature_eq_success.mp h <;> decide

theorem psciImplemented_iff (fn : BitVec 32) :
    PsciImplemented fn ↔ psciFeature fn = psciRetSuccess := by
  constructor
  · intro h
    obtain ⟨c, hc, rfl, -⟩ := h default 0
    exact (psciCase_supported_iff fn).mp hc
  · intro h m arg
    refine ⟨psciCase fn, (psciCase_supported_iff fn).mpr h, rfl, ?_⟩
    have hx : ((m.setX 0 (fn.setWidth 64)).setX 1 arg).tf.x 0 = fn.setWidth 64 := rfl
    have hfid : handleHvc ((m.setX 0 (fn.setWidth 64)).setX 1 arg)
        = handlePsci (fn.setWidth 64) ((m.setX 0 (fn.setWidth 64)).setX 1 arg) :=
      if_pos (isPsciFid_of_listed h)
    have hlow : (fn.setWidth 64).setWidth 32 = fn := BitVec.setWidth_setWidth_of_le fn (by decide)
    rw [hvcCall, hfid, handlePsci_case, hlow]

/-- **PSCI_FEATURES tells the truth.** Asked about `fn`, it returns SUCCESS
exactly if EL2 implements `fn`, and NOT_SUPPORTED as a sign-extended 32-bit
`-1` otherwise. -/
theorem psci_features_truthful (m : Machine) (arg : BitVec 64) :
    ∃ m', hvcCall (psciFeaturesFn.setWidth 64) arg m = .ret m'
      ∧ (m'.tf.x 0 = psciRetSuccess ↔ PsciImplemented (arg.setWidth 32))
      ∧ (¬ PsciImplemented (arg.setWidth 32) → m'.tf.x 0 = (-1#32).signExtend 64) := by
  obtain ⟨c, -, rfl, hcall⟩ := (psciImplemented_iff psciFeaturesFn).mpr rfl m arg
  refine ⟨_, hcall, ?_, ?_⟩
  · rw [psciImplemented_iff]
    exact Iff.rfl
  · rw [psciImplemented_iff, ← ne_eq, ← psciFeature_eq_notSupported]
    exact fun h => h

end ArmHyp
