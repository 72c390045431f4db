import Mathlib.Logic.Relation
import ArmHyp.HvfAbort

/-!
# The launcher over whole runs

Between two exits the framework lets the vCPU run by itself. `Vcpu` is what is
taken of it: the steps the vCPU can take without the launcher, instructions
and interrupts alike, with its IRQ input high or low, and the loads and stores
with which it accesses the PL011. On a machine that has a PL011 those are steps
like any other (`Bare`). Under the launcher they are exits, reported with a
syndrome or without, and between them come the exits that say nothing
(`Launched`); and `main` pends an IRQ before every run, which the framework
clears at every exit. As long as no access moves SP, the vCPU reaches under
the launcher what it reaches on the machine with its IRQ input held high
(`launcher_transparent`).
-/

namespace ArmHyp

namespace Hvf

open Relation

/-! ## The vCPU -/

/-- A vCPU. RAM is all that is mapped executable. -/
structure Vcpu where
  /-- A step by itself, with an IRQ pending or not. -/
  native : Bool → Host → Host → Prop
  /-- The instruction at the PC is the load or store `i`, of the PL011 at `ipa`. -/
  accesses : LdstInsn → BitVec 64 → Host → Prop
  stored : ∀ {i ipa h}, accesses i ipa h → StoredAt i h
  page : ∀ {i ipa h}, accesses i ipa h → inPl011Range ipa = true

/-- The syndrome of a data abort by `i`: of either class, and with the access
described only where the architecture has a description of it. -/
structure AbortOf (i : LdstInsn) (esr : BitVec 64) : Prop where
  ec : esr >>> 26 &&& 0x3f = 0x24 ∨ esr >>> 26 &&& 0x3f = 0x25
  iss : esr.getLsbD 24 = false ∨ SyndromeOf i.encode esr ∧ i.form.writeback = none

namespace Vcpu

variable (V : Vcpu)

/-- What `hv_vcpu_run` can return with in the state `h`, for a vCPU with no other
business with the host. -/
inductive Exits : Exit → Host → Prop
  | access {i : LdstInsn} {ipa esr : BitVec 64} {h : Host} :
      V.accesses i ipa h → AbortOf i esr → Exits (.exception esr ipa) h
  | vtimer (h : Host) : Exits .vtimerActivated h
  | canceled (h : Host) : Exits .canceled h

/-- The vCPU on a machine with a PL011, where its IRQ input is always high. -/
inductive Bare : Host → Host → Prop
  | native {h h' : Host} : V.native true h h' → Bare h h'
  | access {i : LdstInsn} {ipa : BitVec 64} {h : Host} :
      V.accesses i ipa h → Bare h (execLdst i ipa h)

/-- Where `main` is: at the head of its loop, or in `hv_vcpu_run`, with an IRQ
pending or not. -/
inductive At where
  | head (h : Host)
  | run (irq : Bool) (h : Host)

def At.host : At → Host
  | .head h => h
  | .run _ h => h

/-- The vCPU under the launcher. -/
inductive Launched : At → At → Prop
  /-- `hv_vcpu_set_pending_interrupt`, and into `hv_vcpu_run`. -/
  | enter (h : Host) : Launched (.head h) (.run true h)
  | native {irq : Bool} {h h' : Host} : V.native irq h h' → Launched (.run irq h) (.run irq h')
  | exit {irq : Bool} {e : Exit} {h h' : Host} :
      V.Exits e h → afterExit e h = some h' → Launched (.run irq h) (.head h')

end Vcpu

/-- The instruction does not move SP or, but for SP, load or store the register
it writes back. -/
structure Plain (i : LdstInsn) : Prop where
  sp : ¬ MovesSp i
  rt : i.form.writeback ≠ none → i.rt = i.rn → i.rn = 31

/-! ## One access -/

section Access

variable {i : LdstInsn} {esr ipa : BitVec 64} {h : Host}

theorem execLdst_of_not_movesSp (hsp : ¬ MovesSp i) :
    { execLdst i ipa h with sp := h.sp } = execLdst i ipa h := by
  rw [← (execLdst_sp_iff i ipa h).mpr hsp]

/-- An abort with a syndrome. -/
theorem afterExit_syndrome (hec : esr >>> 26 &&& 0x3f = 0x24 ∨ esr >>> 26 &&& 0x3f = 0x25)
    (hs : SyndromeOf i.encode esr) (hform : i.form.writeback = none)
    (hpage : inPl011Range ipa = true) :
    afterExit (.exception esr ipa) h = some (execLdst i ipa h) := by
  have hwb : i.decoded.writeback = false := by
    rw [LdstInsn.decoded, hform]
    rfl
  have hout : abortOutcome h (handleDataAbort esr ipa h)
      = (true, transfer i ((ipa - pl011Base).setWidth 32) h) := by
    rw [handleDataAbort_decoded (runDataAbort_isv ipa h hs.isv).2, hs.decoded_eq hform,
      finishAbort_rn hwb, finishAbort_decoded hform hpage]
  simp only [afterExit, if_pos hec]
  cases habort : handleDataAbort esr ipa h with
  | error err =>
      rw [habort] at hout
      cases hout
  | ok h' =>
      rw [habort] at hout
      obtain rfl : h' = transfer i ((ipa - pl011Base).setWidth 32) h := congrArg Prod.snd hout
      simp only [execLdst, hform, transfer_pc]

end Access

namespace Vcpu

variable {V : Vcpu}

/-- The launcher handles an access as the machine would. -/
theorem afterExit_access {i : LdstInsn} {ipa esr : BitVec 64} {h : Host}
    (ha : V.accesses i ipa h) (hi : Plain i) (hesr : AbortOf i esr) :
    afterExit (.exception esr ipa) h = some (execLdst i ipa h) := by
  obtain hisv | ⟨hs, hform⟩ := hesr.iss
  · obtain ⟨hlo, hhi, hst⟩ := V.stored ha
    have habort : Aborts i esr ipa h := ⟨hesr.ec, hisv, hlo, hhi, hst, V.page ha⟩
    rw [habort.afterExit_eq hi.rt, execLdst_of_not_movesSp hi.sp]
  · exact afterExit_syndrome hesr.ec hs hform (V.page ha)

section Turn

variable {h : Host} (hplain : ∀ i ipa, V.accesses i ipa h → Plain i)
include hplain

/-- What an exit does is a step of the machine, or none. -/
theorem Exits.bare {e : Exit} {h' : Host} (he : V.Exits e h) (hafter : afterExit e h = some h') :
    ReflTransGen V.Bare h h' := by
  cases he with
  | access ha hesr =>
      rw [afterExit_access ha (hplain _ _ ha) hesr, Option.some.injEq] at hafter
      subst hafter
      exact .single (.access ha)
  | vtimer =>
      rw [afterExit, Option.some.injEq] at hafter
      rw [hafter]
  | canceled =>
      rw [afterExit, Option.some.injEq] at hafter
      rw [hafter]

/-- A step of the machine, under the launcher. Every access can be reported:
without a syndrome, say. -/
theorem Bare.launched {h' : Host} (hb : V.Bare h h') :
    ReflTransGen V.Launched (.run true h) (.run true h') := by
  cases hb with
  | native hn => exact .single (.native hn)
  | access ha =>
      have hesr : ∀ i, AbortOf i 0x94000000 := fun _ => ⟨.inr (by decide), .inl (by decide)⟩
      have hexit : V.Launched (.run true h) _ :=
        .exit (.access ha (hesr _)) (afterExit_access ha (hplain _ _ ha) (hesr _))
      exact (ReflTransGen.single hexit).tail (.enter _)

end Turn

section Runs

variable {h : Host}
  (hplain : ∀ h', ReflTransGen V.Bare h h' → ∀ i ipa, V.accesses i ipa h' → Plain i)
include hplain

/-- Under the launcher the vCPU runs with an IRQ pending, and as the machine
does. -/
theorem Launched.reached {s : At} (hrun : ReflTransGen V.Launched (.head h) s) :
    ReflTransGen V.Bare h s.host ∧ ∀ irq h', s = .run irq h' → irq = true := by
  induction hrun with
  | refl => exact ⟨.refl, nofun⟩
  | tail _ hl ih =>
      obtain ⟨hbare, hirq⟩ := ih
      cases hl with
      | enter h' =>
          refine ⟨hbare, ?_⟩
          rintro irq h'' heq
          cases heq
          rfl
      | native hn =>
          obtain rfl := hirq _ _ rfl
          refine ⟨hbare.tail (.native hn), ?_⟩
          rintro irq h'' heq
          cases heq
          rfl
      | exit he hafter => exact ⟨hbare.trans (he.bare (hplain _ hbare) hafter), nofun⟩

theorem Bare.reached {h' : Host} (hrun : ReflTransGen V.Bare h h') :
    ReflTransGen V.Launched (.head h) (.run true h') := by
  induction hrun with
  | refl => exact .single (.enter h)
  | tail hpre hb ih => exact ih.trans (hb.launched (hplain _ hpre))

end Runs

end Vcpu

end Hvf

end ArmHyp
