import Mathlib.Data.Nat.Digits.Defs
import ArmHyp.System

/-!
# The bare-metal guest (`guest.c`, `guest_vectors.S`)

vCPU 1 runs `guest_entry_common`: it arms its virtual timer, unmasks
interrupts and idles, and `guest_irq_handler` counts the tick, re-arms and
tells EL2 with `HVC_IRQ_DONE`. `System` lets a guest leave anything in its
registers between two exceptions; here the code of guest B is what it
leaves. `GuestPc` is where B is, `guestExec` its next step, and a
`GuestEvent` is such a step, a virtual interrupt that B takes, or an
exception to EL2 by whichever guest is running. `timer_rearm` is two steps,
since EL2 can come between its two register writes.

What the EL1 entry, `GSAVE` and `GRESTORE` touch (the banked EL1 registers
and B's own stack) no function here reads, and it is left out.
-/

namespace ArmHyp

namespace Machine

/-! ## Console -/

/-- `guest_puts`: straight to `UART_DR`, with no `\r`. -/
def guestPuts (s : String) (m : Machine) : Machine :=
  { m with uart := m.uart ++ s.toUTF8.toList.map (·.toBitVec) }

/-- The bytes of `guest_put_dec`: the digits are collected least first and
sent in reverse. -/
def decBytes (v : BitVec 64) : List (BitVec 8) :=
  if v = 0 then [0x30]
  else ((Nat.digits 10 v.toNat).map fun d => BitVec.ofNat 8 (0x30 + d)).reverse

def guestPutDec (v : BitVec 64) (m : Machine) : Machine := { m with uart := m.uart ++ decBytes v }

/-! ## guest.c -/

/-- `*gs()`: the scheduler points `TPIDR_EL1` at the running guest's own
`guest_states[]` entry and no guest code moves it. -/
def gs (m : Machine) : GuestState := m.guestStates m.current

def setGs (g : GuestState) (m : Machine) : Machine :=
  { m with guestStates := Function.update m.guestStates m.current g }

/-- The byte at `VM_PRIVATE_IPA`, through the running VM's stage-2 tables. If
they do not map it, EL2 skips the load; all that depends on the byte is the
console line. -/
def privByte (m : Machine) : BitVec 8 :=
  match S2.walk (m.mrs .vtcrEl2) (m.mrs .vttbrEl2) m.mem privIpa.toNat with
  | .ok x => m.mem x.pa
  | .error _ => 0

/-- `guest_entry_common(id)` up to its `timer_rearm`. -/
def guestEntry (b : Build) (id : BitVec 64) (m : Machine) : Machine :=
  let m := m.setGs ⟨id.setWidth 32, 0, m.mrs .cntfrqEl0 / 10⟩
  let priv := m.privByte
  let m := m.msr .vbarEl1 b.guestVectorTableEl1
  let m := ((m.guestPuts "[guest ").uartPutc (0x41 + id.setWidth 8)).guestPuts "] booted, priv="
  let m := ((m.uartPutc priv).guestPuts ", cntfrq/10=").guestPutDec m.gs.tickPeriod
  m.uartPutc 0x0A

/-- `guest_irq_handler` up to its `timer_rearm`. -/
def guestTick (m : Machine) : Machine :=
  let m := m.setGs { m.gs with ticks := m.gs.ticks + 1 }
  let m := (m.guestPuts "[guest ").uartPutc (0x41 + m.gs.id.setWidth 8)
  ((m.guestPuts "] tick ").guestPutDec m.gs.ticks).uartPutc 0x0A

/-- The first write of `timer_rearm`: `write_cntv_cval`. -/
def rearmCval (m : Machine) : Machine := m.msr .cntvCvalEl0 (m.cntvct + m.gs.tickPeriod)

/-- The second: `write_cntv_ctl(1)`. -/
def rearmCtl (m : Machine) : Machine := m.msr .cntvCtlEl0 1

end Machine

/-! ## Guest B's program counter -/

/-- Where guest B is: just before the step the name says. -/
inductive GuestPc where
  -- guest_entry_common
  | entry | entryCval | entryCtl | entryDaif | idle
  -- guest_irq_handler
  | irqTick | irqCval | irqCtl | irqHvc | irqRet
deriving DecidableEq, Repr

/-- The states the timer is meant to run in: B has been through its first
`timer_rearm` and is not in `guest_irq_handler`. -/
def GuestPc.Outside (pc : GuestPc) : Prop := pc = .entryDaif ∨ pc = .idle

instance (pc : GuestPc) : Decidable pc.Outside := inferInstanceAs (Decidable (_ ∨ _))

/-- Where B's next step leads. The hypercall is not one of its own steps: it
leaves through an exception. -/
def GuestPc.next : GuestPc → Option GuestPc
  | .entry => some .entryCval
  | .entryCval => some .entryCtl
  | .entryCtl => some .entryDaif
  | .entryDaif => some .idle
  | .idle => some .idle
  | .irqTick => some .irqCval
  | .irqCval => some .irqCtl
  | .irqCtl => some .irqHvc
  | .irqHvc => none
  | .irqRet => some .idle

/-- What B's next step does. -/
def guestExec (b : Build) (m : Machine) : GuestPc → Machine
  | .entry => m.guestEntry b 1
  | .irqTick => m.guestTick
  | .entryCval | .irqCval => m.rearmCval
  | .entryCtl | .irqCtl => m.rearmCtl
  | .entryDaif | .idle | .irqHvc | .irqRet => m

/-! ## Interleavings -/

structure GuestSys where
  machine : Machine
  pc : GuestPc

inductive GuestEvent where
  /-- B's next step, with the counter at `now`. -/
  | run (now : BitVec 64)
  /-- B takes the virtual interrupt. -/
  | virq
  /-- An exception to EL2. -/
  | trap (t : Trap)

/-- The exception with which `guest_irq_handler` calls EL2. -/
def Trap.IsIrqDone (t : Trap) : Prop :=
  t.kind = .l64Sync ∧ esrEc t.esr = 0x16 ∧ t.gpr 0 = hvcIrqDone

instance (t : Trap) : Decidable t.IsIrqDone := inferInstanceAs (Decidable (_ ∧ _ ∧ _))

def guestStep (b : Build) (s : GuestSys) : GuestEvent → Option GuestSys
  | .run now =>
      if s.machine.current = 1 then
        s.pc.next.map fun pc => ⟨guestExec b (s.machine.msr .cntpctEl0 now) s.pc, pc⟩
      else none
  | .virq =>
      -- PSTATE.I is clear only in the idle loop
      if s.machine.current = 1 ∧ s.pc = .idle ∧ s.machine.mrs .hcrEl2 &&& hcrVi ≠ 0 then
        some { s with pc := .irqTick }
      else none
  | .trap t =>
      (step b s.machine t).map fun m =>
        ⟨m, if s.machine.current = 1 ∧ t.IsIrqDone then .irqRet else s.pc⟩

/-- What can trap to EL2 while B runs: its hypercall, where its code makes
it, and physical interrupts, INTID 27 only while its timer asserts it. Both
find the timer as B left it. Guest A may do anything. -/
def GuestOk (s : GuestSys) : GuestEvent → Prop
  | .trap t =>
      s.machine.current = 1 →
        t.guest .cntvCtlEl0 = s.machine.mrs .cntvCtlEl0
          ∧ t.guest .cntvCvalEl0 = s.machine.mrs .cntvCvalEl0
          ∧ (s.pc = .irqHvc ∧ t.IsIrqDone
            ∨ t.kind = .l64Irq
              ∧ (intidOf t.iar = irqVtimer → (s.machine.enter t).cntvFires = true))
  | _ => True

/-- B's timer expires between the re-arm in `guest_irq_handler` and the
hypercall that ends it. -/
def LateExpiry (s : GuestSys) : GuestEvent → Prop
  | .trap t =>
      s.machine.current = 1 ∧ s.pc = .irqHvc ∧ t.kind = .l64Irq ∧ intidOf t.iar = irqVtimer
  | _ => False

/-- After boot, with B not yet entered. -/
def GuestInit (b : Build) (s : GuestSys) : Prop := Booted b s.machine ∧ s.pc = .entry

/-- B's timer runs (in hardware if B is current, else in its saved context)
or its interrupt is pending. -/
def GuestSys.TimerAlive (s : GuestSys) : Prop :=
  (s.machine.ctxReg 1 .cntvCtlEl0).getLsbD 0 = true
    ∨ (s.machine.vgics 1).pendingMask.getLsbD irqVtimer.toNat = true

end ArmHyp
