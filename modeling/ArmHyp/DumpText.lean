import ArmHyp.ConsoleText
import ArmHyp.Exceptions

/-!
# The text of a crash dump

What `dump_and_halt` and `dump_exit_ring` put on the console, as text of what
they show: `lineText` is the line of one exit, `exitsText` the part on the exit
ring and `dumpText` the whole. A line shows the exception class of a record
and not the rest of its `ESR_EL2`.
-/

namespace ArmHyp

namespace Crash

open Machine Console

/-! ## The layout -/

/-- What a line of the exit ring shows of a record. -/
structure ExitLine where
  vcpu : BitVec 64
  kind : VecKind
  ec : BitVec 32
  elr : BitVec 64
  far : BitVec 64

/-- What a dump shows. -/
structure Dump where
  kind : VecKind
  esr : BitVec 64
  far : BitVec 64
  elr : BitVec 64
  spsr : BitVec 64
  /-- The number of exits so far and the newest of them, unless there was none. -/
  exits : Option (BitVec 64 × List ExitLine)

def exitLine (r : ExitRecord) : ExitLine where
  vcpu := BitVec.ofNat 64 r.vcpu
  kind := r.kind
  ec := esrEc r.esr
  elr := r.elr
  far := r.far

/-- `EC` in digits, and in words between `op` and `cl`. -/
def ecText (op cl : String) (ec : BitVec 32) : List (BitVec 8) :=
  hexText (ec.setWidth 64) ++ (text op ++ (text (ecName ec) ++ text cl))

def lineText (i : Nat) (l : ExitLine) : List (BitVec 8) :=
  text "  [" ++ (hexText (BitVec.ofNat 64 i) ++ (text "] v=" ++ (hexText l.vcpu
    ++ (text " kind=" ++ (text (vecName l.kind) ++ (text " EC=" ++ (ecText " (" ")" l.ec
    ++ (text " ELR=" ++ (hexText l.elr ++ (text " FAR=" ++ (hexText l.far ++ text "\n")))))))))))

def exitsText : Option (BitVec 64 × List ExitLine) → List (BitVec 8)
  | none => text "  (exit ring empty)\n"
  | some (total, ls) => text "\n--- last " ++ (hexText (BitVec.ofNat 64 ls.length)
      ++ (text " VM exits (newest first, of " ++ (hexText total ++ (text " total) ---\n"
      ++ (ls.zipIdx.flatMap fun l => lineText l.2 l.1)))))

def hexLine (label : String) (v : BitVec 64) : List (BitVec 8) :=
  text label ++ (hexText v ++ text "\n")

def dumpText (d : Dump) : List (BitVec 8) :=
  text "\n=== UNHANDLED EL2 EXCEPTION ===\n" ++ (text "  vector  : " ++ (text (vecName d.kind)
    ++ (text " (kind=" ++ (hexText d.kind.toBitVec ++ (text ")\n" ++ (hexLine "  ESR_EL2 : " d.esr
    ++ (text "    EC    : " ++ (ecText "  (" ")\n" (esrEc d.esr)
    ++ (hexLine "    ISS   : " (d.esr &&& 0x1ffffff) ++ (hexLine "  FAR_EL2 : " d.far
    ++ (hexLine "  ELR_EL2 : " d.elr ++ (hexLine "  SPSR_EL2: " d.spsr ++ (exitsText d.exits
    ++ text "===============================\nhalting.\n")))))))))))))

/-! ## The source prints that -/

section Prints

variable (m : Machine)

theorem putHexLine_text (label : String) (v : BitVec 64) :
    putHexLine label v m = m.withUart (· ++ hexLine label v) := by
  simp only [putHexLine, uartPuts_text, uartPutHex_text, withUart_withUart, hexLine,
    List.append_assoc]

theorem dumpRecord_text (i : Nat) (r : ExitRecord) :
    dumpRecord m i r = m.withUart (· ++ lineText i (exitLine r)) := by
  simp only [dumpRecord, uartPuts_text, uartPutHex_text, withUart_withUart, lineText, ecText,
    exitLine, List.append_assoc]

theorem dumpRecords_text (rs : List ExitRecord) (i : Nat) :
    (rs.zipIdx i).foldl (fun m ri => dumpRecord m ri.2 ri.1) m
      = m.withUart (· ++ ((rs.map exitLine).zipIdx i).flatMap fun l => lineText l.2 l.1) := by
  induction rs generalizing m i with
  | nil =>
      simp only [List.map_nil, List.zipIdx_nil, List.flatMap_nil, List.append_nil]
      rfl
  | cons r rs ih =>
      rw [List.zipIdx_cons, List.foldl_cons, ih, dumpRecord_text, withUart_withUart]
      simp only [List.map_cons, List.zipIdx_cons, List.flatMap_cons, List.append_assoc]

theorem length_exitRingWalk (ring : Nat → ExitRecord) (depth : Nat) (idx : BitVec 32) :
    (exitRingWalk ring depth idx).length = depth := by
  induction depth generalizing idx with
  | zero => rfl
  | succ depth ih => exact congrArg (· + 1) (ih _)

/-- What the ring holds for the dump. -/
def ringExits : Option (BitVec 64 × List ExitLine) :=
  if m.exitRingCount = 0 then none
  else some (m.exitRingCount, (exitRingListed m).map exitLine)

theorem dumpExitRing_text : dumpExitRing m = m.withUart (· ++ exitsText (ringExits m)) := by
  unfold dumpExitRing ringExits
  by_cases hzero : m.exitRingCount = 0
  · rw [if_pos hzero, if_pos hzero]
    exact uartPuts_text m _
  · have hlen : ((exitRingListed m).map exitLine).length = exitRingDepth m := by
      rw [List.length_map]
      exact length_exitRingWalk _ _ _
    rw [if_neg hzero, if_neg hzero]
    simp only [exitsText, hlen, dumpRecords_text, uartPuts_text, uartPutHex_text,
      withUart_withUart, List.append_assoc]
    rfl

/-- What `dump_and_halt` has to show. -/
def dumpOf (kind : VecKind) (esr : BitVec 64) : Dump where
  kind := kind
  esr := esr
  far := m.mrs .farEl2
  elr := m.tf.elrEl2
  spsr := m.tf.spsrEl2
  exits := ringExits m

theorem dumpAndHalt_text (kind : VecKind) (esr : BitVec 64) :
    dumpAndHalt kind esr m = .halt (m.withUart (· ++ dumpText (dumpOf m kind esr))) := by
  simp only [dumpAndHalt, putHexLine_text, dumpExitRing_text, uartPuts_text, uartPutHex_text,
    withUart_withUart, dumpText, ecText, dumpOf, List.append_assoc]
  rfl

end Prints

end Crash

end ArmHyp
