import ArmHyp.Gic

/-!
# Exception dispatch (`exceptions.c`) and boot (`kmain.c`)

`handle_exception` with everything below it: the exit ring, PSCI, the
hypercalls, the WFI poll, stage-2 aborts and trapped system registers, and
the dump that ends an unhandled exception.
-/

namespace ArmHyp

open Machine

/-! ## Exit ring -/

def exitRingPush (kind : VecKind) (esr elr far : BitVec 64) (vcpu : Nat) (m : Machine) :
    Machine :=
  { m with
    exitRing := Function.update m.exitRing m.exitRingHead.toNat ⟨esr, elr, far, kind, vcpu⟩
    exitRingHead := (m.exitRingHead + 1) &&& (exitRingSize - 1)
    exitRingCount := m.exitRingCount + 1 }

def ecName (ec : BitVec 32) : String :=
  match ec.toNat with
  | 0x00 => "Unknown reason"
  | 0x01 => "Trapped WFI/WFE"
  | 0x07 => "SIMD/FP access trapped"
  | 0x15 => "SVC from AArch64"
  | 0x16 => "HVC from AArch64"
  | 0x17 => "SMC from AArch64"
  | 0x18 => "Trapped MSR/MRS/system"
  | 0x20 => "Instruction Abort, lower EL"
  | 0x21 => "Instruction Abort, same EL"
  | 0x22 => "PC alignment fault"
  | 0x24 => "Data Abort, lower EL"
  | 0x25 => "Data Abort, same EL"
  | 0x26 => "SP alignment fault"
  | 0x2f => "SError"
  | 0x30 => "HW Breakpoint, lower EL"
  | 0x31 => "HW Breakpoint, same EL"
  | 0x3c => "BRK instruction (AArch64)"
  | _ => "unknown EC"

def vecName : VecKind → String
  | .el2tSync => "EL2t sync"
  | .el2tIrq => "EL2t irq"
  | .el2tFiq => "EL2t fiq"
  | .el2tSerror => "EL2t serror"
  | .el2hSync => "EL2h sync"
  | .el2hIrq => "EL2h irq"
  | .el2hFiq => "EL2h fiq"
  | .el2hSerror => "EL2h serror"
  | .l64Sync => "Lower64 sync"
  | .l64Irq => "Lower64 irq"
  | .l64Fiq => "Lower64 fiq"
  | .l64Serror => "Lower64 serror"
  | .l32Sync => "Lower32 sync"
  | .l32Irq => "Lower32 irq"
  | .l32Fiq => "Lower32 fiq"
  | .l32Serror => "Lower32 serror"

/-- The vector number, as `VEC_ENTRY` passes it. -/
def VecKind.toBitVec (k : VecKind) : BitVec 64 := BitVec.ofNat 64 k.ctorIdx

/-- `(esr >> 26) & 0x3f`. -/
def esrEc (esr : BitVec 64) : BitVec 32 := (esr >>> 26 &&& 0x3f).setWidth 32

def putHexLine (label : String) (v : BitVec 64) (m : Machine) : Machine :=
  ((m.uartPuts label).uartPutHex v).uartPuts "\n"

/-- The records `dump_exit_ring` walks, newest first: `depth` slots
backwards from the one before `idx`. -/
def exitRingWalk (ring : Nat → ExitRecord) : Nat → BitVec 32 → List ExitRecord
  | 0, _ => []
  | depth + 1, idx =>
      let idx := (idx + exitRingSize - 1) &&& (exitRingSize - 1)
      ring idx.toNat :: exitRingWalk ring depth idx

/-- `min(total, EXIT_RING_SIZE)` as the source computes it. -/
def exitRingDepth (m : Machine) : Nat :=
  if m.exitRingCount < 32 then (m.exitRingCount.setWidth 32).toNat else 32

/-- What `dump_exit_ring` lists. -/
def exitRingListed (m : Machine) : List ExitRecord :=
  exitRingWalk m.exitRing (exitRingDepth m) m.exitRingHead

/-- One line of the dump. -/
def dumpRecord (m : Machine) (i : Nat) (r : ExitRecord) : Machine :=
  let ec := esrEc r.esr
  let m := (m.uartPuts "  [").uartPutHex (BitVec.ofNat 64 i)
  let m := (m.uartPuts "] v=").uartPutHex (BitVec.ofNat 64 r.vcpu)
  let m := (m.uartPuts " kind=").uartPuts (vecName r.kind)
  let m := (m.uartPuts " EC=").uartPutHex (ec.setWidth 64)
  let m := ((m.uartPuts " (").uartPuts (ecName ec)).uartPuts ")"
  let m := (m.uartPuts " ELR=").uartPutHex r.elr
  let m := (m.uartPuts " FAR=").uartPutHex r.far
  m.uartPuts "\n"

def dumpExitRing (m : Machine) : Machine :=
  if m.exitRingCount = 0 then m.uartPuts "  (exit ring empty)\n"
  else
    let listed := exitRingListed m
    let m := (m.uartPuts "\n--- last ").uartPutHex (BitVec.ofNat 64 (exitRingDepth m))
    let m := (m.uartPuts " VM exits (newest first, of ").uartPutHex m.exitRingCount
    let m := m.uartPuts " total) ---\n"
    listed.zipIdx.foldl (fun m ri => dumpRecord m ri.2 ri.1) m

def dumpAndHalt (kind : VecKind) (esr : BitVec 64) (m : Machine) : Outcome Machine :=
  let ec := esrEc esr
  let iss := esr &&& 0x1ffffff
  let m := m.uartPuts "\n=== UNHANDLED EL2 EXCEPTION ===\n"
  let m := (m.uartPuts "  vector  : ").uartPuts (vecName kind)
  let m := ((m.uartPuts " (kind=").uartPutHex kind.toBitVec).uartPuts ")\n"
  let m := putHexLine "  ESR_EL2 : " esr m
  let m := (m.uartPuts "    EC    : ").uartPutHex (ec.setWidth 64)
  let m := ((m.uartPuts "  (").uartPuts (ecName ec)).uartPuts ")\n"
  let m := putHexLine "    ISS   : " iss m
  let m := putHexLine "  FAR_EL2 : " (m.mrs .farEl2) m
  let m := putHexLine "  ELR_EL2 : " m.tf.elrEl2 m
  let m := putHexLine "  SPSR_EL2: " m.tf.spsrEl2 m
  let m := dumpExitRing m
  .halt (m.uartPuts "===============================\nhalting.\n")

/-! ## PSCI -/

def psciVersionFn : BitVec 32 := 0x84000000
def psciCpuOffFn : BitVec 32 := 0x84000002
def psciCpuOnFn32 : BitVec 32 := 0x84000003
def psciCpuOnFn64 : BitVec 32 := 0xC4000003
def psciAffinityInfo32 : BitVec 32 := 0x84000004
def psciAffinityInfo64 : BitVec 32 := 0xC4000004
def psciMigrateInfoType : BitVec 32 := 0x84000006
def psciSystemOffFn : BitVec 32 := 0x84000008
def psciSystemResetFn : BitVec 32 := 0x84000009
def psciFeaturesFn : BitVec 32 := 0x8400000A

def psciRetSuccess : BitVec 64 := 0
def psciRetNotSupported : BitVec 64 := -1

def isPsciFid (fid : BitVec 64) : Bool :=
  let high := (fid >>> 24).setWidth 32
  high = 0x84#32 || high = 0xC4#32

def psciHalt (why : String) (m : Machine) : Outcome Machine :=
  .halt (((m.uartPuts "  [PSCI] ").uartPuts why).uartPuts " — halting\n")

/-- The inner switch of `PSCI_FEATURES`. -/
def psciFeature (fn : BitVec 32) : BitVec 64 :=
  if fn = psciVersionFn ∨ fn = psciCpuOffFn ∨ fn = psciAffinityInfo32 ∨ fn = psciAffinityInfo64
      ∨ fn = psciMigrateInfoType ∨ fn = psciSystemOffFn ∨ fn = psciSystemResetFn
      ∨ fn = psciFeaturesFn then psciRetSuccess
  else psciRetNotSupported

def handlePsci (fid : BitVec 64) (m : Machine) : Outcome Machine :=
  let fn := fid.setWidth 32
  if fn = psciVersionFn then .ret (m.setX 0 0x00010000)
  else if fn = psciMigrateInfoType then .ret (m.setX 0 2)
  else if fn = psciAffinityInfo32 ∨ fn = psciAffinityInfo64 then
    .ret (m.setX 0 (if m.tf.x 1 = 0 then 0 else 1))
  else if fn = psciFeaturesFn then .ret (m.setX 0 (psciFeature ((m.tf.x 1).setWidth 32)))
  else if fn = psciCpuOffFn then psciHalt "guest CPU_OFF" m
  else if fn = psciSystemOffFn then psciHalt "guest SYSTEM_OFF" m
  else if fn = psciSystemResetFn then psciHalt "guest SYSTEM_RESET" m
  else if fn = psciCpuOnFn32 ∨ fn = psciCpuOnFn64 then .ret (m.setX 0 psciRetNotSupported)
  else .ret (m.setX 0 psciRetNotSupported)

/-! ## Hypercalls -/

def hvcPing : BitVec 64 := 0
def hvcPuts : BitVec 64 := 1
def hvcIrqDone : BitVec 64 := 2

/-- The NUL-terminated string at `p`, looking at `fuel` bytes at most; the
pointer wraps at `2^64`. -/
def cstrFrom (μ : Mem) : Nat → BitVec 64 → Option (List (BitVec 8))
  | 0, _ => none
  | fuel + 1, p =>
      let c := μ p.toNat
      if c = 0 then some [] else (cstrFrom μ fuel (p + 1)).map (c :: ·)

/-- The string at `p`; `none` if no address holds a NUL, in which case
`uart_puts` never stops. -/
def cstr (μ : Mem) (p : BitVec 64) : Option (List (BitVec 8)) := cstrFrom μ (2 ^ 64) p

def handleHvc (m : Machine) : Outcome Machine :=
  let num := m.tf.x 0
  if isPsciFid num then handlePsci num m
  else if num = hvcPing then .ret (m.setX 0 0)
  else if num = hvcPuts then
    let out := m.uartPuts "  [hypervisor relaying guest string] "
    match cstr m.mem (m.tf.x 1) with
    | some s => .ret ((out.uartPutBytes s).setX 0 0)
    | none => .halt out
  else if num = hvcIrqDone then .ret ((m.onVgic m.currentVcpu.id vgicAckAll).setX 0 0)
  else .ret (m.setX 0 (~~~0))

/-! ## WFI, aborts, system registers -/

/-- The five stores `handle_wfi` makes before it polls. -/
def wfiHeartbeat (m : Machine) : Machine :=
  let m := { m with imsc := 0x50 }
  let m := m.gicdW 0x104 (1#32 <<< (33 - 32))
  let m := m.gicdW 0x820 0x00010000
  let m := m.gicdW 0x420 0x00A00000
  m.gicdW 0x280 0x0000FFFF

/-- The poll of `handle_wfi`: acknowledge and forward SPI 33 if `GICC_HPPIR`
shows it and no deferred IAR is outstanding. -/
def wfiPoll (m : Machine) : Machine :=
  let hppir := m.gicc.hppir
  let id := m.currentVcpu.id
  if intidOf hppir = 33 ∧ vgicHasPendingPhysIar (m.vgics id) = false then
    let iar := m.gicc.iar
    let m := m.ackIar
    if intidOf iar = 33 then m.onVgic id (vgicForwardSpi 33 iar) else m
  else m

def handleWfi (m : Machine) : Machine := (wfiPoll (wfiHeartbeat m)).skipInsn

/-- The faulting IPA: `HPFAR_EL2.FIPA` with the page offset of `FAR_EL2`. -/
def faultIpa (far hpfar : BitVec 64) : BitVec 64 :=
  (hpfar &&& ~~~0xF) <<< 8 ||| far &&& 0xFFF

def handleStage2Abort (esr : BitVec 64) (m : Machine) : Machine :=
  let ipa := faultIpa (m.mrs .farEl2) (m.mrs .hpfarEl2)
  let iss := esr &&& 0x1ffffff
  if gicdEmuBase ≤ ipa ∧ ipa < giccEmuLimit then
    -- the result of `vgic_mmio` is ignored
    (vgicMmio ipa iss m).2.skipInsn
  else m.skipInsn

def handleSysreg (esr : BitVec 64) (m : Machine) : Machine :=
  let iss := (esr &&& 0x1ffffff).setWidth 32
  let rt := (iss >>> 5 &&& 0x1f).toNat
  let dir := iss &&& 1
  let m := if dir = 1 ∧ rt ≠ 31 then m.setX rt 0 else m
  m.skipInsn

/-! ## Dispatch -/

def handleException (b : Build) (kind : VecKind) (m : Machine) : Outcome Machine :=
  let esr := m.mrs .esrEl2
  let ec := esrEc esr
  let m := exitRingPush kind esr m.tf.elrEl2 (m.mrs .farEl2) m.currentVcpu.id m
  if kind = .l64Irq ∨ kind = .el2hIrq then .ret (gicHandlePhysicalIrq b m)
  else if kind = .l64Sync then
    if ec = 0x16 then handleHvc m
    else if ec = 0x01 then .ret (handleWfi m)
    else if ec = 0x18 then .ret (handleSysreg esr m)
    else if ec = 0x24 then .ret (handleStage2Abort esr m)
    else dumpAndHalt kind esr m
  else dumpAndHalt kind esr m

/-! ## Boot -/

def readCurrentEl (m : Machine) : BitVec 64 := m.mrs .currentEl

/-- `kmain`: `sched_start` never returns, so the result is the machine at
the `eret` into vCPU 0. -/
def kmain (b : Build) (m : Machine) : Outcome Machine :=
  -- of `uart_init` only the interrupt mask matters here
  let m := { m with imsc := 0 }
  let el := readCurrentEl m >>> 2 &&& 3
  let m := ((m.uartPuts "Hello from EL").uartPutc (0x30 + el.setWidth 8)).uartPuts "\n"
  (schedInit b (gicInitEl2 m)).andThen fun m => .ret (schedStart m)

end ArmHyp
