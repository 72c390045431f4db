import ArmHyp.Runs
import ArmHyp.Projection
import ArmHyp.Ledger
import ArmHyp.RingLog
import ArmHyp.Checked
import ArmHyp.Overlay
import ArmHyp.ByteMem
import ArmHyp.WrapMem
import ArmHyp.BitField
import ArmHyp.BitSet
import ArmHyp.MinSet
import ArmHyp.S2Walk
import ArmHyp.AsmLayout
import ArmHyp.AsmSource
import ArmHyp.Checkpoints
import ArmHyp.TextCode
import ArmHyp.AsmRun
import ArmHyp.VirtIf
import ArmHyp.Regs
import ArmHyp.PhysGic
import ArmHyp.Vgic
import ArmHyp.Stage2
import ArmHyp.Stage2Map
import ArmHyp.Machine
import ArmHyp.Vectors
import ArmHyp.GuestVectors
import ArmHyp.VgicSet
import ArmHyp.Sched
import ArmHyp.Gic
import ArmHyp.Exceptions
import ArmHyp.System
import ArmHyp.FrameEffects
import ArmHyp.Psci
import ArmHyp.HvcPuts
import ArmHyp.Distributor
import ArmHyp.LdstDecode
import ArmHyp.HvfHost
import ArmHyp.HvfExec
import ArmHyp.HvfAbort
import ArmHyp.HvfRun
import ArmHyp.ElfLoad
import ArmHyp.ElfBounds
import ArmHyp.ElfLoaded
import ArmHyp.Switch
import ArmHyp.Boot
import ArmHyp.FirstEntry
import ArmHyp.ContextSwitch
import ArmHyp.IrqCore
import ArmHyp.IrqLocal
import ArmHyp.DumpText
import ArmHyp.ExitRing
import ArmHyp.Footprint
import ArmHyp.TickLive
import ArmHyp.GicAccess
import ArmHyp.Passthrough
import ArmHyp.Ticks
import ArmHyp.TlbFlush
import ArmHyp.LocalView
import ArmHyp.TimerOwner
import ArmHyp.ViAgreement
import ArmHyp.EoiLedger
import ArmHyp.Discipline
import ArmHyp.EoiTaken
import ArmHyp.Delivery
import ArmHyp.Guest
import ArmHyp.GuestTimer
import ArmHyp.GuestTicks
import ArmHyp.GuestV3
import ArmHyp.GuestV3Run
import ArmHyp.GuestV3Main
import ArmHyp.GuestV3Bad
import ArmHyp.GuestV3Spurious
import ArmHyp.GicV3
import ArmHyp.SystemV3
import ArmHyp.VectorTable
import ArmHyp.BootStub
import ArmHyp.Stage2Live
import ArmHyp.Isolation
import ArmHyp.ConsoleText
import ArmHyp.CrashDump
import ArmHyp.UartDriver
import ArmHyp.SharedConsole
