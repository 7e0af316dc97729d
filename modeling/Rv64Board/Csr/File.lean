import Rv64Board.Csr.Basic
import Rv64Board.Csr.Status
import Rv64Board.Trap

/-!
# The CSR file

The state behind the control and status registers, and the rules of access to them.

* `CsrFile`: the stored values.
* `CsrFile.check`: whether a level may access a register, and if not, why.
* `CsrFile.read` and `CsrFile.write`: the value that software sees, and what remains of a value that
  it writes. Both are meant for accesses that have been checked; a register that does not exist
  reads as zero and is not written.
* `CsrFile.pending`: the pending interrupts, a union of what software set, what devices drive, and
  the timer comparator.
-/

namespace Rv64Board

/-- Why an access to a control and status register is refused. -/
inductive CsrFault
  /-- There is no such register, or it cannot be written. -/
  | illegal
  /-- The register needs a higher level, or is switched off for this one. -/
  | privileged
  deriving DecidableEq

/-- The exception that a refused access raises for an instruction. -/
def CsrFault.exception : CsrFault → UInt32 → Exception
  | .illegal, raw => .illegalInstruction raw
  | .privileged, raw => .privilegedInstruction raw

/-- The state of the control and status registers. -/
structure CsrFile where
  mstatus : Mstatus
  medeleg : UInt64
  mideleg : UInt64
  mie : UInt64
  /-- Pending bits set by software. -/
  mip : UInt64
  /-- Pending bits driven by devices, sampled at every step. -/
  hardwareMip : UInt64
  mtvec : UInt64
  stvec : UInt64
  mepc : UInt64
  sepc : UInt64
  mcause : UInt64
  scause : UInt64
  mtval : UInt64
  stval : UInt64
  mscratch : UInt64
  sscratch : UInt64
  mcounteren : UInt64
  scounteren : UInt64
  mcountinhibit : UInt64
  menvcfg : UInt64
  senvcfg : UInt64
  satp : UInt64
  stimecmp : UInt64
  mcycle : UInt64
  minstret : UInt64
  /-- The machine timer, sampled at every step. -/
  time : UInt64
  pmpcfg : Vector UInt64 16
  pmpaddr : Vector UInt64 64
  deriving DecidableEq

namespace CsrFile

/-- The file at reset: everything is zero, except that registers are 64 bits wide and the timer
comparator is out of reach. -/
def atReset : CsrFile where
  mstatus := Mstatus.atReset
  medeleg := 0
  mideleg := 0
  mie := 0
  mip := 0
  hardwareMip := 0
  mtvec := 0
  stvec := 0
  mepc := 0
  sepc := 0
  mcause := 0
  scause := 0
  mtval := 0
  stval := 0
  mscratch := 0
  sscratch := 0
  mcounteren := 0
  scounteren := 0
  mcountinhibit := 0
  menvcfg := 0
  senvcfg := 0
  satp := 0
  stimecmp := 0xFFFFFFFFFFFFFFFF
  mcycle := 0
  minstret := 0
  time := 0
  pmpcfg := Vector.replicate 16 0
  pmpaddr := Vector.replicate 64 0

instance : Inhabited CsrFile := ⟨atReset⟩

/-! ## Masks -/

/-- The pending bits that software may set. -/
def softwareInterrupts : UInt64 :=
  Interrupt.supervisorSoftware.mask ||| Interrupt.supervisorTimer.mask |||
    Interrupt.supervisorExternal.mask

/-- Every interrupt of the hart. -/
def allInterrupts : UInt64 :=
  softwareInterrupts ||| Interrupt.machineSoftware.mask ||| Interrupt.machineTimer.mask |||
    Interrupt.machineExternal.mask

/-- The exceptions that can be delegated: all but the call from machine level and unused codes. -/
def delegableExceptions : UInt64 := 0xB3FF

/-- The extensions of the hart: atomics, compressed, base, multiplication, supervisor and user. -/
def extensions : UInt64 := 0x8000000000141105

/-- The bit of `menvcfg` that gives the supervisor a timer comparator. -/
def timerEnable : UInt64 := 0x8000000000000000

/-- The one other bit of the environment registers. -/
def fenceOfDevices : UInt64 := 1

/-! ## Views -/

/-- The supervisor's timer comparator has been reached and is switched on. -/
def timerReached (f : CsrFile) : Bool :=
  f.menvcfg &&& timerEnable != 0 && f.stimecmp ≤ f.time

/-- The pending interrupts. -/
def pending (f : CsrFile) : UInt64 :=
  f.mip ||| f.hardwareMip ||| (if f.timerReached then Interrupt.supervisorTimer.mask else 0)

/-- Paging is on. -/
def sv39Enabled (f : CsrFile) : Bool :=
  f.satp >>> 60 == 8

/-- The page number of the root page table. -/
def rootPage (f : CsrFile) : UInt64 :=
  f.satp &&& 0xFFFFFFFFFFF

/-! ## Access rules -/

/-- A level may read one of the 32 counters when every level above it allows that. -/
def counterEnabled (f : CsrFile) (c : Csr) : Privilege → Bool
  | .machine => true
  | .supervisor => f.mcounteren &&& (1 <<< (c.number &&& 0x1F).toUInt64) != 0
  | .user =>
    f.mcounteren &&& (1 <<< (c.number &&& 0x1F).toUInt64) != 0 &&
      f.scounteren &&& (1 <<< (c.number &&& 0x1F).toUInt64) != 0

/-- The switches that hide a register from a level that could otherwise reach it. -/
def switchedOff (f : CsrFile) (c : Csr) (level : Privilege) : Bool :=
  if 0xC00 ≤ c.number ∧ c.number ≤ 0xC1F then !f.counterEnabled c level
  else if c = Csr.Register.stimecmp.csr then
    level < Privilege.machine && f.menvcfg &&& timerEnable == 0
  else if c = Csr.Register.satp.csr then
    level = Privilege.supervisor && f.mstatus.test Mstatus.tvm
  else false

/-- Whether a level may access a register. Of several reasons to refuse, the first in the order
existence, level, writability, switches is reported. -/
def check (f : CsrFile) (c : Csr) (level : Privilege) (write : Bool) : Except CsrFault Unit :=
  if c.register?.isNone then .error .illegal
  else if level < c.privilege then .error .privileged
  else if write && c.isReadOnly then .error .illegal
  else if f.switchedOff c level then .error .privileged
  else .ok ()

/-! ## Reading and writing -/

/-- The value of an existing register. -/
def readRegister (f : CsrFile) : Csr.Register → UInt64
  | .sstatus => f.mstatus.bits &&& Mstatus.supervisorView
  | .sie => f.mie &&& f.mideleg
  | .stvec => f.stvec
  | .scounteren => f.scounteren
  | .senvcfg => f.senvcfg
  | .sscratch => f.sscratch
  | .sepc => f.sepc
  | .scause => f.scause
  | .stval => f.stval
  | .sip => f.pending &&& f.mideleg
  | .stimecmp => f.stimecmp
  | .satp => f.satp
  | .mstatus => f.mstatus.bits
  | .misa => extensions
  | .medeleg => f.medeleg
  | .mideleg => f.mideleg
  | .mie => f.mie
  | .mtvec => f.mtvec
  | .mcounteren => f.mcounteren
  | .menvcfg => f.menvcfg
  | .mcountinhibit => f.mcountinhibit
  | .mscratch => f.mscratch
  | .mepc => f.mepc
  | .mcause => f.mcause
  | .mtval => f.mtval
  | .mip => f.pending
  | .mcycle | .cycle => f.mcycle
  | .minstret | .instret => f.minstret
  | .time => f.time
  | .member .pmpcfg i => f.pmpcfg.get i
  | .member .pmpaddr i => f.pmpaddr.get i
  | .member .mhpmevent _ | .member .mhpmcounter _ | .member .hpmcounter _ => 0
  | .mvendorid | .marchid | .mimpid | .mhartid | .mconfigptr => 0

/-- Takes the bits of a mask from a value and keeps the others. -/
def merged (old mask value : UInt64) : UInt64 :=
  (old &&& ~~~mask) ||| (value &&& mask)

/-- The status register after a write through `mstatus`. The stacked level can only be one that the
hart has: a write of the unused encoding leaves it as it was. -/
def mstatusWritten (old : Mstatus) (value : UInt64) : Mstatus :=
  let merged := old.merge Mstatus.writable value
  if (value >>> 11) &&& 3 = 2 then merged.setMpp old.mpp else merged

/-- The modes of paging that `satp` can hold: off and Sv39. -/
def supportedMode (value : UInt64) : Bool :=
  value >>> 60 == 0 || value >>> 60 == 8

/-- The file after a write to an existing register. -/
def writeRegister (f : CsrFile) (r : Csr.Register) (value : UInt64) : CsrFile :=
  match r with
  | .sstatus => { f with mstatus := f.mstatus.merge Mstatus.supervisorWritable value }
  | .sie => { f with mie := merged f.mie f.mideleg value }
  | .stvec => { f with stvec := value &&& ~~~2 }
  | .scounteren => { f with scounteren := value &&& 0xFFFFFFFF }
  | .senvcfg => { f with senvcfg := value &&& fenceOfDevices }
  | .sscratch => { f with sscratch := value }
  | .sepc => { f with sepc := value &&& ~~~1 }
  | .scause => { f with scause := value }
  | .stval => { f with stval := value }
  | .sip => { f with mip := merged f.mip (f.mideleg &&& Interrupt.supervisorSoftware.mask) value }
  | .stimecmp => { f with stimecmp := value }
  | .satp => if supportedMode value then { f with satp := value } else f
  | .mstatus => { f with mstatus := mstatusWritten f.mstatus value }
  | .medeleg => { f with medeleg := value &&& delegableExceptions }
  | .mideleg => { f with mideleg := value &&& softwareInterrupts }
  | .mie => { f with mie := value &&& allInterrupts }
  | .mtvec => { f with mtvec := value &&& ~~~2 }
  | .mcounteren => { f with mcounteren := value &&& 0xFFFFFFFF }
  | .menvcfg => { f with menvcfg := value &&& (timerEnable ||| fenceOfDevices) }
  | .mcountinhibit => { f with mcountinhibit := value &&& 5 }
  | .mscratch => { f with mscratch := value }
  | .mepc => { f with mepc := value &&& ~~~1 }
  | .mcause => { f with mcause := value }
  | .mtval => { f with mtval := value }
  | .mip => { f with mip := merged f.mip softwareInterrupts value }
  | .mcycle => { f with mcycle := value }
  | .minstret => { f with minstret := value }
  | .member .pmpcfg i => { f with pmpcfg := f.pmpcfg.set i.val value i.isLt }
  | .member .pmpaddr i =>
    { f with pmpaddr := f.pmpaddr.set i.val (value &&& 0x3FFFFFFFFFFFFF) i.isLt }
  | .misa | .cycle | .instret | .time => f
  | .member .mhpmevent _ | .member .mhpmcounter _ | .member .hpmcounter _ => f
  | .mvendorid | .marchid | .mimpid | .mhartid | .mconfigptr => f

/-- The value behind a register number. -/
def read (f : CsrFile) (c : Csr) : UInt64 :=
  match c.register? with
  | some r => f.readRegister r
  | none => 0

/-- The file after a write to a register number. -/
def write (f : CsrFile) (c : Csr) (value : UInt64) : CsrFile :=
  match c.register? with
  | some r => f.writeRegister r value
  | none => f

/-- What a read-modify-write of a register starts from. Of the pending bits it takes only those that
software set, so that bits driven by devices are not latched. -/
def modifiable (f : CsrFile) (c : Csr) : UInt64 :=
  if c = Csr.Register.mip.csr ∨ c = Csr.Register.sip.csr then f.mip else f.read c

/-! ## Interrupts -/

/-- The interrupts that machine level would take while the hart runs at a level. -/
def machineEnabled (f : CsrFile) (level : Privilege) : UInt64 :=
  if level < Privilege.machine ∨ f.mstatus.test Mstatus.mie then f.mie &&& ~~~f.mideleg else 0

/-- The delegated interrupts that supervisor level would take while the hart runs at a level. -/
def supervisorEnabled (f : CsrFile) (level : Privilege) : UInt64 :=
  if level < Privilege.supervisor ∨
      (level = Privilege.supervisor ∧ f.mstatus.test Mstatus.sie) then
    f.mie &&& f.mideleg
  else 0

/-- The interrupt to take now: those of machine level come before delegated ones. -/
def pendingInterrupt? (f : CsrFile) (level : Privilege) : Option Interrupt :=
  Interrupt.highest? (f.pending &&& f.machineEnabled level) <|>
    Interrupt.highest? (f.pending &&& f.supervisorEnabled level)

/-- Some interrupt would be taken at a level if it became pending. -/
def interruptsPossible (f : CsrFile) (level : Privilege) : Bool :=
  f.machineEnabled level ||| f.supervisorEnabled level != 0

end CsrFile

end Rv64Board
