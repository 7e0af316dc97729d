import Rv64Board.Privilege
import Rv64Board.Text.Digits

/-!
# Traps

What can divert the hart from its program: an exception raised by an instruction, or an interrupt.

* `Exception`, with its cause code, the value it reports and its wording.
* `Interrupt`, with its code, its bit in the pending mask and the order of priority.
* `Trap`: either of the two, with the value written to the cause register.
* `Access`: the kinds of memory access, each with its own faults.
-/

namespace Rv64Board

/-- What an instruction may raise. -/
inductive Exception
  | instructionAccessFault (address : UInt64)
  | illegalInstruction (bits : UInt32)
  | privilegedInstruction (bits : UInt32)
  | breakpoint (address : UInt64)
  | loadMisaligned (address : UInt64)
  | loadAccessFault (address : UInt64)
  | storeMisaligned (address : UInt64)
  | storeAccessFault (address : UInt64)
  | environmentCall (level : Privilege)
  | instructionPageFault (address : UInt64)
  | loadPageFault (address : UInt64)
  | storePageFault (address : UInt64)
  deriving DecidableEq, Inhabited

namespace Exception

/-- The number of an exception in the cause register. An instruction used without the privilege it
needs is reported as an illegal one. -/
def code : Exception → UInt64
  | .instructionAccessFault _ => 1
  | .illegalInstruction _ | .privilegedInstruction _ => 2
  | .breakpoint _ => 3
  | .loadMisaligned _ => 4
  | .loadAccessFault _ => 5
  | .storeMisaligned _ => 6
  | .storeAccessFault _ => 7
  | .environmentCall .user => 8
  | .environmentCall .supervisor => 9
  | .environmentCall .machine => 11
  | .instructionPageFault _ => 12
  | .loadPageFault _ => 13
  | .storePageFault _ => 15

/-- What an exception reports beside its number: the address or the instruction at fault. -/
def value : Exception → UInt64
  | .illegalInstruction bits | .privilegedInstruction bits => bits.toUInt64
  | .environmentCall _ => 0
  | .instructionAccessFault a | .breakpoint a | .loadMisaligned a | .loadAccessFault a
  | .storeMisaligned a | .storeAccessFault a | .instructionPageFault a | .loadPageFault a
  | .storePageFault a => a

/-- The wording of an exception. -/
def message : Exception → String
  | .instructionAccessFault a => "instruction access fault at " ++ Text.hex a.toNat
  | .illegalInstruction bits => "illegal instruction " ++ Text.hexPadded 8 bits.toNat
  | .privilegedInstruction bits => "privileged instruction " ++ Text.hexPadded 8 bits.toNat
  | .breakpoint a => "breakpoint at " ++ Text.hex a.toNat
  | .loadMisaligned a => "misaligned load at " ++ Text.hex a.toNat
  | .loadAccessFault a => "load access fault at " ++ Text.hex a.toNat
  | .storeMisaligned a => "misaligned store at " ++ Text.hex a.toNat
  | .storeAccessFault a => "store access fault at " ++ Text.hex a.toNat
  | .environmentCall level => "environment call from " ++ level.letter ++ "-mode"
  | .instructionPageFault a => "instruction page fault at " ++ Text.hex a.toNat
  | .loadPageFault a => "load page fault at " ++ Text.hex a.toNat
  | .storePageFault a => "store page fault at " ++ Text.hex a.toNat

end Exception

/-- The interrupts of the hart. -/
inductive Interrupt
  | supervisorSoftware
  | machineSoftware
  | supervisorTimer
  | machineTimer
  | supervisorExternal
  | machineExternal
  deriving DecidableEq, Inhabited

namespace Interrupt

/-- The number of an interrupt in the cause register. -/
def code : Interrupt → UInt64
  | .supervisorSoftware => 1
  | .machineSoftware => 3
  | .supervisorTimer => 5
  | .machineTimer => 7
  | .supervisorExternal => 9
  | .machineExternal => 11

/-- The bit of an interrupt in the pending and enable masks. -/
def mask (i : Interrupt) : UInt64 :=
  1 <<< i.code

/-- The interrupts in decreasing order of priority. -/
def byPriority : List Interrupt :=
  [.machineExternal, .machineSoftware, .machineTimer,
    .supervisorExternal, .supervisorSoftware, .supervisorTimer]

/-- The interrupt of highest priority among those of a mask. -/
def highest? (pending : UInt64) : Option Interrupt :=
  byPriority.find? fun i => pending &&& i.mask != 0

/-- The wording of an interrupt. -/
def message : Interrupt → String
  | .supervisorSoftware => "supervisor software interrupt"
  | .machineSoftware => "machine software interrupt"
  | .supervisorTimer => "supervisor timer interrupt"
  | .machineTimer => "machine timer interrupt"
  | .supervisorExternal => "supervisor external interrupt"
  | .machineExternal => "machine external interrupt"

end Interrupt

/-- A diversion of the hart from its program. -/
inductive Trap
  | exception (e : Exception)
  | interrupt (i : Interrupt)
  deriving DecidableEq, Inhabited

namespace Trap

/-- The bit that tells interrupts from exceptions in the cause register. -/
def interruptFlag : UInt64 := 0x8000000000000000

/-- The number of a trap among those of its kind, which is its position in the delegation masks. -/
def code : Trap → UInt64
  | .exception e => e.code
  | .interrupt i => i.code

/-- The value written to the cause register. -/
def cause : Trap → UInt64
  | .exception e => e.code
  | .interrupt i => interruptFlag ||| i.code

/-- The value written beside the cause. -/
def value : Trap → UInt64
  | .exception e => e.value
  | .interrupt _ => 0

/-- The wording of a trap. -/
def message : Trap → String
  | .exception e => e.message
  | .interrupt i => i.message

end Trap

/-- What memory is accessed for. -/
inductive Access
  | fetch
  | load
  | store
  deriving DecidableEq, Inhabited

namespace Access

/-- The exception of an access that no memory or device answers. -/
def accessFault : Access → UInt64 → Exception
  | .fetch => .instructionAccessFault
  | .load => .loadAccessFault
  | .store => .storeAccessFault

/-- The exception of an access that paging refuses. -/
def pageFault : Access → UInt64 → Exception
  | .fetch => .instructionPageFault
  | .load => .loadPageFault
  | .store => .storePageFault

end Access

end Rv64Board
