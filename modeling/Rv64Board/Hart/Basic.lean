import Rv64Board.Csr.File
import Rv64Board.Register

/-!
# The hart

The processor core without what it is connected to: registers, control and status registers, the
privilege level and the reservation of the last reserving load.
-/

namespace Rv64Board

/-- The state of the processor core. -/
structure Hart where
  registers : Registers
  csrs : CsrFile
  privilege : Privilege
  /-- The physical address that the last reserving load reserved. -/
  reservation : Option UInt64
  deriving DecidableEq

namespace Hart

/-- The state at reset: machine level, about to execute the instruction at an address. -/
def atReset (pc : UInt64) : Hart where
  registers := { Registers.cleared with pc }
  csrs := CsrFile.atReset
  privilege := .machine
  reservation := none

instance : Inhabited Hart := ⟨atReset 0⟩

/-- The address of the instruction to execute. -/
def pc (h : Hart) : UInt64 :=
  h.registers.pc

/-- The value of a register. -/
def get (h : Hart) (r : Reg) : UInt64 :=
  h.registers.get r

/-- The hart with a register changed. -/
def set (h : Hart) (r : Reg) (value : UInt64) : Hart :=
  { h with registers := h.registers.set r value }

/-- The hart about to execute the instruction at an address. -/
def jump (h : Hart) (target : UInt64) : Hart :=
  { h with registers := { h.registers with pc := target } }

/-- Some interrupt would be taken if it became pending. -/
def interruptsPossible (h : Hart) : Bool :=
  h.csrs.interruptsPossible h.privilege

end Hart

end Rv64Board
