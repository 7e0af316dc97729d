import Rv64Board.Board.State
import Rv64Board.Hart.Arithmetic

/-!
# Executing an instruction

`Board.execute` carries out an instruction on a board, or raises the exception of the instruction.
Nothing takes back what an instruction has done before it raises an exception; each instruction is
written so that there is nothing to take back, accessed and dirty marks of page tables aside.
-/

namespace Rv64Board

/-- The hart may not use a supervisor instruction: it is at user level, or at supervisor level with
the instruction trapped by the status register. -/
def Hart.forbidden (h : Hart) (trapBit : UInt64) : Bool :=
  h.privilege = .user || (h.privilege = .supervisor && h.csrs.mstatus.test trapBit)

/-- What a CSR instruction writes. -/
def csrValue (op : CsrOp) (current operand : UInt64) : UInt64 :=
  match op with
  | .write => operand
  | .set => current ||| operand
  | .clear => current &&& ~~~operand

namespace Board

/-- Reads a control and status register into `rd`, and writes it back changed. Setting or clearing
bits without naming any does not count as a write. -/
def accessCsr (op : CsrOp) (rd : Reg) (csr : Csr) (operand : UInt64) (named : Bool)
    (raw : UInt32) : EStateM Exception Board Unit := do
  let h ← getHart
  let writes := op = .write || named
  match h.csrs.check csr h.privilege writes with
  | .error fault => throw (fault.exception raw)
  | .ok _ =>
    let old := h.csrs.read csr
    if writes then
      modifyHart fun h =>
        { h with csrs := h.csrs.write csr (csrValue op (h.csrs.modifiable csr) operand) }
    setRegister rd old

/-- A load that reserves its address. -/
def loadReserved (w : Width) (rd rs1 : Reg) : EStateM Exception Board Unit := do
  let h ← getHart
  let address := h.get rs1
  if w.aligned address then
    let physical ← onBus (h.translate .load address)
    let value ←
      onBus (EStateM.adaptExcept (fun _ => Exception.loadAccessFault address)
        (Bus.read physical w))
    modifyHart fun h => { h with reservation := some physical }
    setRegister rd (signExtend w value)
  else throw (.loadMisaligned address)

/-- A store that happens only if its address is reserved; either way the reservation is gone, and
`rd` tells what happened. -/
def storeConditional (w : Width) (rd rs1 rs2 : Reg) : EStateM Exception Board Unit := do
  let h ← getHart
  let address := h.get rs1
  let physical ← onBus (h.atomicAddress address w)
  let success := decide (h.reservation = some physical)
  if success then
    onBus (EStateM.adaptExcept (fun _ => Exception.storeAccessFault address)
      (Bus.write physical w (h.get rs2)))
  modifyHart fun h => { h with reservation := none }
  setRegister rd (ofCondition !success)

/-- Reads a value from memory into `rd` and stores an update of it. -/
def atomicUpdate (op : AmoOp) (kind : AmoKind) (rd rs1 rs2 : Reg) :
    EStateM Exception Board Unit := do
  let h ← getHart
  let address := h.get rs1
  let w := kind.width
  let physical ← onBus (h.atomicAddress address w)
  let fault := Exception.storeAccessFault address
  let value ← onBus (EStateM.adaptExcept (fun _ => fault) (Bus.read physical w))
  let old := signExtend w value
  onBus (EStateM.adaptExcept (fun _ => fault)
    (Bus.write physical w (op.eval kind old (h.get rs2))))
  setRegister rd old

/-- Executes an instruction of `len` bytes, decoded from the bits `raw`. -/
def execute (i : Instruction) (raw : UInt32) (len : UInt64) : EStateM Exception Board Unit := do
  let h ← getHart
  let next := h.pc + len
  let privileged := Exception.privilegedInstruction raw
  match i with
  | .lui rd imm =>
    setRegister rd (signExtend32 (imm <<< 12))
    jump next
  | .auipc rd imm =>
    setRegister rd (h.pc + signExtend32 (imm <<< 12))
    jump next
  | .jal rd offset =>
    setRegister rd next
    jump (h.pc + UInt64.ofInt offset)
  | .jalr rd rs1 offset =>
    setRegister rd next
    jump ((h.get rs1 + UInt64.ofInt offset) &&& ~~~1)
  | .branch cond rs1 rs2 offset =>
    if cond.holds (h.get rs1) (h.get rs2) then jump (h.pc + UInt64.ofInt offset) else jump next
  | .load kind rd rs1 offset =>
    let value ← onBus (h.load (h.get rs1 + UInt64.ofInt offset) kind.width.1)
    setRegister rd (kind.extend value)
    jump next
  | .store kind rs1 rs2 offset =>
    onBus (h.store (h.get rs1 + UInt64.ofInt offset) kind.width (h.get rs2))
    jump next
  | .opImm op rd rs1 imm =>
    setRegister rd (op.toRegOp.eval (h.get rs1) (UInt64.ofInt imm))
    jump next
  | .opReg op rd rs1 rs2 =>
    setRegister rd (op.eval (h.get rs1) (h.get rs2))
    jump next
  | .fence | .fenceI => jump next
  | .ecall => throw (.environmentCall h.privilege)
  | .ebreak => throw (.breakpoint h.pc)
  | .mret => if h.privilege < .machine then throw privileged else modifyHart Hart.mret
  | .sret => if h.forbidden Mstatus.tsr then throw privileged else modifyHart Hart.sret
  | .wfi => if h.forbidden Mstatus.tw then throw privileged else jump next
  | .sfenceVma _ _ => if h.forbidden Mstatus.tvm then throw privileged else jump next
  | .csrReg op rd csr rs1 =>
    accessCsr op rd csr (h.get rs1) (rs1 ≠ Reg.zero) raw
    jump next
  | .csrImm op rd csr uimm =>
    accessCsr op rd csr uimm.toUInt64 (uimm ≠ 0) raw
    jump next
  | .loadReserved kind rd rs1 =>
    loadReserved kind.width rd rs1
    jump next
  | .storeConditional kind rd rs1 rs2 =>
    storeConditional kind.width rd rs1 rs2
    jump next
  | .amo op kind rd rs1 rs2 =>
    atomicUpdate op kind rd rs1 rs2
    jump next

end Board

end Rv64Board
