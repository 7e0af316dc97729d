import Rv64Board.Csr.Basic
import Rv64Board.Register

/-!
# Instructions

The instructions of the hart: the 64-bit base set with multiplication and division, atomics, CSR
access and the privileged instructions. Compressed instructions have no constructors of their own,
since each of them stands for one of these.

Immediates and offsets are integers. An instruction may hold one that does not fit its field; it is
cut to the field when the instruction is encoded.
-/

namespace Rv64Board

/-- The conditions of a branch. -/
inductive BranchCond
  | eq | ne | lt | ge | ltu | geu
  deriving DecidableEq, Inhabited

/-- The sizes of a load, with the extension of what is loaded. -/
inductive LoadKind
  | b | h | w | d | bu | hu | wu
  deriving DecidableEq, Inhabited

/-- The sizes of a store. -/
inductive StoreKind
  | b | h | w | d
  deriving DecidableEq, Inhabited

/-- Operations on a register and an immediate. -/
inductive ImmOp
  | addi | slti | sltiu | xori | ori | andi | slli | srli | srai | addiw | slliw | srliw | sraiw
  deriving DecidableEq, Inhabited

/-- Operations on two registers. -/
inductive RegOp
  | add | sub | sll | slt | sltu | xor | srl | sra | or | and
  | mul | mulh | mulhsu | mulhu | div | divu | rem | remu
  | addw | subw | sllw | srlw | sraw | mulw | divw | divuw | remw | remuw
  deriving DecidableEq, Inhabited

/-- Operations of an atomic update. -/
inductive AmoOp
  | swap | add | xor | and | or | min | max | minu | maxu
  deriving DecidableEq, Inhabited

/-- The sizes of an atomic access. -/
inductive AmoKind
  | w | d
  deriving DecidableEq, Inhabited

/-- What a CSR instruction does with its operand: replace the value, set bits or clear bits. -/
inductive CsrOp
  | write | set | clear
  deriving DecidableEq, Inhabited

/-- An instruction. -/
inductive Instruction
  | lui (rd : Reg) (imm : UInt32)
  | auipc (rd : Reg) (imm : UInt32)
  | jal (rd : Reg) (offset : Int)
  | jalr (rd rs1 : Reg) (offset : Int)
  | branch (cond : BranchCond) (rs1 rs2 : Reg) (offset : Int)
  | load (kind : LoadKind) (rd rs1 : Reg) (offset : Int)
  | store (kind : StoreKind) (rs1 rs2 : Reg) (offset : Int)
  | opImm (op : ImmOp) (rd rs1 : Reg) (imm : Int)
  | opReg (op : RegOp) (rd rs1 rs2 : Reg)
  | fence
  | fenceI
  | ecall
  | ebreak
  | mret
  | sret
  | wfi
  | sfenceVma (rs1 rs2 : Reg)
  | csrReg (op : CsrOp) (rd : Reg) (csr : Csr) (rs1 : Reg)
  | csrImm (op : CsrOp) (rd : Reg) (csr : Csr) (uimm : UInt32)
  | loadReserved (kind : AmoKind) (rd rs1 : Reg)
  | storeConditional (kind : AmoKind) (rd rs1 rs2 : Reg)
  | amo (op : AmoOp) (kind : AmoKind) (rd rs1 rs2 : Reg)
  deriving DecidableEq, Inhabited

/-- Jumps and branches, the instructions that may move the program counter elsewhere than past
themselves without a change of level. -/
def Instruction.isControlTransfer : Instruction → Bool
  | .jal .. | .jalr .. | .branch .. => true
  | _ => false

end Rv64Board
