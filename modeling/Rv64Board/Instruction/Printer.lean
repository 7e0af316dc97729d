import Rv64Board.Instruction.Basic

/-!
# Instructions as text

The assembly text of an instruction: the mnemonic, then the operands in the order of the assembler.
Immediates and offsets are written in decimal.
-/

namespace Rv64Board

def BranchCond.name : BranchCond → String
  | .eq => "eq"
  | .ne => "ne"
  | .lt => "lt"
  | .ge => "ge"
  | .ltu => "ltu"
  | .geu => "geu"

def LoadKind.name : LoadKind → String
  | .b => "b"
  | .h => "h"
  | .w => "w"
  | .d => "d"
  | .bu => "bu"
  | .hu => "hu"
  | .wu => "wu"

def StoreKind.name : StoreKind → String
  | .b => "b"
  | .h => "h"
  | .w => "w"
  | .d => "d"

def ImmOp.name : ImmOp → String
  | .addi => "addi"
  | .slti => "slti"
  | .sltiu => "sltiu"
  | .xori => "xori"
  | .ori => "ori"
  | .andi => "andi"
  | .slli => "slli"
  | .srli => "srli"
  | .srai => "srai"
  | .addiw => "addiw"
  | .slliw => "slliw"
  | .srliw => "srliw"
  | .sraiw => "sraiw"

def RegOp.name : RegOp → String
  | .add => "add"
  | .sub => "sub"
  | .sll => "sll"
  | .slt => "slt"
  | .sltu => "sltu"
  | .xor => "xor"
  | .srl => "srl"
  | .sra => "sra"
  | .or => "or"
  | .and => "and"
  | .mul => "mul"
  | .mulh => "mulh"
  | .mulhsu => "mulhsu"
  | .mulhu => "mulhu"
  | .div => "div"
  | .divu => "divu"
  | .rem => "rem"
  | .remu => "remu"
  | .addw => "addw"
  | .subw => "subw"
  | .sllw => "sllw"
  | .srlw => "srlw"
  | .sraw => "sraw"
  | .mulw => "mulw"
  | .divw => "divw"
  | .divuw => "divuw"
  | .remw => "remw"
  | .remuw => "remuw"

def AmoOp.name : AmoOp → String
  | .swap => "swap"
  | .add => "add"
  | .xor => "xor"
  | .and => "and"
  | .or => "or"
  | .min => "min"
  | .max => "max"
  | .minu => "minu"
  | .maxu => "maxu"

def AmoKind.name : AmoKind → String
  | .w => "w"
  | .d => "d"

/-- The letter that a CSR operation adds to the mnemonic. -/
def CsrOp.letter : CsrOp → String
  | .write => "w"
  | .set => "s"
  | .clear => "c"

namespace Instruction

/-- A mnemonic followed by its operands. -/
def line (mnemonic : String) (operands : List String) : String :=
  mnemonic ++ " " ++ ", ".intercalate operands

/-- An address operand: a register with an offset before it. -/
def indirect (offset : Int) (base : Reg) : String :=
  toString offset ++ "(" ++ base.name ++ ")"

/-- An address operand without an offset. -/
def atomicAddress (base : Reg) : String :=
  "(" ++ base.name ++ ")"

/-- The assembly text of an instruction. -/
def render : Instruction → String
  | .lui rd imm => line "lui" [rd.name, toString imm.toNat]
  | .auipc rd imm => line "auipc" [rd.name, toString imm.toNat]
  | .jal rd offset => line "jal" [rd.name, toString offset]
  | .jalr rd rs1 offset => line "jalr" [rd.name, indirect offset rs1]
  | .branch cond rs1 rs2 offset => line ("b" ++ cond.name) [rs1.name, rs2.name, toString offset]
  | .load kind rd rs1 offset => line ("l" ++ kind.name) [rd.name, indirect offset rs1]
  | .store kind rs1 rs2 offset => line ("s" ++ kind.name) [rs2.name, indirect offset rs1]
  | .opImm op rd rs1 imm => line op.name [rd.name, rs1.name, toString imm]
  | .opReg op rd rs1 rs2 => line op.name [rd.name, rs1.name, rs2.name]
  | .fence => "fence"
  | .fenceI => "fence.i"
  | .ecall => "ecall"
  | .ebreak => "ebreak"
  | .mret => "mret"
  | .sret => "sret"
  | .wfi => "wfi"
  | .sfenceVma rs1 rs2 => line "sfence.vma" [rs1.name, rs2.name]
  | .csrReg op rd csr rs1 => line ("csrr" ++ op.letter) [rd.name, csr.name, rs1.name]
  | .csrImm op rd csr uimm =>
    line ("csrr" ++ op.letter ++ "i") [rd.name, csr.name, toString uimm.toNat]
  | .loadReserved kind rd rs1 => line ("lr." ++ kind.name) [rd.name, atomicAddress rs1]
  | .storeConditional kind rd rs1 rs2 =>
    line ("sc." ++ kind.name) [rd.name, rs2.name, atomicAddress rs1]
  | .amo op kind rd rs1 rs2 =>
    line ("amo" ++ op.name ++ "." ++ kind.name) [rd.name, rs2.name, atomicAddress rs1]

end Instruction

end Rv64Board
