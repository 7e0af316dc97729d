import Rv64Board.Bits
import Rv64Board.Instruction.Basic
import Rv64Board.Trap

/-!
# The 32-bit encoding

Each 32-bit instruction is laid out in one of six formats. This module has both directions side by
side: `Instruction.encode` lays the fields down and `Instruction.decode?` picks them up.

* Every enumeration has a code (`funct3`, `funct7`, …) and a partial inverse of it.
* `decode?` is `none` on words that stand for no instruction of this hart.
* `fence` has many encodings, of which `encode` gives one; the ordering bits of atomics are ignored.
-/

namespace Rv64Board

open Bits

/-! ## Codes of the enumerations -/

def BranchCond.funct3 : BranchCond → Nat
  | .eq => 0
  | .ne => 1
  | .lt => 4
  | .ge => 5
  | .ltu => 6
  | .geu => 7

def BranchCond.ofFunct3? : Nat → Option BranchCond
  | 0 => some .eq
  | 1 => some .ne
  | 4 => some .lt
  | 5 => some .ge
  | 6 => some .ltu
  | 7 => some .geu
  | _ => none

def LoadKind.funct3 : LoadKind → Nat
  | .b => 0
  | .h => 1
  | .w => 2
  | .d => 3
  | .bu => 4
  | .hu => 5
  | .wu => 6

def LoadKind.ofFunct3? : Nat → Option LoadKind
  | 0 => some .b
  | 1 => some .h
  | 2 => some .w
  | 3 => some .d
  | 4 => some .bu
  | 5 => some .hu
  | 6 => some .wu
  | _ => none

def StoreKind.funct3 : StoreKind → Nat
  | .b => 0
  | .h => 1
  | .w => 2
  | .d => 3

def StoreKind.ofFunct3? : Nat → Option StoreKind
  | 0 => some .b
  | 1 => some .h
  | 2 => some .w
  | 3 => some .d
  | _ => none

def AmoKind.funct3 : AmoKind → Nat
  | .w => 2
  | .d => 3

def AmoKind.ofFunct3? : Nat → Option AmoKind
  | 2 => some .w
  | 3 => some .d
  | _ => none

def AmoOp.funct5 : AmoOp → Nat
  | .add => 0
  | .swap => 1
  | .xor => 4
  | .or => 8
  | .and => 12
  | .min => 16
  | .max => 20
  | .minu => 24
  | .maxu => 28

def AmoOp.ofFunct5? : Nat → Option AmoOp
  | 0 => some .add
  | 1 => some .swap
  | 4 => some .xor
  | 8 => some .or
  | 12 => some .and
  | 16 => some .min
  | 20 => some .max
  | 24 => some .minu
  | 28 => some .maxu
  | _ => none

/-- The low two bits of `funct3`; the third bit tells the immediate forms. -/
def CsrOp.funct2 : CsrOp → Nat
  | .write => 1
  | .set => 2
  | .clear => 3

def CsrOp.ofFunct2? : Nat → Option CsrOp
  | 1 => some .write
  | 2 => some .set
  | 3 => some .clear
  | _ => none

/-- Operations that work on the low half of their operands. -/
def ImmOp.isWord : ImmOp → Bool
  | .addiw | .slliw | .srliw | .sraiw => true
  | _ => false

def ImmOp.funct3 : ImmOp → Nat
  | .addi | .addiw => 0
  | .slli | .slliw => 1
  | .slti => 2
  | .sltiu => 3
  | .xori => 4
  | .srli | .srai | .srliw | .sraiw => 5
  | .ori => 6
  | .andi => 7

/-- The operation of an immediate instruction whose immediate is a plain number. -/
def ImmOp.plain? : Bool → Nat → Option ImmOp
  | false, 0 => some .addi
  | false, 2 => some .slti
  | false, 3 => some .sltiu
  | false, 4 => some .xori
  | false, 6 => some .ori
  | false, 7 => some .andi
  | true, 0 => some .addiw
  | _, _ => none

/-- The operation of a shift by a 6-bit amount, told by the six bits above the amount. -/
def ImmOp.shift? : Nat → Nat → Option ImmOp
  | 1, 0 => some .slli
  | 5, 0 => some .srli
  | 5, 16 => some .srai
  | _, _ => none

/-- The operation of a shift of a word by a 5-bit amount, told by the seven bits above the
amount. -/
def ImmOp.wordShift? : Nat → Nat → Option ImmOp
  | 1, 0 => some .slliw
  | 5, 0 => some .srliw
  | 5, 32 => some .sraiw
  | _, _ => none

/-- Operations that work on the low half of their operands. -/
def RegOp.isWord : RegOp → Bool
  | .addw | .subw | .sllw | .srlw | .sraw | .mulw | .divw | .divuw | .remw | .remuw => true
  | _ => false

def RegOp.funct3 : RegOp → Nat
  | .add | .sub | .mul | .addw | .subw | .mulw => 0
  | .sll | .mulh | .sllw => 1
  | .slt | .mulhsu => 2
  | .sltu | .mulhu => 3
  | .xor | .div | .divw => 4
  | .srl | .sra | .divu | .srlw | .sraw | .divuw => 5
  | .or | .rem | .remw => 6
  | .and | .remu | .remuw => 7

def RegOp.funct7 : RegOp → Nat
  | .sub | .sra | .subw | .sraw => 0x20
  | .mul | .mulh | .mulhsu | .mulhu | .div | .divu | .rem | .remu => 1
  | .mulw | .divw | .divuw | .remw | .remuw => 1
  | _ => 0

/-- The operation on full registers with given codes. -/
def RegOp.double? : Nat → Nat → Option RegOp
  | 0, 0 => some .add
  | 0, 0x20 => some .sub
  | 1, 0 => some .sll
  | 2, 0 => some .slt
  | 3, 0 => some .sltu
  | 4, 0 => some .xor
  | 5, 0 => some .srl
  | 5, 0x20 => some .sra
  | 6, 0 => some .or
  | 7, 0 => some .and
  | 0, 1 => some .mul
  | 1, 1 => some .mulh
  | 2, 1 => some .mulhsu
  | 3, 1 => some .mulhu
  | 4, 1 => some .div
  | 5, 1 => some .divu
  | 6, 1 => some .rem
  | 7, 1 => some .remu
  | _, _ => none

/-- The operation on the low halves of registers with given codes. -/
def RegOp.word? : Nat → Nat → Option RegOp
  | 0, 0 => some .addw
  | 0, 0x20 => some .subw
  | 1, 0 => some .sllw
  | 5, 0 => some .srlw
  | 5, 0x20 => some .sraw
  | 0, 1 => some .mulw
  | 4, 1 => some .divw
  | 5, 1 => some .divuw
  | 6, 1 => some .remw
  | 7, 1 => some .remuw
  | _, _ => none

/-- The major opcodes. -/
inductive Opcode
  | lui | auipc | jal | jalr | branch | load | store | opImm | opImm32 | op | op32 | miscMem
  | system | amo
  deriving DecidableEq

def Opcode.bits : Opcode → Nat
  | .lui => 0x37
  | .auipc => 0x17
  | .jal => 0x6F
  | .jalr => 0x67
  | .branch => 0x63
  | .load => 0x03
  | .store => 0x23
  | .opImm => 0x13
  | .opImm32 => 0x1B
  | .op => 0x33
  | .op32 => 0x3B
  | .miscMem => 0x0F
  | .system => 0x73
  | .amo => 0x2F

def Opcode.ofBits? : Nat → Option Opcode
  | 0x37 => some .lui
  | 0x17 => some .auipc
  | 0x6F => some .jal
  | 0x67 => some .jalr
  | 0x63 => some .branch
  | 0x03 => some .load
  | 0x23 => some .store
  | 0x13 => some .opImm
  | 0x1B => some .opImm32
  | 0x33 => some .op
  | 0x3B => some .op32
  | 0x0F => some .miscMem
  | 0x73 => some .system
  | 0x2F => some .amo
  | _ => none

namespace Instruction

/-! ## Laying fields down -/

/-- Three registers and two function codes. -/
def rType (opcode : Opcode) (rd : Reg) (funct3 : Nat) (rs1 rs2 : Reg) (funct7 : Nat) : UInt32 :=
  UInt32.ofNat (opcode.bits + rd.index.val <<< 7 + funct3 <<< 12 + rs1.index.val <<< 15 +
    rs2.index.val <<< 20 + funct7 <<< 25)

/-- Two registers and a 12-bit immediate. -/
def iType (opcode : Opcode) (rd : Reg) (funct3 : Nat) (rs1 : Reg) (imm : Int) : UInt32 :=
  UInt32.ofNat (opcode.bits + rd.index.val <<< 7 + funct3 <<< 12 + rs1.index.val <<< 15 +
    slice imm 0 12 <<< 20)

/-- Two registers to read and a 12-bit immediate in two parts. -/
def sType (opcode : Opcode) (funct3 : Nat) (rs1 rs2 : Reg) (imm : Int) : UInt32 :=
  UInt32.ofNat (opcode.bits + slice imm 0 5 <<< 7 + funct3 <<< 12 + rs1.index.val <<< 15 +
    rs2.index.val <<< 20 + slice imm 5 7 <<< 25)

/-- Two registers to read and an even 13-bit offset in four parts. -/
def bType (opcode : Opcode) (funct3 : Nat) (rs1 rs2 : Reg) (offset : Int) : UInt32 :=
  UInt32.ofNat (opcode.bits + slice offset 11 1 <<< 7 + slice offset 1 4 <<< 8 + funct3 <<< 12 +
    rs1.index.val <<< 15 + rs2.index.val <<< 20 + slice offset 5 6 <<< 25 +
    slice offset 12 1 <<< 31)

/-- One register and a 20-bit immediate. -/
def uType (opcode : Opcode) (rd : Reg) (imm : UInt32) : UInt32 :=
  UInt32.ofNat (opcode.bits + rd.index.val <<< 7 + field imm.toNat 0 20 <<< 12)

/-- One register and an even 21-bit offset in four parts. -/
def jType (opcode : Opcode) (rd : Reg) (offset : Int) : UInt32 :=
  UInt32.ofNat (opcode.bits + rd.index.val <<< 7 + slice offset 12 8 <<< 12 +
    slice offset 11 1 <<< 20 + slice offset 1 10 <<< 21 + slice offset 20 1 <<< 31)

/-- The words of the instructions without operands. -/
def fenceWord : UInt32 := 0x0FF0000F
def fenceIWord : UInt32 := 0x0000100F
def ecallWord : UInt32 := 0x00000073
def ebreakWord : UInt32 := 0x00100073
def sretWord : UInt32 := 0x10200073
def mretWord : UInt32 := 0x30200073
def wfiWord : UInt32 := 0x10500073

/-- The immediate field of an operation: arithmetic right shifts carry a mark above the amount. -/
def immField : ImmOp → Int → Int
  | .srai, imm | .sraiw, imm => slice imm 0 6 + 0x400
  | _, imm => imm

/-- The 32-bit word of an instruction. -/
def encode : Instruction → UInt32
  | .lui rd imm => uType .lui rd imm
  | .auipc rd imm => uType .auipc rd imm
  | .jal rd offset => jType .jal rd offset
  | .jalr rd rs1 offset => iType .jalr rd 0 rs1 offset
  | .branch cond rs1 rs2 offset => bType .branch cond.funct3 rs1 rs2 offset
  | .load kind rd rs1 offset => iType .load rd kind.funct3 rs1 offset
  | .store kind rs1 rs2 offset => sType .store kind.funct3 rs1 rs2 offset
  | .opImm op rd rs1 imm =>
    iType (if op.isWord then .opImm32 else .opImm) rd op.funct3 rs1 (immField op imm)
  | .opReg op rd rs1 rs2 =>
    rType (if op.isWord then .op32 else .op) rd op.funct3 rs1 rs2 op.funct7
  | .fence => fenceWord
  | .fenceI => fenceIWord
  | .ecall => ecallWord
  | .ebreak => ebreakWord
  | .mret => mretWord
  | .sret => sretWord
  | .wfi => wfiWord
  | .sfenceVma rs1 rs2 => rType .system Reg.zero 0 rs1 rs2 9
  | .csrReg op rd csr rs1 => iType .system rd op.funct2 rs1 csr.number.toNat
  | .csrImm op rd csr uimm =>
    iType .system rd (op.funct2 + 4) (Reg.ofNat uimm.toNat) csr.number.toNat
  | .loadReserved kind rd rs1 => rType .amo rd kind.funct3 rs1 Reg.zero (2 <<< 2)
  | .storeConditional kind rd rs1 rs2 => rType .amo rd kind.funct3 rs1 rs2 (3 <<< 2)
  | .amo op kind rd rs1 rs2 => rType .amo rd kind.funct3 rs1 rs2 (op.funct5 <<< 2)

/-! ## Picking fields up -/

def rdOf (n : Nat) : Reg := Reg.ofNat (field n 7 5)
def rs1Of (n : Nat) : Reg := Reg.ofNat (field n 15 5)
def rs2Of (n : Nat) : Reg := Reg.ofNat (field n 20 5)
def funct3Of (n : Nat) : Nat := field n 12 3
def funct7Of (n : Nat) : Nat := field n 25 7

def immI (n : Nat) : Int :=
  signed 12 (field n 20 12)

def immS (n : Nat) : Int :=
  signed 12 (field n 7 5 + field n 25 7 <<< 5)

def immB (n : Nat) : Int :=
  signed 13 (field n 8 4 <<< 1 + field n 25 6 <<< 5 + field n 7 1 <<< 11 + field n 31 1 <<< 12)

def immU (n : Nat) : UInt32 :=
  UInt32.ofNat (field n 12 20)

def immJ (n : Nat) : Int :=
  signed 21 (field n 21 10 <<< 1 + field n 20 1 <<< 11 + field n 12 8 <<< 12 + field n 31 1 <<< 20)

/-- Operations with an immediate on full registers. -/
def decodeOpImm? (n : Nat) : Option Instruction :=
  match funct3Of n with
  | 1 | 5 =>
    (ImmOp.shift? (funct3Of n) (field n 26 6)).map fun op =>
      .opImm op (rdOf n) (rs1Of n) (field n 20 6)
  | f => (ImmOp.plain? false f).map fun op => .opImm op (rdOf n) (rs1Of n) (immI n)

/-- Operations with an immediate on the low halves of registers. -/
def decodeOpImm32? (n : Nat) : Option Instruction :=
  match funct3Of n with
  | 1 | 5 =>
    (ImmOp.wordShift? (funct3Of n) (funct7Of n)).map fun op =>
      .opImm op (rdOf n) (rs1Of n) (field n 20 5)
  | f => (ImmOp.plain? true f).map fun op => .opImm op (rdOf n) (rs1Of n) (immI n)

/-- CSR accesses and the privileged instructions. -/
def decodeSystem? (w : UInt32) : Option Instruction :=
  let n := w.toNat
  if funct3Of n = 0 then
    if w = ecallWord then some .ecall
    else if w = ebreakWord then some .ebreak
    else if w = sretWord then some .sret
    else if w = mretWord then some .mret
    else if w = wfiWord then some .wfi
    else if funct7Of n = 9 ∧ rdOf n = Reg.zero then some (.sfenceVma (rs1Of n) (rs2Of n))
    else none
  else
    (CsrOp.ofFunct2? (field n 12 2)).map fun op =>
      let csr : Csr := ⟨UInt16.ofNat (field n 20 12)⟩
      if field n 14 1 = 0 then .csrReg op (rdOf n) csr (rs1Of n)
      else .csrImm op (rdOf n) csr (UInt32.ofNat (field n 15 5))

/-- Atomic accesses. -/
def decodeAmo? (n : Nat) : Option Instruction :=
  match AmoKind.ofFunct3? (funct3Of n) with
  | none => none
  | some kind =>
    match field n 27 5 with
    | 2 => if rs2Of n = Reg.zero then some (.loadReserved kind (rdOf n) (rs1Of n)) else none
    | 3 => some (.storeConditional kind (rdOf n) (rs1Of n) (rs2Of n))
    | f => (AmoOp.ofFunct5? f).map fun op => .amo op kind (rdOf n) (rs1Of n) (rs2Of n)

/-- The instruction of a 32-bit word, if it stands for one. -/
def decode? (w : UInt32) : Option Instruction :=
  let n := w.toNat
  match Opcode.ofBits? (field n 0 7) with
  | none => none
  | some .lui => some (.lui (rdOf n) (immU n))
  | some .auipc => some (.auipc (rdOf n) (immU n))
  | some .jal => some (.jal (rdOf n) (immJ n))
  | some .jalr => if funct3Of n = 0 then some (.jalr (rdOf n) (rs1Of n) (immI n)) else none
  | some .branch =>
    (BranchCond.ofFunct3? (funct3Of n)).map fun cond =>
      .branch cond (rs1Of n) (rs2Of n) (immB n)
  | some .load =>
    (LoadKind.ofFunct3? (funct3Of n)).map fun kind => .load kind (rdOf n) (rs1Of n) (immI n)
  | some .store =>
    (StoreKind.ofFunct3? (funct3Of n)).map fun kind => .store kind (rs1Of n) (rs2Of n) (immS n)
  | some .opImm => decodeOpImm? n
  | some .opImm32 => decodeOpImm32? n
  | some .op =>
    (RegOp.double? (funct3Of n) (funct7Of n)).map fun op =>
      .opReg op (rdOf n) (rs1Of n) (rs2Of n)
  | some .op32 =>
    (RegOp.word? (funct3Of n) (funct7Of n)).map fun op =>
      .opReg op (rdOf n) (rs1Of n) (rs2Of n)
  | some .miscMem =>
    match funct3Of n with
    | 0 => some .fence
    | 1 => some .fenceI
    | _ => none
  | some .system => decodeSystem? w
  | some .amo => decodeAmo? n

/-- The instruction of a 32-bit word, or the exception that executing the word raises. -/
def decode (w : UInt32) : Except Exception Instruction :=
  match decode? w with
  | some i => .ok i
  | none => .error (.illegalInstruction w)

end Instruction

end Rv64Board
