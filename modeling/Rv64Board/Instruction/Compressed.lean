import Rv64Board.Instruction.Encoding

/-!
# The 16-bit encoding

Compressed instructions are short forms of common instructions. Each decodes to the instruction it
stands for; the floating-point forms and the reserved ones decode to nothing.

* `decodeCompressed?`: the instruction of a 16-bit parcel.
* `lengthOf`: how many bytes the instruction takes that starts with given bits.
* `decodeParcel`: the instruction at the start of a word, in either length.
-/

namespace Rv64Board.Instruction

open Bits

/-- One of the eight registers that a three-bit field can name. -/
def compactReg (n low : Nat) : Reg :=
  Reg.ofNat (8 + field n low 3)

/-- The register in bits 7 to 11. -/
def fullRd (n : Nat) : Reg := Reg.ofNat (field n 7 5)

/-- The register in bits 2 to 6. -/
def fullRs2 (n : Nat) : Reg := Reg.ofNat (field n 2 5)

/-- The six-bit immediate in bit 12 and bits 2 to 6. -/
def imm6 (n : Nat) : Nat :=
  field n 2 5 + field n 12 1 <<< 5

def wordOffset (n : Nat) : Nat :=
  field n 6 1 <<< 2 + field n 10 3 <<< 3 + field n 5 1 <<< 6

def doubleOffset (n : Nat) : Nat :=
  field n 10 3 <<< 3 + field n 5 2 <<< 6

def jumpOffset (n : Nat) : Int :=
  signed 12 (field n 3 3 <<< 1 + field n 11 1 <<< 4 + field n 2 1 <<< 5 + field n 7 1 <<< 6 +
    field n 6 1 <<< 7 + field n 9 2 <<< 8 + field n 8 1 <<< 10 + field n 12 1 <<< 11)

def branchOffset (n : Nat) : Int :=
  signed 9 (field n 3 2 <<< 1 + field n 10 2 <<< 3 + field n 2 1 <<< 5 + field n 5 2 <<< 6 +
    field n 12 1 <<< 8)

/-- The unsigned stack offset of the instruction that computes an address on the stack. -/
def stackAddress (n : Nat) : Nat :=
  field n 6 1 <<< 2 + field n 5 1 <<< 3 + field n 11 2 <<< 4 + field n 7 4 <<< 6

/-- The ten bits by which the instruction that moves the stack pointer moves it. -/
def stackMove (n : Nat) : Nat :=
  field n 6 1 <<< 4 + field n 2 1 <<< 5 + field n 5 1 <<< 6 + field n 3 2 <<< 7 +
    field n 12 1 <<< 9

/-- Quadrant 0: loads and stores through the compact registers. -/
def decodeQuadrant0? (n : Nat) : Option Instruction :=
  match field n 13 3 with
  | 0 =>
    if stackAddress n = 0 then none
    else some (.opImm .addi (compactReg n 2) Reg.sp (stackAddress n))
  | 2 => some (.load .w (compactReg n 2) (compactReg n 7) (wordOffset n))
  | 3 => some (.load .d (compactReg n 2) (compactReg n 7) (doubleOffset n))
  | 6 => some (.store .w (compactReg n 7) (compactReg n 2) (wordOffset n))
  | 7 => some (.store .d (compactReg n 7) (compactReg n 2) (doubleOffset n))
  | _ => none

/-- The operation on two compact registers told by bit 12 and bits 5 and 6. -/
def compactOp? : Nat → Nat → Option RegOp
  | 0, 0 => some .sub
  | 0, 1 => some .xor
  | 0, 2 => some .or
  | 0, 3 => some .and
  | 1, 0 => some .subw
  | 1, 1 => some .addw
  | _, _ => none

/-- The arithmetic on compact registers of quadrant 1. -/
def decodeArithmetic? (n : Nat) : Option Instruction :=
  let rd := compactReg n 7
  match field n 10 2 with
  | 0 => some (.opImm .srli rd rd (imm6 n))
  | 1 => some (.opImm .srai rd rd (imm6 n))
  | 2 => some (.opImm .andi rd rd (signed 6 (imm6 n)))
  | _ => (compactOp? (field n 12 1) (field n 5 2)).map fun op => .opReg op rd rd (compactReg n 2)

/-- Quadrant 1: small immediates, arithmetic and jumps. -/
def decodeQuadrant1? (n : Nat) : Option Instruction :=
  let rd := fullRd n
  let imm := signed 6 (imm6 n)
  match field n 13 3 with
  | 0 => some (.opImm .addi rd rd imm)
  | 1 => if rd = Reg.zero then none else some (.opImm .addiw rd rd imm)
  | 2 => some (.opImm .addi rd Reg.zero imm)
  | 3 =>
    if rd = Reg.sp then
      if stackMove n = 0 then none
      else some (.opImm .addi Reg.sp Reg.sp (signed 10 (stackMove n)))
    else if imm = 0 then none
    else some (.lui rd (UInt32.ofNat (slice imm 0 20)))
  | 4 => decodeArithmetic? n
  | 5 => some (.jal Reg.zero (jumpOffset n))
  | 6 => some (.branch .eq (compactReg n 7) Reg.zero (branchOffset n))
  | 7 => some (.branch .ne (compactReg n 7) Reg.zero (branchOffset n))
  | _ => none

/-- Moves, additions and jumps through a register, of quadrant 2. -/
def decodeMove? (n : Nat) : Option Instruction :=
  let rd := fullRd n
  let rs2 := fullRs2 n
  if field n 12 1 = 0 then
    if rs2 = Reg.zero then
      if rd = Reg.zero then none else some (.jalr Reg.zero rd 0)
    else some (.opReg .add rd Reg.zero rs2)
  else
    if rs2 = Reg.zero then
      if rd = Reg.zero then some .ebreak else some (.jalr Reg.ra rd 0)
    else some (.opReg .add rd rd rs2)

/-- Quadrant 2: accesses to the stack, moves and shifts. -/
def decodeQuadrant2? (n : Nat) : Option Instruction :=
  let rd := fullRd n
  match field n 13 3 with
  | 0 => some (.opImm .slli rd rd (imm6 n))
  | 2 =>
    if rd = Reg.zero then none
    else some (.load .w rd Reg.sp
      (field n 4 3 <<< 2 + field n 12 1 <<< 5 + field n 2 2 <<< 6 : Nat))
  | 3 =>
    if rd = Reg.zero then none
    else some (.load .d rd Reg.sp
      (field n 5 2 <<< 3 + field n 12 1 <<< 5 + field n 2 3 <<< 6 : Nat))
  | 4 => decodeMove? n
  | 6 => some (.store .w Reg.sp (fullRs2 n) (field n 9 4 <<< 2 + field n 7 2 <<< 6 : Nat))
  | 7 => some (.store .d Reg.sp (fullRs2 n) (field n 10 3 <<< 3 + field n 7 3 <<< 6 : Nat))
  | _ => none

/-- The instruction of a 16-bit parcel, if it stands for one. -/
def decodeCompressed? (parcel : UInt16) : Option Instruction :=
  let n := parcel.toNat
  match field n 0 2 with
  | 0 => decodeQuadrant0? n
  | 1 => decodeQuadrant1? n
  | 2 => decodeQuadrant2? n
  | _ => none

/-- The instruction of a 16-bit parcel, or the exception that executing it raises. -/
def decodeCompressed (parcel : UInt16) : Except Exception Instruction :=
  match decodeCompressed? parcel with
  | some i => .ok i
  | none => .error (.illegalInstruction parcel.toUInt32)

/-- The length in bytes of the instruction that starts with these bits. -/
def lengthOf (w : UInt32) : UInt64 :=
  if w &&& 3 = 3 then 4 else 2

/-- The instruction in the low bits of a word, of either length, and its length. -/
def decodeParcel (w : UInt32) : Except Exception (Instruction × UInt64) :=
  if lengthOf w = 2 then (decodeCompressed w.toUInt16).map fun i => (i, 2)
  else (decode w).map fun i => (i, 4)

end Rv64Board.Instruction
