import Rv64Board.Instruction.Basic
import Rv64Board.Width

/-!
# Arithmetic

What the integer operations compute, on 64-bit words.

* `signExtend32`, `signExtend`: the low bits of a word, with their sign.
* `RegOp.eval`: operations on two registers. Division by zero and the overflow of division have
  results, never faults.
* `ImmOp.toRegOp`: an operation with an immediate is the one with a register in its place.
* `BranchCond.holds`, `AmoOp.eval`: conditions of branches and atomic updates.
-/

namespace Rv64Board

/-- A 32-bit value with its sign spread over the upper half. -/
def signExtend32 (v : UInt32) : UInt64 :=
  v.toInt32.toInt64.toUInt64

/-- The low bytes of a value with their sign spread over the rest. -/
def signExtend (w : Width) (v : UInt64) : UInt64 :=
  match w with
  | .byte => v.toUInt8.toInt8.toInt64.toUInt64
  | .half => v.toUInt16.toInt16.toInt64.toUInt64
  | .word => signExtend32 v.toUInt32
  | .double => v

/-- One for true and zero for false. -/
def ofCondition (p : Bool) : UInt64 :=
  if p then 1 else 0

/-- The word of all ones. -/
def allOnes : UInt64 := 0xFFFFFFFFFFFFFFFF

/-- Whether a branch is taken. -/
def BranchCond.holds (c : BranchCond) (a b : UInt64) : Bool :=
  match c with
  | .eq => a = b
  | .ne => a ≠ b
  | .lt => a.toInt64 < b.toInt64
  | .ge => b.toInt64 ≤ a.toInt64
  | .ltu => a < b
  | .geu => b ≤ a

/-- Operations on the low halves of two words, the result still 32 bits wide. -/
def RegOp.evalWord (op : RegOp) (a b : UInt32) : UInt32 :=
  match op with
  | .addw => a + b
  | .subw => a - b
  | .sllw => a <<< (b &&& 0x1F)
  | .srlw => a >>> (b &&& 0x1F)
  | .sraw => (a.toInt32 >>> (b &&& 0x1F).toInt32).toUInt32
  | .mulw => a * b
  | .divw => if b = 0 then 0xFFFFFFFF else (a.toInt32 / b.toInt32).toUInt32
  | .divuw => if b = 0 then 0xFFFFFFFF else a / b
  | .remw => if b = 0 then a else (a.toInt32 % b.toInt32).toUInt32
  | .remuw => if b = 0 then a else a % b
  | _ => 0

/-- The result of an operation on two words. Dividing by zero gives all ones and leaves the dividend
as the remainder; the one quotient that does not fit wraps around. -/
def RegOp.eval (op : RegOp) (a b : UInt64) : UInt64 :=
  match op with
  | .add => a + b
  | .sub => a - b
  | .sll => a <<< (b &&& 0x3F)
  | .slt => ofCondition (a.toInt64 < b.toInt64)
  | .sltu => ofCondition (a < b)
  | .xor => a ^^^ b
  | .srl => a >>> (b &&& 0x3F)
  | .sra => (a.toInt64 >>> (b &&& 0x3F).toInt64).toUInt64
  | .or => a ||| b
  | .and => a &&& b
  | .mul => a * b
  | .mulh => UInt64.ofInt (a.toInt64.toInt * b.toInt64.toInt / UInt64.size)
  | .mulhsu => UInt64.ofInt (a.toInt64.toInt * b.toNat / UInt64.size)
  | .mulhu => UInt64.ofNat (a.toNat * b.toNat / UInt64.size)
  | .div => if b = 0 then allOnes else (a.toInt64 / b.toInt64).toUInt64
  | .divu => if b = 0 then allOnes else a / b
  | .rem => if b = 0 then a else (a.toInt64 % b.toInt64).toUInt64
  | .remu => if b = 0 then a else a % b
  | .addw | .subw | .sllw | .srlw | .sraw | .mulw | .divw | .divuw | .remw | .remuw =>
    signExtend32 (op.evalWord a.toUInt32 b.toUInt32)

/-- The operation on two registers that an operation with an immediate stands for. -/
def ImmOp.toRegOp : ImmOp → RegOp
  | .addi => .add
  | .slti => .slt
  | .sltiu => .sltu
  | .xori => .xor
  | .ori => .or
  | .andi => .and
  | .slli => .sll
  | .srli => .srl
  | .srai => .sra
  | .addiw => .addw
  | .slliw => .sllw
  | .srliw => .srlw
  | .sraiw => .sraw

/-- The access width of a load and whether the value keeps its sign. -/
def LoadKind.width : LoadKind → Width × Bool
  | .b => (.byte, true)
  | .h => (.half, true)
  | .w => (.word, true)
  | .d => (.double, false)
  | .bu => (.byte, false)
  | .hu => (.half, false)
  | .wu => (.word, false)

/-- The value that a load leaves in its register. -/
def LoadKind.extend (k : LoadKind) (v : UInt64) : UInt64 :=
  if k.width.2 then signExtend k.width.1 v else v

/-- The access width of a store. -/
def StoreKind.width : StoreKind → Width
  | .b => .byte
  | .h => .half
  | .w => .word
  | .d => .double

/-- The access width of an atomic access. -/
def AmoKind.width : AmoKind → Width
  | .w => .word
  | .d => .double

/-- What an atomic update stores, from the old value, extended with its sign, and the operand. Of a
word update only the low half counts. -/
def AmoOp.eval (op : AmoOp) (kind : AmoKind) (old operand : UInt64) : UInt64 :=
  let operand := signExtend kind.width operand
  let unsigned (v : UInt64) : UInt64 := v &&& kind.width.mask
  match op with
  | .swap => operand
  | .add => old + operand
  | .xor => old ^^^ operand
  | .and => old &&& operand
  | .or => old ||| operand
  | .min => if old.toInt64 ≤ operand.toInt64 then old else operand
  | .max => if operand.toInt64 ≤ old.toInt64 then old else operand
  | .minu => if unsigned old ≤ unsigned operand then old else operand
  | .maxu => if unsigned operand ≤ unsigned old then old else operand

end Rv64Board
