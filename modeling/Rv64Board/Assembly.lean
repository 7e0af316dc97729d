import Rv64Board.Instruction.Encoding
import Rv64Board.Width

/-!
# Assembling

Pseudo-instructions and flat images.

* `Assembly.li`: the instructions that put any 64-bit constant into a register.
* `Assembly.mv`, `nop`, `j`, `ret`, `halt`: other common idioms.
* `Assembly.image`: the bytes of a program, four for each instruction.
-/

namespace Rv64Board.Assembly

open Bits

/-- The number of zeros at the low end of a number; zero for zero. -/
def trailingZeros (n : Nat) : Nat :=
  if h : n = 0 then 0
  else if n % 2 = 0 then trailingZeros (n / 2) + 1
  else 0
termination_by n

/-- The low twelve bits of a constant, with their sign. -/
def lowPart (value : Int) : Int :=
  signed 12 (slice value 0 12)

/-- The constant without its low part, from bit 12 on. -/
def highPart (value : Int) : Int :=
  (value - lowPart value).bmod UInt64.size / 4096

/-- Loads of a constant that a signed 32-bit word holds. -/
def liWord (rd : Reg) (value : Int) : List Instruction :=
  let low := lowPart value
  let high := slice (value + 0x800) 12 20
  if high = 0 then [.opImm .addi rd Reg.zero low]
  else
    .lui rd (UInt32.ofNat high) :: (if low = 0 then [] else [.opImm .addiw rd rd low])

theorem natAbs_highPart_lt {value : Int} (h : ¬(-0x80000000 ≤ value ∧ value < 0x80000000))
    (z : Nat) : (highPart value / (1 <<< z : Nat)).natAbs < value.natAbs := by
  refine Nat.lt_of_le_of_lt (Int.natAbs_ediv_le_natAbs _ _) ?_
  have hs : slice value 0 12 < 4096 := by
    simp only [slice, Nat.shiftLeft_eq]; omega
  have hl : -2048 ≤ lowPart value ∧ lowPart value ≤ 2047 := by
    unfold lowPart signed
    simp only [Nat.shiftLeft_eq]
    split <;> omega
  unfold highPart
  simp only [Int.bmod, UInt64.size]
  split <;> omega

/-- The instructions that load a constant: a word takes at most two, and a wider constant is built
from its upper part, shifted into place and completed with the lower twelve bits. -/
def li (rd : Reg) (value : Int) : List Instruction :=
  if _h : -0x80000000 ≤ value ∧ value < 0x80000000 then liWord rd value
  else
    let low := lowPart value
    let zeros := trailingZeros (highPart value).natAbs
    li rd (highPart value / (1 <<< zeros : Nat)) ++
      .opImm .slli rd rd (12 + zeros : Nat) :: (if low = 0 then [] else [.opImm .addi rd rd low])
termination_by value.natAbs
decreasing_by exact natAbs_highPart_lt _h _

/-- Copies a register. -/
def mv (rd rs : Reg) : Instruction :=
  .opImm .addi rd rs 0

/-- Does nothing. -/
def nop : Instruction :=
  .opImm .addi Reg.zero Reg.zero 0

/-- Jumps to a distance from here. -/
def j (offset : Int) : Instruction :=
  .jal Reg.zero offset

/-- Returns from a call. -/
def ret : Instruction :=
  .jalr Reg.zero Reg.ra 0

/-- Jumps to itself, which stops a machine that cannot be interrupted. -/
def halt : Instruction :=
  j 0

/-- The bytes of a program. -/
def image (program : List Instruction) : List UInt8 :=
  program.flatMap fun i => LittleEndian.toBytes 4 i.encode.toNat

end Rv64Board.Assembly
