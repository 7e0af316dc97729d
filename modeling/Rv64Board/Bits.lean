/-!
# Bit fields

An instruction word is a row of fields, each a run of bits. Fields are read and laid down as natural
numbers, and immediates as integers in two's complement, so that facts about an encoding are facts
of linear arithmetic.

* `field n low len`: the number in the `len` bits of `n` that start at bit `low`.
* `signed len n`: the integer that the low `len` bits of `n` stand for in two's complement.
* `slice z low len`: the same bits of an integer in two's complement, however negative.
-/

namespace Rv64Board.Bits

/-- The number held in bits `low` to `low + len - 1`. -/
def field (n low len : Nat) : Nat :=
  (n >>> low) % (1 <<< len)

/-- A number below `2 ^ len` read in two's complement. -/
def signed (len n : Nat) : Int :=
  if n < 1 <<< (len - 1) then n else (n : Int) - (1 <<< len : Nat)

/-- Bits `low` to `low + len - 1` of an integer in two's complement. -/
def slice (z : Int) (low len : Nat) : Nat :=
  (z / (1 <<< low : Nat) % (1 <<< len : Nat)).toNat

end Rv64Board.Bits
