/-!
# Numerals

Reading an unsigned number of bounded size from its digits.

* `digit? radix c`: the value of a digit below the radix, in either case.
* `readDigits radix bound n cs`: extends `n` by the digits `cs`, failing at the first character that
  is no digit or the first digit that takes the number to the bound.
* `readUnsigned radix bound s`: a numeral with an optional `+` in front.

The first fault from the left decides the error: a long row of digits that runs past the bound is
too large even when a stray character follows it.
-/

namespace Rv64Board.Text

/-- Why a text is not a numeral. -/
inductive NumeralError
  | empty
  | invalidDigit
  | tooLarge
  deriving DecidableEq

/-- The wording of a numeral error. -/
def NumeralError.message : NumeralError → String
  | .empty => "cannot parse integer from empty string"
  | .invalidDigit => "invalid digit found in string"
  | .tooLarge => "number too large to fit in target type"

/-- The value of a digit or letter, in either case. -/
def digitValue? (c : Char) : Option Nat :=
  if '0' ≤ c ∧ c ≤ '9' then some (c.toNat - '0'.toNat)
  else if 'a' ≤ c ∧ c ≤ 'z' then some (c.toNat - 'a'.toNat + 10)
  else if 'A' ≤ c ∧ c ≤ 'Z' then some (c.toNat - 'A'.toNat + 10)
  else none

/-- The value of a digit of the radix. -/
def digit? (radix : Nat) (c : Char) : Option Nat :=
  (digitValue? c).filter (· < radix)

/-- Extends a number by further digits, all values staying below `bound`. -/
def readDigits (radix bound : Nat) : Nat → List Char → Except NumeralError Nat
  | n, [] => .ok n
  | n, c :: cs =>
    match digit? radix c with
    | none => .error .invalidDigit
    | some d =>
      if radix * n + d < bound then readDigits radix bound (radix * n + d) cs
      else .error .tooLarge

/-- Reads a number below `bound`, with an optional `+` before its digits. -/
def readUnsigned (radix bound : Nat) (s : String) : Except NumeralError Nat :=
  match s.toList with
  | [] => .error .empty
  | '+' :: c :: cs => readDigits radix bound 0 (c :: cs)
  | cs => readDigits radix bound 0 cs

/-- Reads a 64-bit number in the radix. -/
def readWord (radix : Nat) (s : String) : Except NumeralError UInt64 :=
  (readUnsigned radix UInt64.size s).map UInt64.ofNat

/-- Whether a text is a minus sign and the digits of a number that a signed 64-bit word holds. -/
def isNegativeWord (s : String) : Bool :=
  match s.toList with
  | '-' :: c :: cs => (readDigits 10 (UInt64.size / 2 + 1) 0 (c :: cs)).isOk
  | _ => false

end Rv64Board.Text
