import Rv64Board.Register
import Rv64Board.Text.Parser

/-!
# Expressions of the debugger

A sum of numbers and registers, such as `sp + 16` or `-8`, and the places that can be assigned to.

* `Expression.parse?` and `Expression.eval`: text to expression, expression to value. Sums wrap.
* `Target.parse?`: a register, the program counter, or a place in memory between brackets.
* `parseNumber`: a number alone, in decimal or after `0x` in hexadecimal.

Texts are taken apart from the front by the parsers of `Text.Parser`; blanks around the parts of an
expression do not matter.
-/

namespace Rv64Board.Debugger

/-- The sign of a term. -/
inductive Sign
  | plus
  | minus
  deriving DecidableEq

/-- A term of a sum. -/
inductive Term
  | literal (value : UInt64)
  | register (r : Reg)
  | pc
  deriving DecidableEq

/-- A sum of signed terms. -/
structure Expression where
  terms : List (Sign × Term)
  deriving DecidableEq

/-- What a value can be assigned to. -/
inductive Target
  /-- The doubleword at an address. -/
  | memory (address : Expression)
  | register (r : Reg)
  | pc
  deriving DecidableEq

/-! ## Values -/

/-- The value of a term. -/
def Term.eval (rs : Registers) : Term → UInt64
  | .literal value => value
  | .register r => rs.get r
  | .pc => rs.pc

/-- A running sum with one more term. -/
def addTerm (rs : Registers) (sum : UInt64) : Sign × Term → UInt64
  | (.plus, t) => sum + t.eval rs
  | (.minus, t) => sum - t.eval rs

/-- The value of an expression. -/
def Expression.eval (e : Expression) (rs : Registers) : UInt64 :=
  e.terms.foldl (addTerm rs) 0

/-! ## Parsers -/

open Text (Parser)
open Text.Parser

/-- A part of an expression with the blanks around it. -/
def withBlanks {α : Type} (p : Parser α) : Parser α :=
  delimited blanks0 p blanks0

/-- The number that a row of digits stands for, if it fits in a word. -/
def number? (radix : Nat) (digits : List Char) : Option UInt64 :=
  (Text.readWord radix (String.ofList digits)).toOption

/-- A literal: hexadecimal digits after `0x`, or decimal digits, that fit in a word. Where the
digits after `0x` do not, the `0` alone is a literal. -/
def parseLiteral : Parser UInt64 :=
  alt (mapRes (preceded (tagNoCase "0x") (digits1 16)) (number? 16))
    (mapRes (digits1 10) (number? 10))

/-- The program counter or the register with a name. -/
def named? (name : List Char) : Option Term :=
  if Text.lowercase (String.ofList name) = "pc" then some .pc
  else (Reg.parse? (String.ofList name)).map .register

/-- A term of a sum. -/
def parseTerm : Parser Term :=
  alt (map parseLiteral .literal) (mapRes alphanumeric1 named?)

/-- A sign. -/
def parseSign : Parser Sign :=
  alt (value .plus (char '+')) (value .minus (char '-'))

/-- A sum. The sign of the first term may be left out. -/
def parseExpression : Parser Expression := fun input => do
  let (sign, input) ← opt (withBlanks parseSign) input
  let (first, input) ← withBlanks parseTerm input
  let (rest, input) ← many0 (pair (withBlanks parseSign) (withBlanks parseTerm)) input
  return (⟨(sign.getD .plus, first) :: rest⟩, input)

/-- The target that a term alone stands for. A literal stands for none. -/
def Term.target? : Term → Option Target
  | .register r => some (.register r)
  | .pc => some .pc
  | .literal _ => none

/-- A target: a place in memory between brackets, a register, or the program counter. -/
def parseTarget : Parser Target :=
  alt
    (map (delimited (withBlanks (char '[')) parseExpression (withBlanks (char ']'))) .memory)
    (mapRes (withBlanks parseTerm) Term.target?)

/-- The value that a whole text stands for. -/
def parseAll {α : Type} (p : Parser α) (s : String) : Option α :=
  (allConsuming p s.toList).map Prod.fst

/-- The expression that a text stands for. -/
def Expression.parse? : String → Option Expression :=
  parseAll parseExpression

/-- The target that a text stands for. -/
def Target.parse? : String → Option Target :=
  parseAll parseTarget

/-- A number in decimal, or after `0x` in hexadecimal. -/
def parseNumber (s : String) : Except Text.NumeralError UInt64 :=
  match s.toList with
  | '0' :: 'x' :: digits => Text.readWord 16 (String.ofList digits)
  | '0' :: 'X' :: digits => Text.readWord 16 (String.ofList digits)
  | _ => Text.readWord 10 s

end Rv64Board.Debugger
