/-!
# Digits and columns

Numbers are shown in lowercase hexadecimal with a `0x` mark, in tables padded to a fixed number of
digits, and short texts are padded with blanks to a column.

* `hex n`: the mark and the fewest digits.
* `hexPadded k n`: the mark and at least `k` digits.
* `padRight k s`: `s` followed by as many blanks as it takes to reach `k` characters.
-/

namespace Rv64Board.Text

/-- The lowercase hexadecimal digits of a number, most significant first. -/
def hexDigits (n : Nat) : List Char :=
  Nat.toDigits 16 n

/-- A number in hexadecimal with its mark: `255` is `0xff`. -/
def hex (n : Nat) : String :=
  String.ofList ('0' :: 'x' :: hexDigits n)

/-- A number in hexadecimal with at least `digits` digits after its mark. -/
def hexPadded (digits n : Nat) : String :=
  String.ofList ('0' :: 'x' :: (hexDigits n).leftpad digits '0')

/-- The two hexadecimal digits of a byte. -/
def hexByte (b : UInt8) : String :=
  String.ofList ((hexDigits b.toNat).leftpad 2 '0')

/-- A text widened with blanks on the right to `width` characters. -/
def padRight (width : Nat) (s : String) : String :=
  String.ofList (s.toList.rightpad width ' ')

end Rv64Board.Text
