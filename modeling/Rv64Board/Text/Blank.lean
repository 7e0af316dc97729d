/-!
# Blank characters

The characters of the `White_Space` property, and cutting them off the ends of a text.

* `isBlank c`: `c` has the property.
* `trim s`: `s` without blanks at both ends.
* `lowercase s`: the letters `A` to `Z` in lower case, all else as it is.
-/

namespace Rv64Board.Text

/-- A character of the `White_Space` property. -/
def isBlank (c : Char) : Bool :=
  let n := c.toNat
  (0x09 ≤ n && n ≤ 0x0D) || n == 0x20 || n == 0x85 || n == 0xA0 || n == 0x1680 ||
    (0x2000 ≤ n && n ≤ 0x200A) || n == 0x2028 || n == 0x2029 || n == 0x202F || n == 0x205F ||
    n == 0x3000

/-- The characters of a text up to its last one that is not blank. -/
def dropBlanksRight (cs : List Char) : List Char :=
  (cs.reverse.dropWhile isBlank).reverse

/-- A text without the blanks at its two ends. -/
def trim (s : String) : String :=
  String.ofList (dropBlanksRight (s.toList.dropWhile isBlank))

/-- A text with `A` to `Z` in lower case. -/
def lowercase (s : String) : String :=
  String.ofList (s.toList.map Char.toLower)

end Rv64Board.Text
