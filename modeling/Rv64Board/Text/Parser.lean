import Rv64Board.Text.Numeral

/-!
# Parsers of text

A parser takes a value off the front of a text and leaves the rest, or refuses the text. It does not
look back: of two alternatives the first one that takes something counts, a run of characters is
taken as far as it goes, and what has been taken is not tried again in another way.

* `run0`, `run1`: the longest run of characters of one class, with `blanks0`, `digits1` and
  `alphanumeric1` for blanks, for digits and for letters and digits.
* `char`, `tagNoCase`: a given character, and a given text in either case.
* `map`, `mapRes`, `value`: another value in place of the one taken; `mapRes` may refuse it.
* `alt`, `opt`: alternatives, and parts that may be left out.
* `pair`, `preceded`, `delimited`, `many0`: parts that follow each other.
* `allConsuming`: nothing may be left.
-/

namespace Rv64Board.Text

/-- A parser: what it takes off a text and the rest of the text, unless it refuses the text. -/
abbrev Parser (α : Type) := List Char → Option (α × List Char)

namespace Parser

variable {α β γ : Type}

/-! ## Characters -/

/-- The longest run of characters of a class. It may be empty. -/
def run0 (inClass : Char → Bool) : Parser (List Char) := fun input =>
  some (input.takeWhile inClass, input.dropWhile inClass)

/-- The longest run of characters of a class, at least one of them. -/
def run1 (inClass : Char → Bool) : Parser (List Char) := fun input =>
  if input.head?.any inClass then run0 inClass input else none

/-- The blanks of a line, and the characters that end lines. -/
def isGap (c : Char) : Bool :=
  c = ' ' || c = '\t' || c = '\r' || c = '\n'

/-- Blanks, if there are any. -/
def blanks0 : Parser (List Char) := run0 isGap

/-- Digits of a radix. -/
def digits1 (radix : Nat) : Parser (List Char) := run1 fun c => (digit? radix c).isSome

/-- Letters and digits. -/
def alphanumeric1 : Parser (List Char) := run1 Char.isAlphanum

/-- A given character. -/
def char (c : Char) : Parser Char
  | [] => none
  | d :: rest => if d = c then some (c, rest) else none

/-- A given text, where the case of letters does not matter. -/
def tagNoCase (tag : String) : Parser (List Char) := fun input =>
  let front := input.take tag.length
  if front.map Char.toLower = tag.toList.map Char.toLower then
    some (front, input.drop tag.length)
  else none

/-! ## Values -/

/-- Another value in place of the one that is taken. -/
def map (p : Parser α) (f : α → β) : Parser β := fun input =>
  (p input).map fun (a, rest) => (f a, rest)

/-- Likewise, where a value without another one is refused. -/
def mapRes (p : Parser α) (f : α → Option β) : Parser β := fun input =>
  (p input).bind fun (a, rest) => (f a).map fun b => (b, rest)

/-- A given value in place of the one that is taken. -/
def value (b : β) (p : Parser α) : Parser β :=
  map p fun _ => b

/-! ## Alternatives -/

/-- The first alternative, or the second one where the first refuses the text. -/
def alt (p q : Parser α) : Parser α := fun input =>
  match p input with
  | some taken => some taken
  | none => q input

/-- A part that may be left out. -/
def opt (p : Parser α) : Parser (Option α) := fun input =>
  match p input with
  | some (a, rest) => some (some a, rest)
  | none => some (none, input)

/-! ## Sequences -/

/-- One part and then another. -/
def pair (p : Parser α) (q : Parser β) : Parser (α × β) := fun input =>
  (p input).bind fun (a, rest) => map q (fun b => (a, b)) rest

/-- A part after another one that is not kept. -/
def preceded (first : Parser α) (p : Parser β) : Parser β :=
  map (pair first p) Prod.snd

/-- A part between two others that are not kept. -/
def delimited (first : Parser α) (p : Parser β) (last : Parser γ) : Parser β :=
  map (pair (preceded first p) last) Prod.fst

/-- One part after the other until the text is refused. A part that takes nothing could go on
forever, and is refused itself. -/
def many0 (p : Parser α) (input : List Char) : Option (List α × List Char) :=
  match p input with
  | none => some ([], input)
  | some (a, rest) =>
    if _ : rest.length < input.length then
      (many0 p rest).map fun (as, rest) => (a :: as, rest)
    else none
termination_by input.length
decreasing_by assumption

/-- A parser that refuses to leave anything. -/
def allConsuming (p : Parser α) : Parser α := fun input =>
  (p input).filter fun (_, rest) => rest.isEmpty

end Parser

end Rv64Board.Text
