import Rv64Board.Text.Attaching
import Rv64Board.Text.Digits
import Rv64Board.Text.Invisible

/-!
# Quoted text

A text shown between double quotes, so that its ends and its invisible characters can be seen. The
quote and the backslash get a backslash, four control characters have names, and every other
character that does not print, or would attach to the one before it, is shown by its code point in
braces.
-/

namespace Rv64Board.Text

/-- The halfwidth voicing marks attach to the letter before them, and yet have a shape of their
own. -/
def isVoicingMark (c : Char) : Bool :=
  c = '\uFF9E' || c = '\uFF9F'

/-- A character that leaves a mark when printed, and stands by itself. -/
def isVisible (c : Char) : Bool :=
  !isInvisible c && (!isAttaching c || isVoicingMark c)

/-- One character as it stands between quotes. -/
def quotedChar (c : Char) : List Char :=
  if c = '"' then ['\\', '"']
  else if c = '\\' then ['\\', '\\']
  else if c = '\n' then ['\\', 'n']
  else if c = '\t' then ['\\', 't']
  else if c = '\r' then ['\\', 'r']
  else if c.toNat = 0 then ['\\', '0']
  else if isVisible c then [c]
  else ['\\', 'u', '\x7b'] ++ hexDigits c.toNat ++ ['\x7d']

/-- A text between double quotes. -/
def quoted (s : String) : String :=
  String.ofList ('"' :: s.toList.flatMap quotedChar ++ ['"'])

end Rv64Board.Text
