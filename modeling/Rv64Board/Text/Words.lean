/-!
# Words of a command line

Splits a line into words as a shell does: blanks separate, quotes and backslashes take the meaning
of characters away, and a number sign at the start of a word begins a comment.

* Between single quotes every character stands for itself.
* Between double quotes a backslash escapes the dollar sign, the grave accent, the double quote, the
  backslash and the end of the line; before other characters it stands for itself.
* Outside of quotes a backslash escapes the next character; at the end of the text it stands for
  itself, and before the end of a line both disappear.

`Words.split?` is `none` exactly when a quote is left open.
-/

namespace Rv64Board.Text.Words

/-- Where the splitter is. -/
inductive Mode
  /-- Between words. -/
  | gap
  /-- After a backslash between words. -/
  | gapEscape
  /-- Within a word, outside of quotes. -/
  | bare
  /-- After a backslash within a word, outside of quotes. -/
  | bareEscape
  /-- Between single quotes. -/
  | single
  /-- Between double quotes. -/
  | double
  /-- After a backslash between double quotes. -/
  | doubleEscape
  /-- Within a comment. -/
  | comment

/-- The characters that separate words. -/
def separates (c : Char) : Bool :=
  c = ' ' || c = '\t' || c = '\n'

/-- The characters that a backslash escapes between double quotes. -/
def escapable (c : Char) : Bool :=
  c = '$' || c = '\x60' || c = '"' || c = '\\'

/-- The word whose characters are given last first. -/
def wordOf (chars : List Char) : String :=
  String.ofList chars.reverse

/-- Splits the rest of a text, given the mode and the characters of the current word, last first. -/
def scan : Mode → List Char → List Char → Option (List String)
  | .gap, _, [] => some []
  | .gapEscape, w, [] => some [wordOf ('\\' :: w)]
  | .bare, w, [] => some [wordOf w]
  | .bareEscape, w, [] => some [wordOf ('\\' :: w)]
  | .single, _, [] => none
  | .double, _, [] => none
  | .doubleEscape, _, [] => none
  | .comment, _, [] => some []
  | .gap, w, c :: cs =>
    if c = '\x27' then scan .single w cs
    else if c = '"' then scan .double w cs
    else if c = '\\' then scan .gapEscape w cs
    else if separates c then scan .gap w cs
    else if c = '#' then scan .comment w cs
    else scan .bare (c :: w) cs
  | .gapEscape, w, c :: cs =>
    if c = '\n' then scan .gap w cs else scan .bare (c :: w) cs
  | .bare, w, c :: cs =>
    if c = '\x27' then scan .single w cs
    else if c = '"' then scan .double w cs
    else if c = '\\' then scan .bareEscape w cs
    else if separates c then (scan .gap [] cs).map (wordOf w :: ·)
    else scan .bare (c :: w) cs
  | .bareEscape, w, c :: cs =>
    if c = '\n' then scan .bare w cs else scan .bare (c :: w) cs
  | .single, w, c :: cs =>
    if c = '\x27' then scan .bare w cs else scan .single (c :: w) cs
  | .double, w, c :: cs =>
    if c = '"' then scan .bare w cs
    else if c = '\\' then scan .doubleEscape w cs
    else scan .double (c :: w) cs
  | .doubleEscape, w, c :: cs =>
    if c = '\n' then scan .double w cs
    else if escapable c then scan .double (c :: w) cs
    else scan .double (c :: '\\' :: w) cs
  | .comment, w, c :: cs =>
    if c = '\n' then scan .gap w cs else scan .comment w cs

/-- The words of a text, unless a quote is left open. -/
def split? (s : String) : Option (List String) :=
  scan .gap [] s.toList

end Rv64Board.Text.Words
