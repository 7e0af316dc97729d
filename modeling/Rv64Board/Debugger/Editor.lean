import Rv64Board.Debugger.Command
import Rv64Board.Text.Words

/-!
# Help while a line is typed

* `complete`: the words that can stand at the cursor.
* `hint`: what is shown after the cursor: the rest of the only candidate, or the arguments that are
  still expected.
* `paint`: the line in color. Colors are control sequences around words; without them the painted
  line is the line.

Positions in a line count the bytes of its UTF-8 form.
-/

namespace Rv64Board.Debugger.Editor

open Arguments

/-! ## Suggestions -/

/-- What can stand at the cursor. -/
structure Suggestions where
  /-- The word that has been begun. -/
  word : String
  /-- The words that begin so, in order. -/
  candidates : List String
  /-- The positional arguments that are still expected. -/
  usage : List String

/-- Inserts a word into an ordered list, unless it is there. -/
def insertWord (s : String) : List String → List String
  | [] => [s]
  | t :: ts => if s < t then s :: t :: ts else if s = t then t :: ts else t :: insertWord s ts

/-- A list of words in order and without repetitions. -/
def ordered (words : List String) : List String :=
  words.foldr insertWord []

/-- The words of a line up to the cursor; after a blank there is an empty one to begin. -/
def words? (line : String) : Option (List String) :=
  (Text.Words.split? line).map fun words =>
    if line.toList.getLast?.all Text.isBlank then words ++ [""] else words

/-- The command below that a word stands for: by name or alias, else by the start of one name. -/
def command? (g : CommandGrammar) (word : String) : Option CommandGrammar :=
  if word.isEmpty then none
  else
    match g.commands.find? fun c => c.isCalled word with
    | some c => some c
    | none =>
      match g.commands.filter fun c => CommandGrammar.startsWith c.name word with
      | [c] => some c
      | _ => none

/-- Follows the commands that words stand for, and gives back the words after them. -/
def descend (g : CommandGrammar) : List String → CommandGrammar × List String
  | [] => (g, [])
  | word :: words =>
    match command? g word with
    | some c => descend c words
    | none => (g, word :: words)

/-- A word that starts with a minus sign and is no number. -/
def isFlag (word : String) : Bool :=
  word.toList.head? = some '-' && !Text.isNegativeWord word

/-- The names of all registers. -/
def registerNames : List String :=
  Reg.all.map Reg.name

/-- The values that can be suggested for an argument. -/
def valuesFor (p : Parameter) : List String :=
  match p.id with
  | "register" => registerNames
  | "csr" => Csr.named.map Csr.name
  | "address" | "target" | "value" => registerNames ++ ["pc"]
  | _ => []

/-- An expected argument as it is shown in a hint. -/
def placeholder (p : Parameter) : String :=
  if p.required then "<" ++ p.id ++ ">" else "[" ++ p.id ++ "]"

/-- The names of the commands that can stand next. -/
def commandNames (g : CommandGrammar) (rest : List String) : List String :=
  if rest.isEmpty && !g.commands.isEmpty then g.commands.map CommandGrammar.name ++ ["help"] else []

/-- The options that can stand next. -/
def optionNames (g : CommandGrammar) (word : String) : List String :=
  if isFlag word then (g.parameters.filterMap Parameter.long).map ("--" ++ ·) else []

/-- What can stand at the end of a row of words, the last of which has been begun. -/
def suggest (root : CommandGrammar) (words : List String) : Suggestions :=
  let word := words.getLast?.getD ""
  let (g, rest) := descend root words.dropLast
  let given := (rest.filter fun w => !isFlag w).length
  let expected := g.positionals.drop given
  let values := (expected.head?.map valuesFor).getD []
  let pool := commandNames g rest ++ optionNames g word ++ values
  { word
    candidates := (ordered pool).filter fun c => CommandGrammar.startsWith c word
    usage := expected.map placeholder }

/-- The part of a text within its first bytes. -/
def firstBytes (count : Nat) : List Char → List Char
  | [] => []
  | c :: cs => if c.utf8Size ≤ count then c :: firstBytes (count - c.utf8Size) cs else []

/-- The position where a completion begins, and the words that can stand there. -/
def complete (line : String) (position : Nat) : Nat × List String :=
  match words? (String.ofList (firstBytes position line.toList)) with
  | none => (position, [])
  | some words =>
    let s := suggest grammar words
    (position - s.word.utf8ByteSize, s.candidates)

/-- What is shown after the cursor at the end of a line. -/
def hint (line : String) (position : Nat) : Option String :=
  if position < line.utf8ByteSize then none
  else
    (words? line).bind fun words =>
      let s := suggest grammar words
      let usage :=
        if s.word.isEmpty && !s.usage.isEmpty then some (" ".intercalate s.usage) else none
      match s.candidates with
      | [candidate] =>
        if s.word.length < candidate.length then
          some (String.ofList (candidate.toList.drop s.word.length))
        else usage
      | _ => usage

/-! ## Colors -/

/-- The looks of a piece of text. -/
inductive Style
  | plain
  | bold
  | dimmed
  | red
  | cyan
  | yellow
  deriving DecidableEq

/-- A control sequence that changes the looks of what follows. -/
def escape (code : String) : String :=
  "\x1b[" ++ code ++ "m"

/-- The control sequence of a style. -/
def Style.opening : Style → String
  | .plain => ""
  | .bold => escape "1"
  | .dimmed => escape "2"
  | .red => escape "31"
  | .cyan => escape "36"
  | .yellow => escape "33"

/-- The control sequence that ends a style. -/
def Style.closing : Style → String
  | .plain => ""
  | _ => escape "0"

/-- A text in a style. -/
def Style.apply (style : Style) (text : String) : String :=
  style.opening ++ text ++ style.closing

/-- A word with the blank that ends it, if one does. -/
structure Piece where
  word : List Char
  blank : List Char

/-- Splits a line after each blank. -/
def pieces : List Char → List Piece
  | [] => []
  | c :: cs =>
    if Text.isBlank c then ⟨[], [c]⟩ :: pieces cs
    else
      match pieces cs with
      | [] => [⟨[c], []⟩]
      | p :: ps => ⟨c :: p.word, p.blank⟩ :: ps

/-- A number in decimal or hexadecimal, with or without a minus sign. -/
def isNumber (word : List Char) : Bool :=
  let digits := if word.head? = some '-' then word.drop 1 else word
  match digits with
  | '0' :: 'x' :: hex => !hex.isEmpty && hex.all fun c => (Text.digit? 16 c).isSome
  | _ => !digits.isEmpty && digits.all Char.isDigit

/-- A word without brackets at its ends. -/
def unbracket (word : List Char) : List Char :=
  let isBracket (c : Char) : Bool := c = '[' || c = ']'
  ((word.dropWhile isBracket).reverse.dropWhile isBracket).reverse

/-- The style of the word that names the command. -/
def commandStyle (found : Option CommandGrammar) (word : String) : Style :=
  if found.isSome || word == "help" then .bold else .red

/-- The style of an argument of a command. The text for the serial line is left alone. -/
def argumentStyle (command : Option CommandGrammar) (word : List Char) : Style :=
  let name := (command.map CommandGrammar.name).getD ""
  let bare := String.ofList (unbracket word)
  if name == "input" then .plain
  else if isNumber (unbracket word) then .cyan
  else if bare == "pc" || (Reg.parse? bare).isSome ||
      (name == "csr" && (Csr.parse? bare).isSome) then
    .yellow
  else .plain

/-- Paints the pieces after the command. -/
def paintArguments (command : Option CommandGrammar) : List Piece → String
  | [] => ""
  | p :: ps =>
    let style := if p.word.isEmpty then Style.plain else argumentStyle command p.word
    style.apply (String.ofList p.word) ++ String.ofList p.blank ++ paintArguments command ps

/-- Paints the pieces of a line; the first word names the command. -/
def paintPieces : List Piece → String
  | [] => ""
  | p :: ps =>
    if p.word.isEmpty then String.ofList p.blank ++ paintPieces ps
    else
      let word := String.ofList p.word
      let found := command? grammar word
      (commandStyle found word).apply word ++ String.ofList p.blank ++ paintArguments found ps

/-- A line in color. -/
def paint (line : String) : String :=
  paintPieces (pieces line.toList)

/-- A hint as it is shown. -/
def paintHint (text : String) : String :=
  Style.dimmed.apply text

/-- The prompt as it is shown. -/
def paintPrompt (text : String) : String :=
  Style.bold.apply text

end Rv64Board.Debugger.Editor
