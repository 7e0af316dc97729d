import Rv64Board.Text.Blank
import Rv64Board.Text.Terminal

/-!
# Grammars of command lines

What a command line may consist of: commands with positional arguments, options, flags and further
commands below them.

* `Parameter`: one argument of a command, and how it is shown in messages.
* `CommandGrammar`: a command.
* `UsageError`: what can be wrong with a command line, with the wording in `UsageError.message` and
  the short form in `UsageError.summary`.
-/

namespace Rv64Board.Arguments

/-- The kinds of arguments. -/
inductive Kind
  /-- One word, told by its position. -/
  | positional
  /-- All remaining words. -/
  | remaining
  /-- A word after the name of the option. -/
  | option
  /-- A name that can be given once. -/
  | flag
  /-- A name that can be given repeatedly, up to 255 times. -/
  | counter
  /-- A name that asks for the help text. -/
  | help
  /-- A name that asks for the version. -/
  | version (text : String)
  deriving DecidableEq

/-- An argument of a command. -/
structure Parameter where
  id : String
  kind : Kind
  short : Option Char := none
  long : Option String := none
  required : Bool := false
  /-- A word that starts with a minus sign and a digit is a value here, and no option. -/
  negative : Bool := false
  /-- The values are words from a list. -/
  choice : Bool := false
  /-- At most one argument of a group can be given. -/
  group : Option String := none
  /-- The words that the argument accepts. -/
  accepts : String → Bool := fun _ => true

namespace Parameter

/-- The name of an argument's value in messages. -/
def placeholder (p : Parameter) : String :=
  String.ofList (p.id.toList.map Char.toUpper)

/-- An argument as it is shown in messages. -/
def shown (p : Parameter) : String :=
  let name := "--" ++ p.long.getD p.id
  match p.kind with
  | .positional => if p.required then "<" ++ p.placeholder ++ ">" else "[" ++ p.placeholder ++ "]"
  | .remaining => "[" ++ p.placeholder ++ "]..."
  | .option => name ++ " <" ++ p.placeholder ++ ">"
  | .counter => name ++ "..."
  | .flag | .help | .version _ => name

/-- Whether an argument is told by its position. -/
def isPositional (p : Parameter) : Bool :=
  p.kind = .positional || p.kind = .remaining

/-- Whether a named argument is followed by a value. -/
def takesValue (p : Parameter) : Bool :=
  p.kind = .option

end Parameter

/-- A command: its names, its arguments, and the commands below it. -/
inductive CommandGrammar
  | mk (name : String) (aliases : List String) (parameters : List Parameter)
      (commands : List CommandGrammar) (infers : Bool) (needsCommand : Bool)

namespace CommandGrammar

def name : CommandGrammar → String
  | .mk name .. => name

def aliases : CommandGrammar → List String
  | .mk _ aliases .. => aliases

def parameters : CommandGrammar → List Parameter
  | .mk _ _ parameters .. => parameters

/-- The commands below a command. -/
def commands : CommandGrammar → List CommandGrammar
  | .mk _ _ _ commands .. => commands

/-- Whether a command below can be told by the start of its name. -/
def infers : CommandGrammar → Bool
  | .mk _ _ _ _ infers _ => infers

/-- Whether one of the commands below has to be given. -/
def needsCommand : CommandGrammar → Bool
  | .mk _ _ _ _ _ needsCommand => needsCommand

instance : Inhabited CommandGrammar := ⟨.mk "" [] [] [] false false⟩

/-- A command without aliases and without commands below it. -/
def leaf (name : String) (parameters : List Parameter) : CommandGrammar :=
  .mk name [] parameters [] false false

/-- The arguments told by their position, in order. -/
def positionals (g : CommandGrammar) : List Parameter :=
  g.parameters.filter Parameter.isPositional

/-- The flag that asks for the help text of any command. -/
def helpFlag : Parameter :=
  { id := "help", kind := .help, short := some 'h', long := some "help" }

/-- The arguments that can be given by name. -/
def named (g : CommandGrammar) : List Parameter :=
  g.parameters ++ [helpFlag]

/-- The commands below a command, with the one that shows help texts. -/
def commandsWithHelp (g : CommandGrammar) : List CommandGrammar :=
  if g.commands.isEmpty then [] else g.commands ++ [leaf "help" []]

/-- A word is the name or an alias of the command. -/
def isCalled (g : CommandGrammar) (word : String) : Bool :=
  g.name == word || g.aliases.contains word

/-- The command below with a given name or alias. -/
def find? (g : CommandGrammar) (word : String) : Option CommandGrammar :=
  g.commandsWithHelp.find? fun c => c.isCalled word

/-- A text starts with a word. -/
def startsWith (text word : String) : Bool :=
  word.toList.isPrefixOf text.toList

/-- The command can be told by the start of its name or of an alias. -/
def matchesStart (g : CommandGrammar) (word : String) : Bool :=
  startsWith g.name word || g.aliases.any fun a => startsWith a word

/-- The command below that a word stands for: the only one whose name or alias starts with the word,
where names can be shortened, else the one that has exactly this name or alias. -/
def resolve? (g : CommandGrammar) (word : String) : Option CommandGrammar :=
  match g.infers, g.commandsWithHelp.filter fun c => c.matchesStart word with
  | true, [c] => some c
  | _, _ => g.find? word

end CommandGrammar

/-- What is wrong with a command line. -/
inductive UsageError
  /-- Nothing is wrong, but the help text was asked for, or is all that can be given. -/
  | help
  /-- Nothing is wrong, but the version was asked for. -/
  | version (text : String)
  | unrecognizedCommand (word : String)
  | unexpectedArgument (word : String)
  /-- A flag was given a value. -/
  | unexpectedValue (value shown : String)
  | invalidValue (value shown : String)
  | missingValue (shown : String)
  /-- An argument was given twice. -/
  | repeated (shown : String)
  /-- An argument cannot stand together with others. -/
  | conflict (shown : String) (others : List String)
  /-- Required arguments are missing. -/
  | missingArguments
  /-- A command needs one of the commands below it. -/
  | missingCommand (name : String)
  deriving DecidableEq

namespace UsageError

/-- A word of the command line in a message: what a terminal shows of it, between quotes. -/
def mention (word : String) : String :=
  "'" ++ Text.shown word ++ "'"

/-- The first sentence about a usage error. -/
def message : UsageError → String
  | .help => ""
  | .version text => text
  | .unrecognizedCommand word => "unrecognized subcommand " ++ mention word
  | .unexpectedArgument word => "unexpected argument " ++ mention word ++ " found"
  | .unexpectedValue value shown =>
    "unexpected value " ++ mention value ++ " for '" ++ shown ++ "' found; no more were expected"
  | .invalidValue value shown => "invalid value " ++ mention value ++ " for '" ++ shown ++ "'"
  | .missingValue shown => "a value is required for '" ++ shown ++ "' but none was supplied"
  | .repeated shown => "the argument '" ++ shown ++ "' cannot be used multiple times"
  | .conflict shown [other] =>
    "the argument '" ++ shown ++ "' cannot be used with '" ++ other ++ "'"
  | .conflict shown _ => "the argument '" ++ shown ++ "' cannot be used with:"
  | .missingArguments => "the following required arguments were not provided:"
  | .missingCommand name => "'" ++ name ++ "' requires a subcommand but one was not provided"

/-- The part of a text before the first colon that a blank follows. -/
def beforeColon : List Char → List Char
  | [] => []
  | ':' :: ' ' :: _ => []
  | c :: cs => c :: beforeColon cs

/-- A text without a colon at its end. -/
def withoutColon (cs : List Char) : List Char :=
  if cs.getLast? = some ':' then cs.dropLast else cs

/-- The first line of a text, without the characters that end it. -/
def firstLine (cs : List Char) : List Char :=
  let line := cs.takeWhile (· ≠ '\n')
  if line.getLast? = some '\r' then line.dropLast else line

/-- A usage error in short: the first line of its message up to a colon. -/
def summary : UsageError → String
  | .help => "help"
  | .version text => text ++ "\n"
  | e =>
    "usage(" ++ String.ofList (withoutColon (beforeColon (firstLine e.message.toList))) ++ ")"

end UsageError

end Rv64Board.Arguments
