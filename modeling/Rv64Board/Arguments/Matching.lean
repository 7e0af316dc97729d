import Rv64Board.Arguments.Grammar

/-!
# Matching a command line against a grammar

The words of a command line are read from left to right. A word is a command, an option or a value,
in this order of preference; after a word `--` every word is a value.

* `Given`: the arguments that were found, and the command below with its own.
* `parse`: the arguments of a command line, or the first thing that is wrong with it.

A value is checked when the next argument begins, and an unexpected word is reported before that; so
an unexpected word wins over an invalid value in front of it.
-/

namespace Rv64Board.Arguments

/-- The arguments found on a command line. -/
inductive Given
  | mk (values : List (String × List String)) (command : Option (String × Given))

namespace Given

def values : Given → List (String × List String)
  | .mk values _ => values

/-- The command below that was given, with its arguments. -/
def command : Given → Option (String × Given)
  | .mk _ command => command

/-- The values of an argument; flags and counters have an empty one for each time. -/
def all (g : Given) (id : String) : List String :=
  ((g.values.find? fun v => v.1 == id).map Prod.snd).getD []

/-- The value of an argument that was given. -/
def value? (g : Given) (id : String) : Option String :=
  (g.all id).head?

/-- Whether an argument was given. -/
def has (g : Given) (id : String) : Bool :=
  g.values.any fun v => v.1 == id

end Given

/-- An argument whose values are still being collected, last first. -/
structure Pending where
  parameter : Parameter
  values : List String

/-- How far the command line of a command has been read. -/
structure Progress where
  grammar : CommandGrammar
  /-- The arguments that are complete, in order. -/
  values : List (String × List String)
  pending : Option Pending
  /-- The pending argument is an option that waits for its value. -/
  awaiting : Bool
  /-- How many positional arguments have been begun. -/
  position : Nat
  /-- Every further word is a value. -/
  escaped : Bool

namespace Progress

/-- Nothing has been read. -/
def start (grammar : CommandGrammar) : Progress :=
  ⟨grammar, [], none, false, 0, false⟩

/-- The error of a value that an argument does not accept. -/
def refusal (p : Parameter) (value : String) : UsageError :=
  if p.choice && value.isEmpty then .missingValue p.shown else .invalidValue value p.shown

/-- The values of an argument so far. -/
def valuesOf (s : Progress) (p : Parameter) : List String :=
  ((s.values.find? fun v => v.1 == p.id).map Prod.snd).getD []

/-- Adds a complete argument. Only counters, and words collected to the end of the line, can be
given more than once. -/
def record (s : Progress) (p : Parameter) (values : List String) : Except UsageError Progress :=
  let repeatable := p.kind = .counter || p.kind = .remaining
  if !repeatable && s.values.any fun v => v.1 == p.id then .error (.repeated p.shown)
  else
    match values.find? fun v => !p.accepts v with
    | some bad => .error (refusal p bad)
    | none =>
      let total := s.valuesOf p ++ values
      let total := if p.kind = .counter then total.take 255 else total
      .ok { s with values := s.values.filter (fun v => v.1 != p.id) ++ [(p.id, total)] }

/-- Completes the argument whose values were being collected. -/
def resolve (s : Progress) : Except UsageError Progress :=
  match s.pending with
  | none => .ok s
  | some ⟨p, []⟩ => .error (.missingValue p.shown)
  | some ⟨p, values⟩ => { s with pending := none, awaiting := false }.record p values.reverse

/-- Takes note of a name that is not followed by a value. -/
def react (s : Progress) (p : Parameter) : Except UsageError Progress :=
  match s.resolve with
  | .error e => .error e
  | .ok s =>
    match p.kind with
    | .help => .error .help
    | .version text => .error (.version text)
    | _ => s.record p [""]

/-- Takes note of an option, with its value if that is attached to it. -/
def openOption (s : Progress) (p : Parameter) (attached : Option String) :
    Except UsageError Progress :=
  match s.resolve, attached with
  | .error e, _ => .error e
  | .ok s, some value => s.record p [value]
  | .ok s, none => .ok { s with pending := some ⟨p, []⟩, awaiting := true }

/-- Reads an option by its long name, with what follows an equals sign. -/
def readLong (s : Progress) (name : String) (attached : Option String) :
    Except UsageError Progress :=
  match s.grammar.named.find? fun p => p.long == some name with
  | none => .error (.unexpectedArgument ("--" ++ name))
  | some p =>
    if p.takesValue then s.openOption p attached
    else
      match attached with
      | some value => .error (.unexpectedValue value p.shown)
      | none => s.react p

/-- The value attached to a short option: the rest of the word, an equals sign in front of it left
out. -/
def attachedShort : List Char → Option String
  | [] => none
  | '=' :: rest => some (String.ofList rest)
  | rest => some (String.ofList rest)

/-- Reads a row of short options from one word; the first that takes a value takes the rest. -/
def readShort : List Char → Progress → Except UsageError Progress
  | [], s => .ok s
  | c :: cs, s =>
    match s.grammar.named.find? fun p => p.short == some c with
    | none => .error (.unexpectedArgument (String.ofList ['-', c]))
    | some p =>
      if p.takesValue then s.openOption p (attachedShort cs)
      else
        match s.react p with
        | .error e => .error e
        | .ok s => readShort cs s

/-- The characters of a number that may follow a minus sign: digits, one point after the first of
them, and one exponent mark that is neither first nor last. -/
def isNumeric (first pointSeen markSeen : Bool) : List Char → Bool
  | [] => true
  | c :: cs =>
    if c.isDigit then isNumeric false pointSeen markSeen cs
    else if c = '.' then !first && !pointSeen && !markSeen && isNumeric false true markSeen cs
    else if c = 'e' || c = 'E' then
      !first && !markSeen && !cs.isEmpty && isNumeric false pointSeen true cs
    else false

/-- The positional argument that the next value belongs to. -/
def nextPositional? (s : Progress) : Option Parameter :=
  s.grammar.positionals[s.position]?

/-- The values of a long option's word: the name and what follows the first equals sign. -/
def splitEquals (cs : List Char) : String × Option String :=
  let name := cs.takeWhile (· ≠ '=')
  match cs.dropWhile (· ≠ '=') with
  | [] => (String.ofList name, none)
  | _ :: rest => (String.ofList name, some (String.ofList rest))

/-- Reads a word as an option; `none` if it is a value. -/
def readOption? (s : Progress) (word : String) : Option (Except UsageError Progress) :=
  match word.toList with
  | '-' :: '-' :: rest =>
    let (name, attached) := splitEquals rest
    some (s.readLong name attached)
  | '-' :: c :: cs =>
    let negative := (s.nextPositional?.map Parameter.negative).getD false
    if negative && isNumeric true false false (c :: cs) then none
    else some (readShort (c :: cs) s)
  | _ => none

/-- The pending argument collects all remaining words. -/
def collecting (s : Progress) : Bool :=
  match s.pending with
  | some ⟨p, _⟩ => p.kind = .remaining
  | none => false

/-- Reads a word as the value of an option or of a positional argument. -/
def readValue (s : Progress) (word : String) : Except UsageError Progress :=
  match s.awaiting && !s.escaped, s.pending with
  | true, some ⟨p, values⟩ => .ok { s with pending := some ⟨p, word :: values⟩, awaiting := false }
  | _, _ =>
    match s.nextPositional? with
    | none =>
      if s.escaped && (s.grammar.resolve? word).isSome then .error (.unexpectedArgument word)
      else if !s.grammar.commands.isEmpty then .error (.unrecognizedCommand word)
      else .error (.unexpectedArgument word)
    | some p =>
      if s.collecting then
        .ok { s with pending := s.pending.map fun q => { q with values := word :: q.values } }
      else
        match s.resolve with
        | .error e => .error e
        | .ok s =>
          .ok { s with
            pending := some ⟨p, [word]⟩
            position := if p.kind = .remaining then s.position else s.position + 1 }

/-- The first argument of a group that is given together with others of it. -/
def conflict? (s : Progress) : Option UsageError :=
  let present := s.values.filterMap fun v => s.grammar.parameters.find? fun p => p.id == v.1
  present.findSome? fun p =>
    let others := present.filter fun q => p.group.isSome && q.group == p.group && q.id != p.id
    if others.isEmpty then none else some (.conflict p.shown (others.map Parameter.shown))

/-- A required argument is missing. -/
def incomplete (s : Progress) : Bool :=
  s.grammar.parameters.any fun p => p.required && !s.values.any fun v => v.1 == p.id

/-- The error of a command without one of the commands below it, which it needs: its help text is
all that can be given if nothing else was asked of it either. -/
def withoutCommand (s : Progress) : UsageError :=
  if s.values.isEmpty then .help else .missingCommand s.grammar.name

/-- Completes a command at the end of its words. -/
def finish (s : Progress) (command : Option (String × Given)) : Except UsageError Given :=
  match s.resolve with
  | .error e => .error e
  | .ok s =>
    if s.grammar.needsCommand && command.isNone then .error s.withoutCommand
    else
      match s.conflict? with
      | some e => .error e
      | none =>
        if s.incomplete then .error .missingArguments else .ok (.mk s.values command)

end Progress

/-- The error of asking for the help text of a command: the help itself, unless there is no such
command. -/
def helpOn : CommandGrammar → List String → UsageError
  | _, [] => .help
  | g, word :: words =>
    match g.find? word with
    | some c => helpOn c words
    | none => .unrecognizedCommand word

/-- Reads the words of a command from left to right. -/
def read : List String → Progress → Except UsageError Given
  | [], s => s.finish none
  | word :: words, s =>
    let command :=
      if s.escaped || s.awaiting || s.collecting then none else s.grammar.resolve? word
    match command with
    | some c =>
      if c.name == "help" then .error (helpOn s.grammar words)
      else
        match read words (Progress.start c) with
        | .error e => .error e
        | .ok given => s.finish (some (c.name, given))
    | none =>
      if s.escaped then
        match s.readValue word with
        | .error e => .error e
        | .ok s => read words s
      else if word == "--" then read words { s with escaped := true }
      else
        match s.readOption? word with
        | some (.error e) => .error e
        | some (.ok s) => read words s
        | none =>
          match s.readValue word with
          | .error e => .error e
          | .ok s => read words s

/-- The arguments of a command line. -/
def parse (g : CommandGrammar) (words : List String) : Except UsageError Given :=
  read words (Progress.start g)

end Rv64Board.Arguments
