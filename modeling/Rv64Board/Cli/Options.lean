import Rv64Board.Arguments.Matching
import Rv64Board.Debugger.Expression
import Rv64Board.Machine

/-!
# Options of the program

* `Options`: what the program is asked to do, and how it reports.
* `grammar`: how that is written on the command line. The options about reporting can stand before
  and after the name of the action; after it they count if they are given in both places.
* `Options.parse`: the options that a command line stands for.
-/

namespace Rv64Board.Cli

open Arguments

/-! ## Actions -/

/-- The shells that there are completion scripts for. -/
inductive Shell
  | bash
  | elvish
  | fish
  | powershell
  | zsh
  deriving DecidableEq

namespace Shell

def name : Shell → String
  | .bash => "bash"
  | .elvish => "elvish"
  | .fish => "fish"
  | .powershell => "powershell"
  | .zsh => "zsh"

def all : List Shell :=
  [.bash, .elvish, .fish, .powershell, .zsh]

/-- The shell with a given name. -/
def parse? (s : String) : Option Shell :=
  all.find? fun shell => shell.name == s

end Shell

/-- How to run an image. -/
structure RunOptions where
  image : String
  /-- The file that holds the content of the disk. -/
  disk : Option String
  /-- The size of memory in MiB. -/
  memory : Nat
  maxSteps : Option Nat
  /-- The time limit in seconds. -/
  timeout : Option Nat
  /-- Start a debugger session instead of just running. -/
  interactive : Bool
  deriving DecidableEq

/-- How to list the instructions of an image. -/
structure DisasmOptions where
  image : String
  /-- The address of the first byte. -/
  base : UInt64
  /-- How many instructions to list at most. -/
  count : Option Nat
  deriving DecidableEq

/-- How to write a completion script. -/
structure CompletionOptions where
  shell : Option Shell
  /-- The file to write to. -/
  output : Option String
  deriving DecidableEq

/-- What the program can be asked to do. -/
inductive Action
  | run (o : RunOptions)
  | disasm (o : DisasmOptions)
  | completion (o : CompletionOptions)
  deriving DecidableEq

/-- What the program is asked to do, and how it reports. -/
structure Options where
  /-- How much to report. -/
  verbosity : Nat
  /-- Report in color, whatever the terminal. -/
  color : Bool
  /-- Report without color, whatever the terminal. -/
  noColor : Bool
  /-- Report as JSON. -/
  json : Bool
  action : Action
  deriving DecidableEq

namespace Options

/-- Which reports are shown, by their source and level. -/
def logFilter (o : Options) : String :=
  match o.verbosity with
  | 0 => "info"
  | 1 => "rivet_emulator=debug,rivet_cli=debug,info"
  | 2 => "rivet_emulator=trace,rivet_cli=trace,info"
  | 3 => "rivet_emulator=trace,rivet_cli=trace,debug"
  | _ => "trace"

/-- Whether to report in color, if that does not depend on the terminal. -/
def color? (o : Options) : Option Bool :=
  if o.color then some true else if o.noColor then some false else none

end Options

/-! ## Grammar -/

/-- A number that fits in a 64-bit word. -/
def number? (s : String) : Option Nat :=
  (Text.readUnsigned 10 UInt64.size s).toOption

/-- The arguments about reporting. The formats exclude each other. -/
def reporting : List Parameter :=
  [{ id := "verbose", kind := .counter, short := some 'v', long := some "verbose" },
    { id := "color", kind := .flag, short := some 'c', long := some "color",
      group := some "format" },
    { id := "no_color", kind := .flag, short := some 'C', long := some "no-color",
      group := some "format" },
    { id := "json", kind := .flag, short := some 'j', long := some "json",
      group := some "format" }]

/-- The name of the program. -/
def programName : String := "rivet"

/-- The name and the version of the program. -/
def programVersion : String := programName ++ " 0.1.0"

def versionFlag : Parameter :=
  { id := "version", kind := .version programVersion, short := some 'V', long := some "version" }

def imageParameter : Parameter :=
  { id := "image", kind := .positional, required := true }

/-- An option whose value is a number. -/
def numberOption (id long : String) (short : Option Char) : Parameter :=
  { id, kind := .option, short, long := some long, accepts := fun s => (number? s).isSome }

/-- An option whose value is a path. -/
def pathOption (id : String) (short : Char) : Parameter :=
  { id, kind := .option, short := some short, long := some id }

def baseOption : Parameter :=
  { id := "base", kind := .option, short := some 'b', long := some "base",
    accepts := fun s => (Debugger.parseNumber s).isOk }

def interactiveFlag : Parameter :=
  { id := "interactive", kind := .flag, short := some 'i', long := some "interactive" }

def shellParameter : Parameter :=
  { id := "shell", kind := .positional, choice := true,
    accepts := fun s => (Shell.parse? s).isSome }

/-- How the program is called. -/
def grammar : CommandGrammar :=
  .mk programName [] (reporting ++ [versionFlag])
    [.leaf "run"
      ([imageParameter, pathOption "disk" 'd', numberOption "memory" "memory" (some 'm'),
        numberOption "max_steps" "max-steps" none, numberOption "timeout" "timeout" none,
        interactiveFlag] ++ reporting),
      .leaf "disasm"
        ([imageParameter, baseOption, numberOption "count" "count" (some 'n')] ++ reporting),
      .leaf "completion" ([shellParameter, pathOption "output" 'o'] ++ reporting)]
    false true

/-- The help text. -/
def usage : String :=
  "\n".intercalate
    ["Usage: " ++ programName ++ " [-v] [-c | -C | -j] <COMMAND>",
      "",
      "  run <IMAGE> [-d DISK] [-m MEMORY] [--max-steps N] [--timeout SECONDS] [-i]",
      "      Boot a raw image and run it until it halts",
      "  disasm <IMAGE> [-b BASE] [-n COUNT]",
      "      Disassemble a raw image",
      "  completion [SHELL] [-o OUTPUT]",
      "      Generate shell completions"]

/-! ## Reading the options -/

/-- A number among the arguments. -/
def numberOf? (g : Given) (id : String) : Option Nat :=
  (g.value? id).bind number?

/-- The size of memory in MiB unless told otherwise. -/
def defaultMemory : Nat := 128

/-- The action with a name and arguments that the grammar accepts. -/
def Action.ofGiven? (name : String) (g : Given) : Option Action :=
  match name with
  | "run" =>
    (g.value? "image").map fun image =>
      .run
        { image
          disk := g.value? "disk"
          memory := (numberOf? g "memory").getD defaultMemory
          maxSteps := numberOf? g "max_steps"
          timeout := numberOf? g "timeout"
          interactive := g.has "interactive" }
  | "disasm" =>
    (g.value? "image").map fun image =>
      .disasm
        { image
          base :=
            ((g.value? "base").bind fun s => (Debugger.parseNumber s).toOption).getD defaultRamBase
          count := numberOf? g "count" }
  | "completion" =>
    some (.completion
      { shell := (g.value? "shell").bind Shell.parse?, output := g.value? "output" })
  | _ => none

/-- The values of an argument that can stand before and after the name of the action. -/
def globalValues (outer inner : Given) (id : String) : List String :=
  if inner.has id then inner.all id else outer.all id

/-- The options that a command line stands for. -/
def Options.parse (words : List String) : Except UsageError Options :=
  match Arguments.parse grammar words with
  | .error e => .error e
  | .ok outer =>
    match outer.command with
    | none => .error .help
    | some (name, inner) =>
      match Action.ofGiven? name inner with
      | none => .error .help
      | some action =>
        let values := globalValues outer inner
        .ok
          { verbosity := (values "verbose").length
            color := !(values "color").isEmpty
            noColor := !(values "no_color").isEmpty
            json := !(values "json").isEmpty
            action }

end Rv64Board.Cli
