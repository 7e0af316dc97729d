import Rv64Board.Arguments.Matching
import Rv64Board.Csr.Basic
import Rv64Board.Debugger.Expression

/-!
# Commands of the debugger

* `Command`: what the debugger can be asked to do.
* `grammar`: how commands are written. Names can be shortened as long as one command is meant.
* `Command.parse`: the command that the words of a line stand for.
-/

namespace Rv64Board.Debugger

open Arguments

/-- What the session can be asked about. -/
inductive Question
  | breakpoints
  | cycles
  | privilege
  deriving DecidableEq

/-- What the debugger can be asked to do. -/
inductive Command
  /-- Execute a number of steps. -/
  | step (count : Nat)
  /-- Execute up to a breakpoint or the end. -/
  | resume
  /-- Show one register or all of them. -/
  | registers (r : Option Reg)
  /-- Show a control and status register. -/
  | csr (c : Csr)
  /-- Show doublewords in memory. -/
  | memory (address : Expression) (count : Nat)
  /-- Assign a value. -/
  | set (target : Target) (value : Expression)
  /-- Show instructions. -/
  | list (count : Nat)
  /-- Set a breakpoint. -/
  | breakAt (address : Expression)
  /-- Remove a breakpoint. -/
  | unbreak (address : Expression)
  /-- Send text to the serial line, with or without the end of a line. -/
  | input (text : List String) (raw : Bool)
  /-- Answer one question about the session, or all. -/
  | info (question : Option Question)
  /-- End the session. -/
  | exit
  deriving DecidableEq

/-! ## Grammar -/

/-- A count that fits in a 64-bit word. -/
def count? (s : String) : Option Nat :=
  (Text.readUnsigned 10 UInt64.size s).toOption

/-- An optional count. -/
def countParameter : Parameter :=
  { id := "number", kind := .positional, accepts := fun s => (count? s).isSome }

/-- A required expression for an address. -/
def addressParameter : Parameter :=
  { id := "address", kind := .positional, required := true,
    accepts := fun s => (Expression.parse? s).isSome }

def registerParameter : Parameter :=
  { id := "register", kind := .positional, accepts := fun s => (Reg.parse? s).isSome }

def csrParameter : Parameter :=
  { id := "csr", kind := .positional, required := true, accepts := fun s => (Csr.parse? s).isSome }

def targetParameter : Parameter :=
  { id := "target", kind := .positional, required := true,
    accepts := fun s => (Target.parse? s).isSome }

def valueParameter : Parameter :=
  { id := "value", kind := .positional, required := true, negative := true,
    accepts := fun s => (Expression.parse? s).isSome }

def textParameter : Parameter :=
  { id := "text", kind := .remaining }

def rawParameter : Parameter :=
  { id := "raw", kind := .flag, short := some 'r', long := some "raw" }

/-- How the commands are written. -/
def grammar : CommandGrammar :=
  .mk "" [] []
    [.mk "step" ["s"] [countParameter] [] true false,
      .mk "continue" ["c"] [] [] true false,
      .leaf "registers" [registerParameter],
      .leaf "csr" [csrParameter],
      .leaf "memory" [addressParameter, countParameter],
      .leaf "set" [targetParameter, valueParameter],
      .leaf "list" [countParameter],
      .leaf "break" [addressParameter],
      .leaf "unbreak" [addressParameter],
      .leaf "input" [textParameter, rawParameter],
      .mk "info" [] [] [.leaf "breakpoints" [], .leaf "cycles" [], .leaf "privilege" []] true false,
      .leaf "exit" []]
    true true

/-! ## Reading a command -/

/-- The count among the arguments of a command, or a default. -/
def countOr (g : Given) (default : Nat) : Nat :=
  ((g.value? "number").bind count?).getD default

/-- An expression among the arguments of a command. -/
def expression? (g : Given) (id : String) : Option Expression :=
  (g.value? id).bind Expression.parse?

/-- The question that a command below `info` stands for. -/
def question? (g : Given) : Option Question :=
  match g.command with
  | some ("breakpoints", _) => some .breakpoints
  | some ("cycles", _) => some .cycles
  | some ("privilege", _) => some .privilege
  | _ => none

/-- The command with a name and arguments that the grammar accepts. -/
def Command.ofGiven? (name : String) (g : Given) : Option Command :=
  match name with
  | "step" => some (.step (countOr g 1))
  | "continue" => some .resume
  | "registers" => some (.registers ((g.value? "register").bind Reg.parse?))
  | "csr" => ((g.value? "csr").bind Csr.parse?).map .csr
  | "memory" => (expression? g "address").map fun a => .memory a (countOr g 1)
  | "set" =>
    match (g.value? "target").bind Target.parse?, expression? g "value" with
    | some target, some value => some (.set target value)
    | _, _ => none
  | "list" => some (.list (countOr g 10))
  | "break" => (expression? g "address").map .breakAt
  | "unbreak" => (expression? g "address").map .unbreak
  | "input" => some (.input (g.all "text") (g.has "raw"))
  | "info" => some (.info (question? g))
  | "exit" => some .exit
  | _ => none

/-- The command that the words of a line stand for. -/
def Command.parse (words : List String) : Except UsageError Command :=
  match Arguments.parse grammar words with
  | .error e => .error e
  | .ok given =>
    match given.command with
    | some (name, g) =>
      match Command.ofGiven? name g with
      | some c => .ok c
      | none => .error .help
    | none => .error .help

end Rv64Board.Debugger
