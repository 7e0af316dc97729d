import Rv64Board.Cli.Host
import Rv64Board.Cli.Options
import Rv64Board.Debugger.Session

/-!
# The program

What the program does with its options, for any host.

* `drive`: runs a machine in batches, between which input is taken and output printed.
* `debug`: a debugger session.
* `execute`: carries out an action. The result is an exit code, or a `Failure`.
-/

namespace Rv64Board.Cli

open Debugger

/-- Why an action cannot be carried out. -/
inductive Failure
  /-- A file that the machine needs cannot be read. -/
  | unreadable (path : String) (e : FileError)
  /-- The image to list cannot be read. -/
  | noImage (e : FileError)
  | uncreatable (path : String) (e : FileError)
  | memoryTooLarge
  | machine (e : MachineError)
  | unknownShell
  deriving DecidableEq

/-- The wording of a failure. -/
def Failure.message : Failure → String
  | .unreadable path e => "could not read " ++ path ++ ": " ++ e.message
  | .noImage e => e.message
  | .uncreatable path e => "could not create " ++ path ++ ": " ++ e.message
  | .memoryTooLarge => "memory size is too large"
  | .machine e => e.message
  | .unknownShell => "could not guess the shell, pass it as an argument"

variable {m : Type → Type} [Monad m]

/-! ## Reports and output -/

/-- Reports something of interest. -/
def inform (host : Host m) (text : String) : m Unit :=
  host.report ⟨.info, text⟩

/-- Reports entries in order. -/
def reportAll (host : Host m) : List LogEntry → m Unit
  | [] => pure ()
  | e :: es => do
    host.report e
    reportAll host es

/-- Prints bytes, if there are any. -/
def printBytes (host : Host m) (bytes : List UInt8) : m Unit :=
  if bytes.isEmpty then pure () else host.print bytes

/-- Reports the notices of a machine. -/
def reportNotices (host : Host m) (machine : Machine) : m Machine := do
  reportAll host (machine.journal.map Notice.entry)
  pure machine.clearJournal

/-! ## Running -/

/-- How many steps are made between two looks at input and output. -/
def batchSize : Nat := 16384

/-- The size of the next batch when a number of steps remain. -/
def nextBatch (remaining : Option Nat) : Nat :=
  match remaining with
  | none => batchSize
  | some n => min n batchSize

/-- A number of batches or commands that is not reached. -/
def unlimited : Nat := 0x4000000000000000

/-- A number of batches that is enough for a number of steps. -/
def batchesFor : Option Nat → Nat
  | none => unlimited
  | some n => n / batchSize + 1

/-- Passes the input that has arrived on to the machine, and cancels its run when the time is up. -/
def attend (host : Host m) (timeout : Option Nat) (machine : Machine) : m Machine := do
  let bytes ← host.received
  let machine := if bytes.isEmpty then machine else machine.feed bytes
  match timeout with
  | none => pure machine
  | some seconds =>
    if ← host.timeUp seconds then
      host.report ⟨.warn, "Timeout reached timeout=" ++ toString seconds⟩
      pure { machine with cancelled := true }
    else pure machine

/-- Runs a machine until it halts, is cancelled, or has used up its steps; for a given number of
batches at most. -/
def drive (host : Host m) (timeout : Option Nat) :
    Nat → Option Nat → Machine → m (ExitStatus × Machine)
  | 0, _, machine => pure (.stepLimit, machine)
  | batches + 1, remaining, machine => do
    let machine ← attend host timeout machine
    let size := nextBatch remaining
    let (status, machine) := machine.runFor size
    let machine ← reportNotices host machine
    let (output, machine) := machine.drain
    printBytes host output
    match status, remaining with
    | .stepLimit, none => drive host timeout batches none machine
    | .stepLimit, some n =>
      if n - size = 0 then pure (.stepLimit, machine)
      else drive host timeout batches (some (n - size)) machine
    | status, _ => pure (status, machine)

/-! ## Debugging -/

/-- How many steps of a run are made before its output is shown. -/
def sliceSize : Nat := 4096

/-- Shows what has come out of a session. -/
def showSession (host : Host m) (s : Session) : m Session := do
  reportAll host s.log.reverse
  printBytes host s.output.reverse
  pure { s with log := [], output := [] }

/-- Continues a session until it is finished, for a given number of lines and slices at most. -/
def interact (host : Host m) : Nat → Session → m Session
  | 0, s => pure s
  | turns + 1, s => do
    let s ← showSession host s
    if s.finished then pure s
    else if s.running then interact host turns (s.resume sliceSize)
    else
      match ← host.nextLine with
      | none => interact host turns s.endInput
      | some line => interact host turns (s.readLine sliceSize line)

/-- A debugger session. -/
def debug (host : Host m) (machine : Machine) : m (ExitStatus × Machine) := do
  let s ← interact host unlimited (Session.start machine)
  pure (s.status, s.machine)

/-! ## Actions -/

/-- Reads a file that the machine needs. -/
def readFile (host : Host m) (path : String) : ExceptT Failure m (List UInt8) := do
  match ← host.readFile path with
  | .ok content => pure content
  | .error e => throw (.unreadable path e)

/-- A machine with a size of memory in MiB, an image and a disk. -/
def boot (memory : Nat) (image : List UInt8) (disk : Option (List UInt8)) :
    Except Failure Machine := do
  let size := memory * 0x100000
  if UInt64.size ≤ size then throw .memoryTooLarge
  let config := { MachineConfig.default with ramSize := UInt64.ofNat size, disk }
  let machine ← (Machine.new config).mapError Failure.machine
  (machine.load image).mapError Failure.machine

/-- Puts together the machine to run. -/
def prepare (host : Host m) (o : RunOptions) : ExceptT Failure m Machine := do
  ExceptT.lift (inform host ("Reading image path=" ++ o.image))
  let image ← readFile host o.image
  let disk ← o.disk.mapM (readFile host)
  ExceptT.mk (pure (boot o.memory image disk))

/-- Runs a machine or debugs it, and gives back the exit code. -/
def conduct (host : Host m) (o : RunOptions) (machine : Machine) : m Int := do
  let (status, machine) ←
    if o.interactive then debug host machine
    else do
      let machine ← reportNotices host machine
      inform host "Running image"
      drive host o.timeout (batchesFor o.maxSteps) o.maxSteps machine
  inform host
    ("End of program status=" ++ status.describe ++ " cycles=" ++
      toString machine.board.cycles.toNat)
  pure status.code

/-- Runs an image. -/
def run (host : Host m) (o : RunOptions) : ExceptT Failure m Int := do
  let machine ← prepare host o
  ExceptT.lift (conduct host o machine)

/-- The listing of an image as text. -/
def listing (o : DisasmOptions) (image : List UInt8) : String :=
  let lines := disassemble o.base image
  let lines := (o.count.map lines.take).getD lines
  String.join (lines.map fun l => l.render ++ "\n")

/-- Lists the instructions of an image. -/
def disasm (host : Host m) (o : DisasmOptions) : ExceptT Failure m Int := do
  ExceptT.lift (inform host ("Reading image path=" ++ o.image))
  match ← host.readFile o.image with
  | .error e => throw (.noImage e)
  | .ok image =>
    ExceptT.lift (printBytes host (listing o image).toUTF8.data.toList)
    pure 0

/-- The words that a completion script offers: the actions and their options. -/
def completionWords : List String :=
  grammar.commandsWithHelp.map (·.name) ++
    grammar.commands.flatMap fun c => (c.named.filterMap (·.long)).map ("--" ++ ·)

/-- A completion script for a shell. -/
def completionScript (shell : Shell) : String :=
  let words := " ".intercalate (completionWords.eraseDups)
  match shell with
  | .bash => "complete -f -W \"" ++ words ++ "\" " ++ programName ++ "\n"
  | .elvish =>
    "set edit:completion:arg-completer[" ++ programName ++ "] = \x7b|@args| put " ++ words ++
      " \x7d\n"
  | .fish => "complete -c " ++ programName ++ " -a \"" ++ words ++ "\"\n"
  | .powershell =>
    "Register-ArgumentCompleter -Native -CommandName " ++ programName ++
      " -ScriptBlock \x7b -split \"" ++ words ++ "\" \x7d\n"
  | .zsh => "#compdef " ++ programName ++ "\ncompadd -- " ++ words ++ "\n"

/-- Writes a completion script. -/
def completion (host : Host m) (o : CompletionOptions) : ExceptT Failure m Int := do
  match o.shell, o.output with
  | none, _ => throw .unknownShell
  | some shell, none =>
    host.print (completionScript shell).toUTF8.data.toList
    pure 0
  | some shell, some path =>
    match ← host.writeFile path (completionScript shell) with
    | .error e => throw (.uncreatable path e)
    | .ok _ =>
      ExceptT.lift (inform host ("Completions written path=" ++ path ++ " shell=" ++ shell.name))
      pure 0

/-- Carries out an action. -/
def execute (host : Host m) : Action → ExceptT Failure m Int
  | .run o => run host o
  | .disasm o => disasm host o
  | .completion o => completion host o

end Rv64Board.Cli
