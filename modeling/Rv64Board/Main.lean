import Rv64Board.Cli.LogFormat
import Rv64Board.Cli.Program

/-!
# The command line

The terminal as a host of the program. Standard output belongs to the serial line, so reports go to
standard error.
-/

namespace Rv64Board.Cli

/-- A file error from the error of a system call. -/
def FileError.ofSystem : IO.Error → FileError
  | .noFileOrDirectory .. => .notFound
  | .inappropriateType _ 20 _ => .notADirectory
  | .inappropriateType _ 21 _ => .isADirectory
  | .invalidArgument _ 36 _ => .nameTooLong
  | e => .other (toString e)

/-- A system call on a file. -/
def fileAction {α : Type} (action : IO α) : IO (Except FileError α) := do
  match ← action.toBaseIO with
  | .ok a => pure (.ok a)
  | .error e => pure (.error (FileError.ofSystem e))

/-- Collects the input as it arrives, until it ends. -/
partial def collectInput (input : IO.FS.Stream) (arrived : IO.Ref (List UInt8)) : IO Unit := do
  let bytes ← input.read 1
  if bytes.isEmpty then pure ()
  else
    arrived.modify (bytes.toList.reverse ++ ·)
    collectInput input arrived

/-- The bytes that have arrived, in order; the collector is started when they are first asked
for. -/
def takeArrived (input : IO.FS.Stream) (started : IO.Ref Bool) (arrived : IO.Ref (List UInt8)) :
    IO (List UInt8) := do
  unless ← started.get do
    started.set true
    let _ ← IO.asTask (collectInput input arrived) Task.Priority.dedicated
  let bytes ← arrived.modifyGet fun bytes => (bytes, [])
  pure bytes.reverse

/-- The terminal as a host. -/
def terminal (format : LogFormat) : IO (Host IO) := do
  let input ← IO.getStdin
  let output ← IO.getStdout
  let errors ← IO.getStderr
  let started ← IO.mkRef false
  let arrived ← IO.mkRef []
  let begun ← IO.monoMsNow
  pure
    { readFile := fun path => fileAction do
        let content ← IO.FS.readBinFile path
        pure content.toList
      writeFile := fun path content => fileAction (IO.FS.writeFile path content)
      report := fun entry => errors.putStrLn (format.render entry)
      print := fun bytes => do
        output.write (ByteArray.mk bytes.toArray)
        output.flush
      nextLine := do
        let line ← input.getLine
        pure (if line.isEmpty then none else some line)
      received := takeArrived input started arrived
      timeUp := fun seconds => do
        let now ← IO.monoMsNow
        pure (begun + 1000 * seconds ≤ now) }

/-- Carries out the action of the options, and gives back the exit code. -/
def perform (o : Options) : IO UInt32 := do
  let colors ← (← IO.getStderr).isTty
  let host ← terminal (o.logFormat colors)
  match ← execute host o.action with
  | .ok code => pure (UInt32.ofNat (code % UInt32.size).toNat)
  | .error failure =>
    IO.eprintln ("ERROR " ++ failure.message)
    pure 1

end Rv64Board.Cli

/-- The command line. -/
def main (args : List String) : IO UInt32 := do
  match Rv64Board.Cli.Options.parse args with
  | .ok o => Rv64Board.Cli.perform o
  | .error .help =>
    IO.println Rv64Board.Cli.usage
    pure 0
  | .error (.version text) =>
    IO.println text
    pure 0
  | .error e =>
    IO.eprintln ("error: " ++ e.message)
    pure 2
