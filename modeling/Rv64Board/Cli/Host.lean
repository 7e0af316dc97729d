import Rv64Board.Notice

/-!
# What the program needs from its host

The program reads files, takes input, reports and prints. `Host` lists these services for any monad
that can provide them, so that one definition of the program serves a real terminal as well as a
written record of what would happen.
-/

namespace Rv64Board.Cli

/-- Why a file cannot be read or written. -/
inductive FileError
  | notFound
  /-- A part of the path in front of the last is a file. -/
  | notADirectory
  | isADirectory
  | nameTooLong
  /-- The path holds a character that no path can hold. -/
  | nulInName
  /-- Any other reason, in the words of the host. -/
  | other (text : String)
  deriving DecidableEq

/-- The wording of a file error. -/
def FileError.message : FileError → String
  | .notFound => "No such file or directory (os error 2)"
  | .notADirectory => "Not a directory (os error 20)"
  | .isADirectory => "Is a directory (os error 21)"
  | .nameTooLong => "File name too long (os error 36)"
  | .nulInName => "file name contained an unexpected NUL byte"
  | .other text => text

/-- The services of a host. -/
structure Host (m : Type → Type) where
  /-- The content of a file. -/
  readFile : String → m (Except FileError (List UInt8))
  /-- Creates a file with a content. -/
  writeFile : String → String → m (Except FileError Unit)
  /-- Reports something. -/
  report : LogEntry → m Unit
  /-- Prints what software wrote to the serial line, or a listing. -/
  print : List UInt8 → m Unit
  /-- The next line of the input with the characters that end it; none at the end of the input. -/
  nextLine : m (Option String)
  /-- The bytes of the input that have arrived since they were last asked for. -/
  received : m (List UInt8)
  /-- Whether a number of seconds have passed. -/
  timeUp : Nat → m Bool

end Rv64Board.Cli
