import Rv64Board.Device.Exchange

/-!
# The finisher

A device with one register: writing a command to it stops the machine with an exit code. The first
request stands until a reset.
-/

namespace Rv64Board

/-- The finisher and the exit code it was asked for. -/
structure Finisher where
  requested : Option UInt32
  deriving DecidableEq, Inhabited

namespace Finisher

def new : Finisher := ⟨none⟩

/-- The exit code of a command: success and restart exit with zero, failure with the number in the
upper half of the word. -/
def exitCode? (value : UInt64) : Option UInt32 :=
  let command := value &&& 0xFFFF
  if command = 0x5555 ∨ command = 0x7777 then some 0
  else if command = 0x3333 then some ((value >>> 16) &&& 0xFFFF).toUInt32
  else none

/-- Every register reads as zero. -/
def read (d : Finisher) (_offset : UInt64) (_w : Width) : Reply Finisher :=
  ⟨0, d, none⟩

def write (d : Finisher) (offset : UInt64) (_w : Width) (value : UInt64) : Effect Finisher :=
  if offset ≠ 0 then ⟨d, some (.unknownWrite .finisher offset value)⟩
  else
    match exitCode? value with
    | some code => ⟨⟨d.requested <|> some code⟩, some (.haltRequested code)⟩
    | none => ⟨d, some (.unknownCommand value)⟩

/-- Raises the halt request, unless one is already up. -/
def tick (d : Finisher) (lines : Lines) : Lines :=
  { lines with halt := lines.halt <|> d.requested }

end Finisher

end Rv64Board
