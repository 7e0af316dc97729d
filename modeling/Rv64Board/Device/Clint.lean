import Rv64Board.Device.Exchange
import Rv64Board.Trap

/-!
# The core-local interruptor

The machine timer with its comparator, and a register that raises the software interrupt. The timer
advances by a fixed amount at every step.
-/

namespace Rv64Board

/-- The machine timer and the software interrupt of the hart. -/
structure Clint where
  msip : UInt64
  mtimecmp : UInt64
  mtime : UInt64
  /-- How much the timer advances at a step. -/
  increment : UInt64
  deriving DecidableEq, Inhabited

namespace Clint

/-- The state at reset: the timer starts at zero and the comparator is out of reach. -/
def new (increment : UInt64) : Clint :=
  ⟨0, 0xFFFFFFFFFFFFFFFF, 0, increment⟩

/-- The registers by offset; each holds the distance from its first byte. -/
inductive Location
  | msip (distance : UInt64)
  | mtimecmp (distance : UInt64)
  | mtime (distance : UInt64)
  | unknown

/-- The register that an offset falls into. -/
def locate (offset : UInt64) : Location :=
  if offset ≤ 0x3 then .msip offset
  else if 0x4000 ≤ offset ∧ offset ≤ 0x4007 then .mtimecmp (offset - 0x4000)
  else if 0xBFF8 ≤ offset ∧ offset ≤ 0xBFFF then .mtime (offset - 0xBFF8)
  else .unknown

def read (d : Clint) (offset : UInt64) (w : Width) : Reply Clint :=
  match locate offset with
  | .msip distance => ⟨readPart d.msip distance w, d, none⟩
  | .mtimecmp distance => ⟨readPart d.mtimecmp distance w, d, none⟩
  | .mtime distance => ⟨readPart d.mtime distance w, d, none⟩
  | .unknown => ⟨0, d, some (.unknownRead .clint offset)⟩

def write (d : Clint) (offset : UInt64) (w : Width) (value : UInt64) : Effect Clint :=
  match locate offset with
  | .msip distance => ⟨{ d with msip := writePart d.msip distance w value &&& 1 }, none⟩
  | .mtimecmp distance => ⟨{ d with mtimecmp := writePart d.mtimecmp distance w value }, none⟩
  | .mtime distance => ⟨{ d with mtime := writePart d.mtime distance w value }, none⟩
  | .unknown => ⟨d, some (.unknownWrite .clint offset value)⟩

/-- The pending bits that the interruptor drives. -/
def driven (d : Clint) : UInt64 :=
  (if d.msip &&& 1 = 0 then 0 else Interrupt.machineSoftware.mask) |||
    (if d.mtimecmp ≤ d.mtime then Interrupt.machineTimer.mask else 0)

/-- Advances the timer and drives the lines from the new value. -/
def tick (d : Clint) (lines : Lines) : Clint × Lines :=
  let d := { d with mtime := d.mtime + d.increment }
  (d, { lines with mtime := d.mtime, mip := lines.mip ||| d.driven })

/-- The state at reset, at the same speed. -/
def reset (d : Clint) : Clint :=
  new d.increment

end Clint

end Rv64Board
