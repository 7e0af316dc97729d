import Rv64Board.Hart.LoadStore
import Rv64Board.Hart.TrapEntry

/-!
# The board as a state

The hart, the bus it drives and the lines sampled from the devices. Instructions change a board in
place, one change after the other; what has been changed before an exception is raised stays
changed.

* `Board`: the state.
* `Board.onBus`: work on the bus, which leaves the rest of the board alone.
* `Board.modifyHart`, `Board.setRegister`, `Board.jump`: changes of the hart.
-/

namespace Rv64Board

/-- The hart with its surroundings. -/
structure Board where
  hart : Hart
  bus : Bus
  cycles : UInt64
  /-- The lines as they were at the end of the last step. -/
  lines : Lines

namespace Board

/-- A board about to execute the instruction at address zero. -/
def ofBus (bus : Bus) : Board :=
  ⟨Hart.atReset 0, bus, 0, Lines.idle⟩

instance : Inhabited Board := ⟨ofBus default⟩

/-- Puts the hart back into its state at reset; the bus stays as it is. -/
def reset (b : Board) (pc : UInt64) : Board :=
  { b with hart := Hart.atReset pc, cycles := 0, lines := Lines.idle }

/-- Adds to the journal. -/
def note (b : Board) (n : Notice) : Board :=
  { b with bus := b.bus.note [n] }

/-- The board with its hart changed. -/
def updateHart (f : Hart → Hart) : Board → Board
  | ⟨hart, bus, cycles, lines⟩ => ⟨f hart, bus, cycles, lines⟩

/-! ## Changes in place -/

/-- The hart as it is now. -/
def getHart : EStateM Exception Board Hart := fun b =>
  .ok b.hart b

/-- Work on the bus of a board. -/
def onBus {α : Type} (x : EStateM Exception Bus α) : EStateM Exception Board α
  | ⟨hart, bus, cycles, lines⟩ =>
    match x bus with
    | .ok a bus => .ok a ⟨hart, bus, cycles, lines⟩
    | .error e bus => .error e ⟨hart, bus, cycles, lines⟩

/-- Changes the hart. -/
def modifyHart (f : Hart → Hart) : EStateM Exception Board Unit := fun b =>
  .ok () (b.updateHart f)

/-- Changes a register. -/
def setRegister (r : Reg) (value : UInt64) : EStateM Exception Board Unit :=
  modifyHart fun h => h.set r value

/-- Moves the program counter. -/
def jump (target : UInt64) : EStateM Exception Board Unit :=
  modifyHart fun h => h.jump target

end Board

end Rv64Board
