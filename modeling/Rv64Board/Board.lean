import Rv64Board.Board.Execute

/-!
# The board

The hart, the bus it drives and the lines sampled from the devices. One step executes an
instruction, lets the devices take a step and takes a pending interrupt.

* `Board.step`: one step, with the verdict whether the board runs on.
* A board halts when software asks for it through a device, or when an instruction jumps to itself
  and nothing could ever interrupt it.
-/

namespace Rv64Board

/-- Whether a board goes on after a step. -/
inductive Verdict
  | running
  | halted (code : UInt32)
  deriving DecidableEq, Inhabited

namespace Board

/-- Counts a completed instruction, unless the counter is inhibited. -/
def retire (h : Hart) : Hart :=
  if h.csrs.mcountinhibit &&& 4 = 0 then
    { h with csrs := { h.csrs with minstret := h.csrs.minstret + 1 } }
  else h

/-- Counts a cycle, unless the counter is inhibited. -/
def countCycle (h : Hart) : Hart :=
  if h.csrs.mcountinhibit &&& 1 = 0 then
    { h with csrs := { h.csrs with mcycle := h.csrs.mcycle + 1 } }
  else h

/-- The hart with the lines sampled. -/
def sample (h : Hart) (lines : Lines) : Hart :=
  { h with csrs := { h.csrs with hardwareMip := lines.mip, time := lines.mtime } }

/-- Takes the pending interrupt, if there is one. -/
def interrupt (h : Hart) : Hart :=
  match h.csrs.pendingInterrupt? h.privilege with
  | some i => h.trap (.interrupt i)
  | none => h

/-- Fetches and executes an instruction. -/
def executeNext : EStateM Exception Board Instruction := do
  let h ← getHart
  let f ← onBus h.fetch
  execute f.instruction f.raw f.len
  return f.instruction

/-- An instruction that jumped to itself while no interrupt could be taken. -/
def stuck (i : Instruction) (pc : UInt64) (h : Hart) : Bool :=
  i.isControlTransfer && h.pc == pc && !h.interruptsPossible

/-- The rest of a step after the instruction: the cycle is counted, the devices take a step and the
lines are sampled. An interrupt is taken unless the instruction has already trapped. -/
def finishStep (trapped : Bool) : Board → Verdict × Board
  | ⟨hart, bus, cycles, lines⟩ =>
    let (bus, lines) := bus.tick lines
    let hart := sample (countCycle hart) lines
    match lines.halt with
    | some code => (.halted code, ⟨hart, bus, cycles + 1, lines⟩)
    | none =>
      (.running, ⟨if trapped then hart else interrupt hart, bus, cycles + 1, lines⟩)

/-- One step. -/
def step (b : Board) : Verdict × Board :=
  let pc := b.hart.pc
  match executeNext b with
  | .error e b => finishStep true (b.updateHart fun h => h.trap (.exception e))
  | .ok i b =>
    let b := b.updateHart retire
    if stuck i pc b.hart then (.halted 0, b.note (.stuck pc))
    else finishStep false b

/-- The board on one line. -/
def summary (b : Board) : String :=
  "Computer \x7b registers: " ++ b.hart.registers.summary ++ ", privilege: " ++
    b.hart.privilege.letter ++ ", cycles: " ++ toString b.cycles.toNat ++ ", bus: " ++
    b.bus.summary ++ " \x7d"

end Board

end Rv64Board
