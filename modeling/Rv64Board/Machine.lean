import Rv64Board.Board

/-!
# The machine

A board put together from a description, with an image in memory, that can be run.

* `MachineConfig` and `Machine.new`: the description and the machine built from it. Unsuitable
  memory is refused with a reason.
* `Machine.load`: a power cycle, then the image at the start of memory.
* `Machine.step`, `Machine.runFor`, `Machine.runWithin`, `Machine.runUntil`: one step, a bounded
  run, a run until something ends it, and a run up to an address.
* `Machine.feed`, `Machine.pop`, `Machine.drain`: the host's side of the serial line.
-/

namespace Rv64Board

/-! ## Addresses of the board -/

/-- Where memory starts unless told otherwise; images are loaded and started there. -/
def defaultRamBase : UInt64 := 0x80000000

/-- The size of memory unless told otherwise: 128 MiB. -/
def defaultRamSize : UInt64 := 0x8000000

/-- The largest memory that a machine can have: 4 GiB. -/
def maxRamSize : UInt64 := 0x100000000

def finisherBase : UInt64 := 0x100000
def finisherSize : UInt64 := 0x1000
def clintBase : UInt64 := 0x2000000
def clintSize : UInt64 := 0x10000
def plicBase : UInt64 := 0xC000000
def plicSize : UInt64 := 0x4000000
def uartBase : UInt64 := 0x10000000
def uartSize : UInt64 := 0x100
def virtioBase : UInt64 := 0x10001000
def virtioSize : UInt64 := 0x1000

/-- The serial line on a bus. -/
def Bus.uart (b : Bus) : Uart :=
  match b.device? uartBase with
  | some (.uart u) => u
  | _ => Uart.new

/-! ## Building a machine -/

/-- The description of a machine. -/
structure MachineConfig where
  ramBase : UInt64
  ramSize : UInt64
  /-- The content of the disk, if there is one. -/
  disk : Option (List UInt8)
  /-- How much the machine timer advances at a step. -/
  timerIncrement : UInt64

/-- The usual machine, without a disk. -/
def MachineConfig.default : MachineConfig :=
  ⟨defaultRamBase, defaultRamSize, none, 1⟩

/-- What is wrong with the memory of a description. -/
inductive RamProblem
  | empty
  | tooLarge
  | unaligned
  | pastTheEnd
  deriving DecidableEq

/-- Why a machine cannot be built or an image cannot be loaded. -/
inductive MachineError
  | bus (e : BusError)
  | imageTooLarge (size ramSize : Nat)
  | invalidConfig (problem : RamProblem)
  deriving DecidableEq

/-- The wording of a problem with memory. -/
def RamProblem.reason : RamProblem → String
  | .empty => "the RAM is empty"
  | .tooLarge => "the RAM is too large"
  | .unaligned => "the RAM must be page-aligned"
  | .pastTheEnd => "the RAM ends past the address space"

/-- The wording of a machine error. -/
def MachineError.message : MachineError → String
  | .bus e => "could not map the devices: " ++ e.message
  | .imageTooLarge size ramSize =>
    "image of " ++ toString size ++ " bytes does not fit in " ++ toString ramSize ++
      " bytes of RAM"
  | .invalidConfig problem => "invalid machine configuration: " ++ problem.reason

/-- The first problem with the memory of a description. -/
def MachineConfig.problem? (c : MachineConfig) : Option RamProblem :=
  if c.ramSize = 0 then some .empty
  else if maxRamSize < c.ramSize then some .tooLarge
  else if c.ramBase.toNat % pageSize ≠ 0 ∨ c.ramSize.toNat % pageSize ≠ 0 then some .unaligned
  else if UInt64.size ≤ c.ramBase.toNat + c.ramSize.toNat then some .pastTheEnd
  else none

/-- The bus of a machine. -/
def MachineConfig.bus (c : MachineConfig) : Except BusError Bus := do
  let b := Bus.ofMemory (Memory.zeroed c.ramBase c.ramSize)
  let b ← b.register "finisher" finisherBase finisherSize (.finisher Finisher.new)
  let b ← b.register "clint" clintBase clintSize (.clint (Clint.new c.timerIncrement))
  let b ← b.register "plic" plicBase plicSize (.plic Plic.new)
  let b ← b.register "uart" uartBase uartSize (.uart Uart.new)
  b.register "virtio" virtioBase virtioSize
    (.virtio (VirtioBlock.new (c.disk.map VirtioBlock.diskOf)))

/-- A machine: the board, whether it has halted, and whether its runs are cancelled. -/
structure Machine where
  board : Board
  halted : Option UInt32
  cancelled : Bool

/-- Why a run ended. -/
inductive ExitStatus
  /-- Software stopped the machine. -/
  | halted (code : UInt32)
  /-- The run was cancelled. -/
  | cancelled
  /-- The run used up its steps. -/
  | stepLimit
  deriving DecidableEq, Inhabited

namespace ExitStatus

/-- The exit code of a run: what software asked for, or 124 for a run that did not halt. -/
def code : ExitStatus → Int
  | .halted code => code.toInt32.toInt
  | .cancelled | .stepLimit => 124

/-- The wording of a status. -/
def describe : ExitStatus → String
  | .halted code => "Halted \x7b code: " ++ toString code.toNat ++ " \x7d"
  | .cancelled => "Cancelled"
  | .stepLimit => "StepLimit"

end ExitStatus

namespace Machine

instance : Inhabited Machine := ⟨⟨default, none, false⟩⟩

/-- Builds a machine that starts at the first address of its memory. -/
def new (c : MachineConfig) : Except MachineError Machine :=
  match c.problem? with
  | some problem => .error (.invalidConfig problem)
  | none =>
    match c.bus with
    | .error e => .error (.bus e)
    | .ok bus => .ok ⟨(Board.ofBus bus).reset c.ramBase, none, false⟩

/-- Adds to the journal. -/
def note (m : Machine) (n : Notice) : Machine :=
  { m with board := m.board.note n }

/-- The notices so far, in order. -/
def journal (m : Machine) : List Notice :=
  m.board.bus.journal.reverse

/-- Clears memory, resets devices and hart, and puts an image at the start of memory. An image that
does not fit is refused, and nothing happens. -/
def load (m : Machine) (image : List UInt8) : Except MachineError Machine :=
  let ram := m.board.bus.ram
  let size := image.length
  if ram.size.toNat < size then .error (.imageTooLarge size ram.size.toNat)
  else
    let bus := m.board.bus.reset
    let bus := { bus with ram := bus.ram.patch 0 image }
    let board := { m.board with bus }.reset ram.base
    .ok (note { m with board, halted := none } (.imageLoaded ram.base size))

/-! ## Running -/

/-- One step, unless the machine has halted. The flag tells whether the machine can go on. -/
def step : Machine → Bool × Machine
  | ⟨board, some code, cancelled⟩ => (false, ⟨board, some code, cancelled⟩)
  | ⟨board, none, cancelled⟩ =>
    match board.step with
    | (.running, board) => (true, ⟨board, none, cancelled⟩)
    | (.halted code, board) =>
      (false, ⟨board.note (.machineHalted code board.cycles), some code, cancelled⟩)

/-- Runs at most `n` further steps, after `steps` steps have been made. -/
def runFrom (steps : Nat) : Nat → Machine → ExitStatus × Machine
  | n, m =>
    match m.halted, m.cancelled, n with
    | some code, _, _ => (.halted code, m)
    | none, true, _ => (.cancelled, m.note (.cancelled steps))
    | none, false, 0 => (.stepLimit, m.note (.stepLimit steps))
    | none, false, n + 1 => runFrom (steps + 1) n m.step.2

/-- Runs at most `n` steps. -/
def runFor (n : Nat) (m : Machine) : ExitStatus × Machine :=
  runFrom 0 n m

/-- Runs until the machine halts or is cancelled, if that happens within `fuel` steps after the
`steps` that have been made. -/
def runWithin (steps : Nat) : Nat → Machine → Option (ExitStatus × Machine)
  | fuel, m =>
    match m.halted, m.cancelled, fuel with
    | some code, _, _ => some (.halted code, m)
    | none, true, _ => some (.cancelled, m.note (.cancelled steps))
    | none, false, 0 => none
    | none, false, fuel + 1 => runWithin (steps + 1) fuel m.step.2

/-- Why a row of steps ended. -/
inductive Pause
  /-- Software stopped the machine. -/
  | halted
  /-- The program counter came to an address to stop at. -/
  | reached
  /-- The steps were used up. -/
  | outOfSteps
  deriving DecidableEq

/-- Executes at most `n` steps, and stops after one that leads to an address to stop at. -/
def runUntil (stop : UInt64 → Bool) : Nat → Machine → Pause × Machine
  | 0, m => (.outOfSteps, m)
  | n + 1, m =>
    match m.step with
    | (false, m) => (.halted, m)
    | (true, m) => if stop m.board.hart.pc then (.reached, m) else runUntil stop n m

/-- Forgets the notices so far. -/
def clearJournal (m : Machine) : Machine :=
  { m with board := { m.board with bus := { m.board.bus with journal := [] } } }

/-! ## The serial line -/

/-- The serial line. -/
def uart (m : Machine) : Uart :=
  m.board.bus.uart

/-- Replaces the serial line. -/
def setUart (m : Machine) (u : Uart) : Machine :=
  { m with board := { m.board with bus := m.board.bus.setDevice uartBase (.uart u) } }

/-- Queues bytes for software. -/
def feed (m : Machine) (bytes : List UInt8) : Machine :=
  m.setUart (m.uart.push bytes)

/-- Takes the next byte that software wrote. -/
def pop (m : Machine) : Option UInt8 × Machine :=
  let (b, u) := m.uart.pop
  (b, m.setUart u)

/-- Takes every byte that software wrote. -/
def drain (m : Machine) : List UInt8 × Machine :=
  let (bytes, u) := m.uart.drain
  (bytes, m.setUart u)

/-- The machine on one line. -/
def summary (m : Machine) : String :=
  let halted :=
    match m.halted with
    | some code => "Some(" ++ toString code.toNat ++ ")"
    | none => "None"
  "Emulator \x7b computer: " ++ m.board.summary ++ ", halted: " ++ halted ++ ", .. \x7d"

end Machine

end Rv64Board
