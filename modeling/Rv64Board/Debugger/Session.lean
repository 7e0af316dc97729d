import Rv64Board.Debugger.Command
import Rv64Board.Disassembly
import Rv64Board.Machine
import Rv64Board.Text.Backspace
import Rv64Board.Text.Words

/-!
# A debugger session

Lines of text go in; the machine changes, and log entries and bytes from the serial line come out.

* `Session`: the machine with its breakpoints, the place in the listing, the last command, and what
  has come out so far.
* `Session.execute`: carries out a command.
* `Session.readLine`, `Session.endInput`: takes a line, or the end of the input. A line that leaves
  a quote open waits for the next one, and an empty line repeats the last command.

Looking at memory goes through page tables but leaves no marks in them. What is shown is memory and
never a device; a page table that lies in a device is read there all the same.
-/

namespace Rv64Board.Debugger

open Arguments

/-- A debugger session. -/
structure Session where
  machine : Machine
  /-- The addresses to stop at, in order. -/
  breakpoints : List UInt64
  /-- Where the next listing starts, if not at the program counter. -/
  listing : Option UInt64
  /-- The last command that was understood. -/
  last : Option Command
  /-- The lines of a command with an open quote. -/
  unfinished : String
  /-- The machine is between two slices of a run without an end of its own. -/
  running : Bool
  finished : Bool
  /-- The log, most recent entry first. -/
  log : List LogEntry
  /-- What software wrote to the serial line, most recent first. -/
  output : List UInt8

namespace Session

/-! ## Log and output -/

/-- Adds an entry to the log. -/
def say (s : Session) (level : Level) (text : String) : Session :=
  { s with log := ⟨level, text⟩ :: s.log }

/-- Adds entries to the log. -/
def sayAll (s : Session) (texts : List String) : Session :=
  texts.foldl (fun s text => s.say .info text) s

/-- Adds the report of an error to the log. -/
def sayError (s : Session) (message : String) : Session :=
  s.say .warn ("error=" ++ message)

/-- Takes over the machine after it has worked. Its notices go into the log. -/
def setMachine (s : Session) (machine : Machine) : Session :=
  { s with
    machine := machine.clearJournal
    log := machine.board.bus.journal.map Notice.entry ++ s.log }

/-- Takes over what software wrote to the serial line. -/
def flush (s : Session) : Session :=
  let (bytes, machine) := s.machine.drain
  { s with machine, output := bytes.reverse ++ s.output }

/-- A session about to read its first line. -/
def start (machine : Machine) : Session :=
  say (setMachine ⟨machine, [], none, none, "", false, false, [], []⟩ machine) .info
    "Running in interactive mode. Type \"help\" to list available commands."

/-! ## Looking at memory -/

/-- The same machine with another bus. -/
def setBus (s : Session) (bus : Bus) : Session :=
  s.setMachine { s.machine with board := { s.machine.board with bus } }

/-- Translates an address without leaving marks. -/
def locate (s : Session) (access : Access) (address : UInt64) : Except Exception UInt64 × Session :=
  match s.machine.board.hart.inspect access address s.machine.board.bus with
  | .ok physical bus => (.ok physical, s.setBus bus)
  | .error e bus => (.error e, s.setBus bus)

/-- The doubleword of memory at an address, or why there is none. -/
def peek (s : Session) (address : UInt64) : Except String UInt64 × Session :=
  match s.locate .load address with
  | (.error e, s) => (.error e.message, s)
  | (.ok physical, s) =>
    ((s.machine.board.bus.ram.read physical .double).mapError AccessFault.message, s)

/-- Replaces the doubleword of memory at an address, or says why it cannot. -/
def poke (s : Session) (address value : UInt64) : Option String × Session :=
  match s.locate .store address with
  | (.error e, s) => (some e.message, s)
  | (.ok physical, s) =>
    let bus := s.machine.board.bus
    match bus.ram.write physical .double value with
    | .error f => (some f.message, s)
    | .ok ram => (none, s.setBus { bus with ram })

/-- Up to `count` bytes from an address on, as they would be fetched, after those that were fetched
before, last first. The row ends where there is no memory. -/
def fetchBytes : Nat → UInt64 → List UInt8 → Session → List UInt8 × Session
  | 0, _, fetched, s => (fetched.reverse, s)
  | count + 1, address, fetched, s =>
    match s.locate .fetch address with
    | (.error _, s) => (fetched.reverse, s)
    | (.ok physical, s) =>
      match s.machine.board.bus.ram.read physical .byte with
      | .error _ => (fetched.reverse, s)
      | .ok b => fetchBytes count (address + 1) (b.toUInt8 :: fetched) s

/-! ## Running -/

/-- Reports a halt of the machine. -/
def reportHalt (s : Session) : Session :=
  match s.machine.halted with
  | some code => s.say .info (Notice.machineHalted code s.machine.board.cycles).message
  | none => s

/-- Executes a number of steps, fewer if the machine halts. -/
def steps (s : Session) (count : Nat) : Session :=
  match s.machine.runUntil (fun _ => false) count with
  | (.halted, machine) => (s.setMachine machine).reportHalt.flush
  | (_, machine) => (s.setMachine machine).flush

/-- Executes steps until the machine halts or comes to a breakpoint. After `slice` steps the session
is left running, so that what has come out can be shown. -/
def resume (s : Session) (slice : Nat) : Session :=
  let (pause, machine) := s.machine.runUntil s.breakpoints.contains slice
  let s := { s.setMachine machine with running := pause == Machine.Pause.outOfSteps }
  match pause with
  | .halted => s.reportHalt.flush
  | .reached =>
    (s.say .info ("Stopped at a breakpoint at " ++ Text.hex s.machine.board.hart.pc.toNat)).flush
  | .outOfSteps => s.flush

/-! ## Commands -/

/-- A word in a column of the display. -/
def wide (w : UInt64) : String :=
  Text.hexPadded 16 w.toNat

/-- An address in a column of the display. -/
def column (address : UInt64) : String :=
  Text.hexPadded 8 address.toNat

/-- Shows doublewords from an address on, up to the first that cannot be read. -/
def showMemory : Nat → UInt64 → Session → Session
  | 0, _, s => s
  | count + 1, address, s =>
    match s.peek address with
    | (.error message, s) => s.sayError message
    | (.ok value, s) =>
      showMemory count (address + 8) (s.say .info (column address ++ ":  " ++ wide value))

/-- Assigns a value. -/
def assign (s : Session) (target : Target) (value : UInt64) : Session :=
  let shown := Text.hex value.toNat
  match target with
  | .memory e =>
    let address := e.eval s.machine.board.hart.registers
    let s := s.say .info
      ("Setting memory at address " ++ Text.hex address.toNat ++ " to " ++ shown)
    match s.poke address value with
    | (none, s) => s
    | (some message, s) => s.sayError message
  | .register r =>
    let s := s.say .info ("Setting register " ++ r.name ++ " to " ++ shown)
    let board := { s.machine.board with hart := s.machine.board.hart.set r value }
    { s with machine := { s.machine with board } }
  | .pc =>
    let s := s.say .info ("Jumping to " ++ shown)
    let board := { s.machine.board with hart := s.machine.board.hart.jump value }
    { s with machine := { s.machine with board }, listing := none }

/-- The marks in front of a listed instruction: a breakpoint, and the next one to execute. -/
def gutter (isBreakpoint isCurrent : Bool) : String :=
  (if isBreakpoint then "B" else " ") ++ (if isCurrent then ">" else " ")

/-- A listed instruction as it is shown. -/
def listedLine (s : Session) (l : Line) : String :=
  gutter (s.breakpoints.contains l.address) (l.address == s.machine.board.hart.pc) ++ " " ++
    l.render

/-- Shows instructions, starting after those shown last. Four bytes are fetched for each of them;
the number of bytes is a word and wraps. -/
def list (s : Session) (count : Nat) : Session :=
  let start := s.listing.getD s.machine.board.hart.pc
  let (bytes, s) := fetchBytes (UInt64.ofNat count * 4).toNat start [] s
  let lines := (disassemble start bytes).take count
  let s := s.sayAll (lines.map s.listedLine)
  let s :=
    match lines.getLast? with
    | some l => { s with listing := some (l.address + l.size) }
    | none => s
  if lines.length < count then
    s.say .info ("   " ++ column (start + UInt64.ofNat bytes.length) ++ ":  –")
  else s

/-- Inserts an address into an ordered list. -/
def insertAddress (a : UInt64) : List UInt64 → List UInt64
  | [] => [a]
  | b :: bs => if a < b then a :: b :: bs else b :: insertAddress a bs

/-- Sets a breakpoint. -/
def addBreakpoint (s : Session) (address : UInt64) : Session :=
  let shown := Text.hex address.toNat
  if s.breakpoints.contains address then
    s.say .warn ("A breakpoint was already set at " ++ shown)
  else
    say { s with breakpoints := insertAddress address s.breakpoints } .info
      ("Setting a breakpoint at " ++ shown)

/-- Removes a breakpoint. -/
def removeBreakpoint (s : Session) (address : UInt64) : Session :=
  let shown := Text.hex address.toNat
  if s.breakpoints.contains address then
    say { s with breakpoints := s.breakpoints.filter (· ≠ address) } .info
      ("Removing breakpoint at " ++ shown)
  else s.say .warn ("No breakpoint was set at " ++ shown)

/-- What is shown of the breakpoints. -/
def breakpointLines (s : Session) : List String :=
  let title :=
    match s.breakpoints.length with
    | 0 => "No breakpoints"
    | 1 => "1 breakpoint:"
    | n => toString n ++ " breakpoints:"
  title :: s.breakpoints.map fun a => "  " ++ column a

def cyclesLine (s : Session) : String :=
  "Cycles: " ++ toString s.machine.board.cycles.toNat

def privilegeLine (s : Session) : String :=
  "Privilege: " ++ s.machine.board.hart.privilege.letter

/-- Answers a question about the session, or all of them. -/
def answer (s : Session) : Option Question → Session
  | some .breakpoints => s.sayAll s.breakpointLines
  | some .cycles => s.sayAll [s.cyclesLine]
  | some .privilege => s.sayAll [s.privilegeLine]
  | none => s.sayAll (s.breakpointLines ++ ["–", s.cyclesLine, s.privilegeLine])

/-- The bytes of a text for the serial line. -/
def textBytes (words : List String) (raw : Bool) : List UInt8 :=
  let text := " ".intercalate words ++ (if raw then "" else "\n")
  text.toUTF8.data.toList

/-- Commands that a halted machine cannot carry out. -/
def needsRunning : Command → Bool
  | .step _ | .resume | .set .. | .input .. => true
  | _ => false

/-- Carries out a command; `slice` bounds the steps of one that has no bound of its own. -/
def execute (s : Session) (slice : Nat) (command : Command) : Session :=
  if s.machine.halted.isSome && needsRunning command then
    s.say .warn "Machine is halted. Use \"exit\" to quit"
  else
    let hart := s.machine.board.hart
    let value (e : Expression) : UInt64 := e.eval hart.registers
    match command with
    | .exit => { s with finished := true }
    | .step count => { s with listing := none }.steps count
    | .resume => { s with listing := none }.resume slice
    | .registers (some r) => s.say .info ("Register " ++ r.name ++ " = " ++ wide (hart.get r))
    | .registers none => s.say .info ("Registers:\n" ++ hart.registers.table)
    | .csr c => s.say .info ("CSR " ++ c.name ++ " = " ++ wide (hart.csrs.read c))
    | .memory e count => showMemory count (value e) s
    | .set target e => s.assign target (value e)
    | .list count => s.list count
    | .breakAt e => s.addBreakpoint (value e)
    | .unbreak e => s.removeBreakpoint (value e)
    | .input words raw => { s with machine := s.machine.feed (textBytes words raw) }
    | .info question => s.answer question

/-! ## Lines -/

/-- Takes a complete line that splits into words. -/
def readWords (s : Session) (slice : Nat) (line : String) (words : List String) : Session :=
  if line.isEmpty then
    match s.last with
    | some command => s.execute slice command
    | none => s.say .info "Type \"help\" to get the list of available commands"
  else
    match Command.parse words with
    | .error e => s.sayError e.summary
    | .ok command => { s with last := some command }.execute slice command

/-- A line without the end-of-line characters, and these characters. -/
def splitEnd (line : String) : List Char × List Char :=
  match line.toList.reverse with
  | '\n' :: '\r' :: rest => (rest.reverse, ['\r', '\n'])
  | '\n' :: rest => (rest.reverse, ['\n'])
  | rest => (rest.reverse, [])

/-- Takes a line with the characters that end it. Backspaces in it take back what was typed before
them, also in the lines that it continues. -/
def readLine (s : Session) (slice : Nat) (line : String) : Session :=
  let (text, ending) := splitEnd (s.unfinished ++ line)
  let text := String.ofList (Text.applyBackspaces text)
  match Text.Words.split? text with
  | none => { s with unfinished := text ++ String.ofList ending }
  | some words => { s with unfinished := "" }.readWords slice text words

/-- Takes the end of the input. -/
def endInput (s : Session) : Session :=
  { s.say .info "EOF, exitting" with finished := true }

/-- How a session ended: with a halt of the machine, or before one. -/
def status (s : Session) : ExitStatus :=
  match s.machine.halted with
  | some code => .halted code
  | none => .cancelled

end Session

end Rv64Board.Debugger
