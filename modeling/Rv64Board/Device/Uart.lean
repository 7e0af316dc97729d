import Rv64Board.Device.Exchange

/-!
# The serial line

A 16550-compatible UART. Bytes from the host wait in `inbox` until the UART looks for them, and then
in `fifo` until software reads them; bytes from software wait in `outbox` until the host takes them.
Sending takes no time, so the transmitter is always ready.

* `Uart.push`, `Uart.pop`, `Uart.drain`: the host's side.
* `Uart.read`, `Uart.write`: the side of software.
* `Uart.reset` clears the registers and loses no byte.
-/

namespace Rv64Board

/-- The serial line with the bytes in transit. -/
structure Uart where
  inbox : List UInt8
  fifo : List UInt8
  outbox : List UInt8
  /-- The transmitter has become empty and software has not been told. -/
  transmitted : Bool
  ier : UInt8
  lcr : UInt8
  mcr : UInt8
  scr : UInt8
  divisor : UInt16
  deriving DecidableEq, Inhabited

namespace Uart

def new : Uart :=
  ⟨[], [], [], false, 0, 0, 0, 0, 0⟩

/-- The interrupt source of the UART. -/
def source : UInt64 := 10

/-! ## The host's side -/

/-- Queues bytes for software. -/
def push (u : Uart) (bytes : List UInt8) : Uart :=
  { u with inbox := u.inbox ++ bytes }

/-- Takes the next byte that software sent. The outbox is kept most recent first. -/
def pop (u : Uart) : Option UInt8 × Uart :=
  match u.outbox.getLast? with
  | none => (none, u)
  | some b => (some b, { u with outbox := u.outbox.dropLast })

/-- Takes all bytes that software sent, in order. -/
def drain (u : Uart) : List UInt8 × Uart :=
  (u.outbox.reverse, { u with outbox := [] })

/-! ## The side of software -/

/-- Moves what the host queued into the UART. -/
def poll (u : Uart) : Uart :=
  match u.inbox with
  | [] => u
  | waiting => { u with inbox := [], fifo := u.fifo ++ waiting }

/-- A byte is waiting for software, in a UART that has just polled. -/
def hasData (u : Uart) : Bool :=
  !u.fifo.isEmpty

/-- The first two registers stand for the divisor. -/
def divisorLatched (u : Uart) : Bool :=
  u.lcr &&& 0x80 != 0

def receiveEnabled (u : Uart) : Bool :=
  u.ier &&& 1 != 0

def transmitEnabled (u : Uart) : Bool :=
  u.ier &&& 2 != 0

/-- Polls if the receive interrupt is on; otherwise the UART does not look at its input. -/
def pollIfEnabled (u : Uart) : Uart :=
  if u.receiveEnabled then u.poll else u

/-- The receive interrupt is on and there is a byte, in a UART that has just polled. -/
def receivePending (u : Uart) : Bool :=
  u.receiveEnabled && u.hasData

def transmitPending (u : Uart) : Bool :=
  u.transmitEnabled && u.transmitted

/-- The interrupt identification: received data comes first, then the empty transmitter, which is
thereby acknowledged. -/
def identify (u : Uart) : UInt8 × Uart :=
  let u := u.pollIfEnabled
  if u.receivePending then (0xC4, u)
  else if u.transmitPending then (0xC2, { u with transmitted := false })
  else (0xC1, u)

/-- Takes the next received byte; zero if there is none. -/
def receive (u : Uart) : UInt8 × Uart :=
  let u := u.poll
  match u.fifo with
  | [] => (0, u)
  | b :: rest => (b, { u with fifo := rest })

/-- The line status: the transmitter is idle, and whether there is a byte to read. -/
def lineStatus (u : Uart) : UInt8 × Uart :=
  let u := u.poll
  (if u.hasData then 0x61 else 0x60, u)

/-- The value of a register and the UART after reading it; `none` where there is no register. -/
def readRegister (u : Uart) (offset : UInt64) : Option (UInt8 × Uart) :=
  if offset = 0 then
    if u.divisorLatched then some (u.divisor.toUInt8, u) else some u.receive
  else if offset = 1 then
    if u.divisorLatched then some ((u.divisor >>> 8).toUInt8, u) else some (u.ier, u)
  else if offset = 2 then some u.identify
  else if offset = 3 then some (u.lcr, u)
  else if offset = 4 then some (u.mcr, u)
  else if offset = 5 then some u.lineStatus
  else if offset = 6 then some (0xB0, u)
  else if offset = 7 then some (u.scr, u)
  else none

def read (u : Uart) (offset : UInt64) (_w : Width) : Reply Uart :=
  match u.readRegister offset with
  | some (value, u) => ⟨value.toUInt64, u, none⟩
  | none => ⟨0, u, some (.unknownRead .uart offset)⟩

/-- Sends a byte to the host. -/
def transmit (u : Uart) (b : UInt8) : Uart :=
  { u with outbox := b :: u.outbox, transmitted := true }

/-- Switches the interrupts. Switching the transmit interrupt on reports the empty transmitter. -/
def setInterrupts (u : Uart) (b : UInt8) : Uart :=
  { u with
    transmitted := u.transmitted || (b &&& 2 != 0 && !u.transmitEnabled)
    ier := b &&& 0x0F }

/-- The UART after writing a register; `none` where there is no register. The FIFO control and the
two status registers can be written without effect. -/
def writeRegister (u : Uart) (offset : UInt64) (b : UInt8) : Option Uart :=
  if offset = 0 then
    if u.divisorLatched then
      some { u with divisor := (u.divisor &&& 0xFF00) ||| b.toUInt16 }
    else some (u.transmit b)
  else if offset = 1 then
    if u.divisorLatched then
      some { u with divisor := (u.divisor &&& 0xFF : UInt16) ||| b.toUInt16 <<< 8 }
    else some (u.setInterrupts b)
  else if offset = 2 then some u
  else if offset = 3 then some { u with lcr := b }
  else if offset = 4 then some { u with mcr := b }
  else if offset = 5 then some u
  else if offset = 6 then some u
  else if offset = 7 then some { u with scr := b }
  else none

def write (u : Uart) (offset : UInt64) (_w : Width) (value : UInt64) : Effect Uart :=
  match u.writeRegister offset value.toUInt8 with
  | some u => ⟨u, none⟩
  | none => ⟨u, some (.unknownWrite .uart offset value.toUInt8.toUInt64)⟩

/-- Raises the source of the UART while an interrupt is pending. -/
def tick (u : Uart) (lines : Lines) : Uart × Lines :=
  let u := u.pollIfEnabled
  if u.receivePending || u.transmitPending then
    (u, { lines with sources := lines.sources ||| (1 <<< source) })
  else (u, lines)

/-- Clears the registers; bytes in transit stay. -/
def reset (u : Uart) : Uart :=
  { u with transmitted := false, ier := 0, lcr := 0, mcr := 0, scr := 0, divisor := 0 }

end Uart

end Rv64Board
