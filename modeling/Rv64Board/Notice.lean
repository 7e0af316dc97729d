import Rv64Board.Memory

/-!
# Notices

What the board reports to the person at the console: events of a run and accesses that make no
sense. A notice is a value; its wording is the business of `Notice.message`, and `Notice.entry` adds
how serious it is.
-/

namespace Rv64Board

/-- How serious a report is. -/
inductive Level
  | info
  | warn
  deriving DecidableEq, Inhabited

/-- The word for a level. -/
def Level.word : Level → String
  | .info => "INFO"
  | .warn => "WARN"

/-- An entry of the log. -/
structure LogEntry where
  level : Level
  text : String
  deriving DecidableEq

/-- An entry as one piece of text. -/
def LogEntry.line (e : LogEntry) : String :=
  e.level.word ++ " " ++ e.text

/-- The devices by the names they have in notices. -/
inductive Peripheral
  | finisher | clint | plic | uart | virtio
  deriving DecidableEq, Inhabited

/-- The name of a device in a notice. -/
def Peripheral.label : Peripheral → String
  | .finisher => "finisher"
  | .clint => "CLINT"
  | .plic => "PLIC"
  | .uart => "UART"
  | .virtio => "virtio"

/-- A report from the board. -/
inductive Notice
  /-- An image was loaded at the start of memory. -/
  | imageLoaded (base : UInt64) (size : Nat)
  /-- The machine came to a halt. -/
  | machineHalted (code : UInt32) (cycles : UInt64)
  /-- An instruction jumps to itself and nothing can interrupt it. -/
  | stuck (pc : UInt64)
  /-- A run was cancelled. -/
  | cancelled (steps : Nat)
  /-- A run reached the number of steps it was given. -/
  | stepLimit (steps : Nat)
  /-- Software asked for a halt. -/
  | haltRequested (code : UInt32)
  /-- A value that is no command was written to the finisher. -/
  | unknownCommand (value : UInt64)
  /-- A device has no register to read at an offset. -/
  | unknownRead (device : Peripheral) (offset : UInt64)
  /-- A device has no register to write at an offset. -/
  | unknownWrite (device : Peripheral) (offset value : UInt64)
  /-- Software completed an interrupt source that does not exist. -/
  | invalidCompletion (id : UInt32)
  /-- A disk request has no place for its status. -/
  | malformedRequest (head : UInt16)
  /-- The disk was notified of a queue that is not set up. -/
  | queueNotReady
  /-- The available ring starts outside of memory. -/
  | availableRingMissing (driver : UInt64)
  /-- An entry of the available ring lies outside of memory. -/
  | availableRingFault (fault : AccessFault)
  /-- A disk request touches something outside of memory. -/
  | requestFault (fault : AccessFault)
  /-- The used ring lies outside of memory. -/
  | usedRingFault (fault : AccessFault)
  deriving DecidableEq

namespace Notice

/-- How serious a notice is. -/
def level : Notice → Level
  | .imageLoaded .. | .machineHalted .. | .stuck .. | .cancelled .. | .stepLimit ..
  | .haltRequested .. => .info
  | _ => .warn

/-- The wording of a notice. -/
def message : Notice → String
  | .imageLoaded base size =>
    "Image loaded base=" ++ toString base.toNat ++ " size=" ++ toString size
  | .machineHalted code cycles =>
    "Machine halted code=" ++ toString code.toNat ++ " cycles=" ++ toString cycles.toNat
  | .stuck pc =>
    "Stuck in a loop with interrupts disabled, halting pc=" ++ toString pc.toNat
  | .cancelled steps => "Cancelled steps=" ++ toString steps
  | .stepLimit steps => "Step limit reached steps=" ++ toString steps
  | .haltRequested code => "Finisher requested a halt code=" ++ toString code.toNat
  | .unknownCommand value => "Unknown finisher command value=" ++ toString value.toNat
  | .unknownRead device offset =>
    "Read from unknown " ++ device.label ++ " register offset=" ++ toString offset.toNat
  | .unknownWrite device offset value =>
    "Write to unknown " ++ device.label ++ " register offset=" ++ toString offset.toNat ++
      " value=" ++ toString value.toNat
  | .invalidCompletion id => "Completing an invalid interrupt source id=" ++ toString id.toNat
  | .malformedRequest head => "Malformed virtio block request head=" ++ toString head.toNat
  | .queueNotReady => "Notified before the queue was set up"
  | .availableRingMissing driver =>
    "Available ring is outside of RAM driver=" ++ toString driver.toNat
  | .availableRingFault fault => "Available ring is outside of RAM fault=" ++ fault.message
  | .requestFault fault =>
    "virtio block request touches memory outside of RAM fault=" ++ fault.message
  | .usedRingFault fault => "Used ring is outside of RAM fault=" ++ fault.message

/-- A notice as an entry of the log. -/
def entry (n : Notice) : LogEntry :=
  ⟨n.level, n.message⟩

end Notice

end Rv64Board
