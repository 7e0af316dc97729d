import Rv64Board.Device.Clint
import Rv64Board.Device.Finisher
import Rv64Board.Device.Plic
import Rv64Board.Device.Uart
import Rv64Board.Device.VirtioBlock

/-!
# Devices

The kinds of devices that a board can carry, with one interface: registers to read and write, a step
in which lines are raised and memory may be accessed, a second phase in which the collected lines
are routed, and a reset.
-/

namespace Rv64Board

/-- A device of the board. -/
inductive Device
  | finisher (d : Finisher)
  | clint (d : Clint)
  | plic (d : Plic)
  | uart (d : Uart)
  | virtio (d : VirtioBlock)

namespace Device

/-- Reads the register at an offset. The value may be wider than the access. -/
def read (d : Device) (offset : UInt64) (w : Width) : Reply Device :=
  match d with
  | .finisher d => let r := d.read offset w; ⟨r.value, .finisher r.device, r.notice⟩
  | .clint d => let r := d.read offset w; ⟨r.value, .clint r.device, r.notice⟩
  | .plic d => let r := d.read offset w; ⟨r.value, .plic r.device, r.notice⟩
  | .uart d => let r := d.read offset w; ⟨r.value, .uart r.device, r.notice⟩
  | .virtio d => let r := d.read offset w; ⟨r.value, .virtio r.device, r.notice⟩

/-- Writes the register at an offset. -/
def write (d : Device) (offset : UInt64) (w : Width) (value : UInt64) : Effect Device :=
  match d with
  | .finisher d => let e := d.write offset w value; ⟨.finisher e.device, e.notice⟩
  | .clint d => let e := d.write offset w value; ⟨.clint e.device, e.notice⟩
  | .plic d => let e := d.write offset w value; ⟨.plic e.device, e.notice⟩
  | .uart d => let e := d.write offset w value; ⟨.uart e.device, e.notice⟩
  | .virtio d => let e := d.write offset w value; ⟨.virtio e.device, e.notice⟩

/-- A device, memory and lines after a step of the device, with its notices, most recent first. -/
structure Ticked where
  device : Device
  ram : Memory
  lines : Lines
  notices : List Notice

/-- One step of a device. Only the disk touches memory. -/
def tick (d : Device) (ram : Memory) (lines : Lines) : Ticked :=
  match d with
  | .finisher d => ⟨.finisher d, ram, d.tick lines, []⟩
  | .clint d => let (d, lines) := d.tick lines; ⟨.clint d, ram, lines, []⟩
  | .plic d => ⟨.plic d, ram, lines, []⟩
  | .uart d => let (d, lines) := d.tick lines; ⟨.uart d, ram, lines, []⟩
  | .virtio d =>
    let (d, ram, notices) := d.answer ram
    ⟨.virtio d, ram, d.raise lines, notices⟩

/-- The second phase of a step. Only the interrupt controller takes part. -/
def route (d : Device) (lines : Lines) : Device × Lines :=
  match d with
  | .plic d => let (d, lines) := d.route lines; (.plic d, lines)
  | d => (d, lines)

/-- Power-on state. The disk and the bytes on the serial line stay. -/
def reset : Device → Device
  | .finisher _ => .finisher Finisher.new
  | .clint d => .clint d.reset
  | .plic _ => .plic Plic.new
  | .uart d => .uart d.reset
  | .virtio d => .virtio d.reset

end Device

end Rv64Board
