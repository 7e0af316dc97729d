import Rv64Board.Device
import Rv64Board.Text.Quoted

/-!
# The bus

Physical addresses lead to memory or to a device. Devices occupy regions, which neither overlap each
other nor the memory.

* `Bus.register`: maps a device; a region that is empty or overlaps something is refused.
* `Bus.read`, `Bus.write`: an access goes to memory if memory holds all of it, else to the region
  that covers all of it, else it faults and changes nothing.
* `Bus.tick`: one step of all devices, from which the lines are computed anew.

The bus keeps the notices of its devices in a journal, most recent first.
-/

namespace Rv64Board

/-- A device and the addresses it occupies, from `base` up to but not including `limit`. -/
structure Region where
  name : String
  base : UInt64
  limit : UInt64
  device : Device

/-- Memory, devices and what they have reported. -/
structure Bus where
  ram : Memory
  /-- The regions in order of their addresses. -/
  regions : List Region
  /-- Notices, most recent first. -/
  journal : List Notice

/-- Why a device cannot be mapped. -/
inductive BusError
  | emptyRange (name : String)
  | overlap (name : String) (base limit : UInt64) (other : String)
  deriving DecidableEq

/-- The wording of a mapping error. -/
def BusError.message : BusError → String
  | .emptyRange name => "device " ++ name ++ " has an empty address range"
  | .overlap name base limit other =>
    "device " ++ name ++ " at " ++ Text.hex base.toNat ++ ".." ++ Text.hex limit.toNat ++
      " overlaps " ++ other

namespace Bus

/-- A bus with memory only. -/
def ofMemory (ram : Memory) : Bus :=
  ⟨ram, [], []⟩

instance : Inhabited Bus := ⟨ofMemory default⟩

/-! ## Regions -/

/-- Inserts a region in order of addresses. -/
def insertRegion (new : Region) : List Region → List Region
  | [] => [new]
  | r :: rs => if new.base < r.base then new :: r :: rs else r :: insertRegion new rs

/-- The last region that starts below an address. -/
def lastBelow? (regions : List Region) (address : UInt64) : Option Region :=
  (regions.filter fun r => r.base < address).getLast?

/-- The last region that starts at an address or below it. -/
def lastUpTo? (regions : List Region) (address : UInt64) : Option Region :=
  (regions.filter fun r => r.base ≤ address).getLast?

/-- What a range of addresses would overlap. Of the regions, only the last that starts below the end
of the range has to be looked at. -/
def overlapped? (b : Bus) (base limit : UInt64) : Option String :=
  if base < b.ram.base + b.ram.size ∧ b.ram.base < limit then some "ram"
  else
    match lastBelow? b.regions limit with
    | some r => if base < r.limit then some r.name else none
    | none => none

/-- Maps a device at `size` addresses from `base` on. -/
def register (b : Bus) (name : String) (base size : UInt64) (device : Device) :
    Except BusError Bus :=
  if size = 0 ∨ UInt64.size ≤ base.toNat + size.toNat then .error (.emptyRange name)
  else
    match b.overlapped? base (base + size) with
    | some other => .error (.overlap name base (base + size) other)
    | none =>
      .ok { b with regions := insertRegion ⟨name, base, base + size, device⟩ b.regions }

/-- The region that covers all of a range of addresses. -/
def region? (b : Bus) (address : UInt64) (len : Nat) : Option Region :=
  (lastUpTo? b.regions address).filter fun r => address.toNat + len ≤ r.limit.toNat

/-- All of a range of addresses belongs to memory or to one device. -/
def contains (b : Bus) (address : UInt64) (len : Nat) : Bool :=
  b.ram.contains address len || (b.region? address len).isSome

/-- The device mapped at a base address. -/
def device? (b : Bus) (base : UInt64) : Option Device :=
  (b.regions.find? fun r => r.base == base).map Region.device

/-- Replaces the device mapped at a base address. -/
def setDevice (b : Bus) (base : UInt64) (device : Device) : Bus :=
  { b with regions := b.regions.map fun r => if r.base = base then { r with device } else r }

/-- Adds to the journal. -/
def note (b : Bus) (notices : List Notice) : Bus :=
  { b with journal := notices ++ b.journal }

/-! ## Accesses -/

/-- Reads from memory or a device. -/
def read (address : UInt64) (w : Width) : EStateM AccessFault Bus UInt64 := fun b =>
  if b.ram.contains address w.bytes then .ok (b.ram.load address w) b
  else
    match b.region? address w.bytes with
    | none => .error ⟨address, w.bytes⟩ b
    | some r =>
      let reply := r.device.read (address - r.base) w
      .ok (reply.value &&& w.mask) ((b.setDevice r.base reply.device).note reply.notice.toList)

/-- Writes to memory or a device. -/
def write (address : UInt64) (w : Width) (value : UInt64) : EStateM AccessFault Bus Unit := fun b =>
  if b.ram.contains address w.bytes then .ok () { b with ram := b.ram.store address w value }
  else
    match b.region? address w.bytes with
    | none => .error ⟨address, w.bytes⟩ b
    | some r =>
      let effect := r.device.write (address - r.base) w (value &&& w.mask)
      .ok () ((b.setDevice r.base effect.device).note effect.notice.toList)

/-! ## Steps -/

/-- Lets every device take a step, in order of addresses. -/
def tickRegions : List Region → Memory → Lines → List Region × Memory × Lines × List Notice
  | [], ram, lines => ([], ram, lines, [])
  | r :: rs, ram, lines =>
    let t := r.device.tick ram lines
    let (rs, ram, lines, notices) := tickRegions rs t.ram t.lines
    ({ r with device := t.device } :: rs, ram, lines, notices ++ t.notices)

/-- Lets every device route the lines, in order of addresses. -/
def routeRegions : List Region → Lines → List Region × Lines
  | [], lines => ([], lines)
  | r :: rs, lines =>
    let (device, lines) := r.device.route lines
    let (rs, lines) := routeRegions rs lines
    ({ r with device } :: rs, lines)

/-- One step of all devices. Levels are computed anew; the timer and a halt request stay until a
device changes them. -/
def tick (b : Bus) (lines : Lines) : Bus × Lines :=
  let (regions, ram, lines, notices) :=
    tickRegions b.regions b.ram { lines with sources := 0, mip := 0 }
  let (regions, lines) := routeRegions regions lines
  (⟨ram, regions, notices ++ b.journal⟩, lines)

/-- Clears the memory and resets every device. -/
def reset (b : Bus) : Bus :=
  { b with
    ram := b.ram.clear
    regions := b.regions.map fun r => { r with device := r.device.reset } }

/-- The map of addresses on one line. -/
def summary (b : Bus) : String :=
  let entry (r : Region) : String :=
    Text.quoted r.name ++ ": " ++ Text.hex r.base.toNat ++ ".." ++ Text.hex r.limit.toNat
  "\x7b" ++ ", ".intercalate (("\"ram\": " ++ b.ram.summary) :: b.regions.map entry) ++ "\x7d"

end Bus

end Rv64Board
