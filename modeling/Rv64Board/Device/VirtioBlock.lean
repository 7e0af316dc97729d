import Rv64Board.Device.Exchange

/-!
# The disk

A block device behind the memory-mapped virtio interface, version 2. The driver describes requests
in memory; when notified, the device serves every request that waits in the available ring, moving
sectors between memory and the disk, and reports each one in the used ring.

* `VirtioBlock`: the registers and the disk image. A disk is a `Memory` that starts at zero.
* `Transfer`: the memory and the disk while requests are served. Faults leave behind what had been
  moved before.
* `serve`: one request; `serveQueue`: all that wait.
-/

namespace Rv64Board

/-- The number of bytes in a sector. -/
abbrev sectorSize : Nat := 512

/-- The queue as the driver set it up. -/
structure VirtioQueue where
  size : UInt32
  ready : Bool
  descriptors : UInt64
  driver : UInt64
  device : UInt64

/-- The block device. -/
structure VirtioBlock where
  disk : Option Memory
  status : UInt32
  deviceFeaturesSel : UInt32
  driverFeatures : UInt64
  driverFeaturesSel : UInt32
  interruptStatus : UInt32
  queueSel : UInt32
  queue : VirtioQueue
  /-- The next entry of the available ring to serve. -/
  lastAvailable : UInt16
  notified : Bool

namespace VirtioBlock

/-- The state at reset, with a disk or without one. -/
def new (disk : Option Memory) : VirtioBlock where
  disk := disk
  status := 0
  deviceFeaturesSel := 0
  driverFeatures := 0
  driverFeaturesSel := 0
  interruptStatus := 0
  queueSel := 0
  queue := ⟨0, false, 0, 0, 0⟩
  lastAvailable := 0
  notified := false

instance : Inhabited VirtioBlock := ⟨new none⟩

/-- A disk that holds the given bytes. -/
def diskOf (bytes : List UInt8) : Memory :=
  (Memory.zeroed 0 (UInt64.ofNat bytes.length)).patch 0 bytes

/-- The interrupt source of the device. -/
def source : UInt64 := 1

/-- The largest queue that the driver may set up. -/
def maxQueueSize : UInt32 := 64

/-- The number of whole sectors of a disk. -/
def sectors (disk : Memory) : Nat :=
  disk.size.toNat / sectorSize

/-- The number of whole sectors, zero without a disk. -/
def capacity (v : VirtioBlock) : UInt64 :=
  match v.disk with
  | some disk => UInt64.ofNat (sectors disk)
  | none => 0

/-! ## Requests in memory -/

/-- One link of a request: a stretch of memory. -/
structure Descriptor where
  address : UInt64
  len : UInt32
  flags : UInt16
  next : UInt16

/-- Another link follows. -/
def Descriptor.hasNext (d : Descriptor) : Bool :=
  d.flags &&& 1 != 0

/-- The device may write to the stretch. -/
def Descriptor.writable (d : Descriptor) : Bool :=
  d.flags &&& 2 != 0

/-- Memory and disk while requests are served. -/
structure Transfer where
  ram : Memory
  disk : Memory

namespace Transfer

/-- Reads a value from memory. -/
def read (address : UInt64) (w : Width) : EStateM AccessFault Transfer UInt64 := fun t =>
  if t.ram.contains address w.bytes then .ok (t.ram.load address w) t
  else .error ⟨address, w.bytes⟩ t

/-- Writes a value to memory. -/
def write (address : UInt64) (w : Width) (value : UInt64) : EStateM AccessFault Transfer Unit :=
  fun t =>
    if t.ram.contains address w.bytes then
      .ok () ⟨t.ram.store address w value, t.disk⟩
    else .error ⟨address, w.bytes⟩ t

/-- Moves bytes from a position of the disk to memory. -/
def fromDisk (position : Nat) (address : UInt64) (len : Nat) :
    EStateM AccessFault Transfer Unit := fun t =>
  if t.ram.contains address len then
    .ok () ⟨t.ram.patch (t.ram.offset address) (t.disk.slice position len), t.disk⟩
  else .error ⟨address, len⟩ t

/-- Moves bytes from memory to a position of the disk. -/
def toDisk (position : Nat) (address : UInt64) (len : Nat) :
    EStateM AccessFault Transfer Unit := fun t =>
  if t.ram.contains address len then
    .ok () ⟨t.ram, t.disk.patch position (t.ram.slice (t.ram.offset address) len)⟩
  else .error ⟨address, len⟩ t

end Transfer

open Transfer

/-- The descriptor at an index of the table. -/
def descriptor (q : VirtioQueue) (index : UInt16) : EStateM AccessFault Transfer Descriptor := do
  let base := q.descriptors + 16 * index.toUInt64
  let address ← read base .double
  let len ← read (base + 8) .word
  let flags ← read (base + 12) .half
  let next ← read (base + 14) .half
  return ⟨address, len.toUInt32, flags.toUInt16, next.toUInt16⟩

/-- The links of a request from an index on, at most `room` of them. -/
def chain (q : VirtioQueue) : Nat → UInt16 → EStateM AccessFault Transfer (List Descriptor)
  | 0, _ => return []
  | room + 1, index => do
    let d ← descriptor q (index % q.size.toUInt16)
    if d.hasNext then return d :: (← chain q room d.next) else return [d]

/-- The directions of a transfer. -/
inductive Direction
  | fromDisk
  | toDisk

/-- The kind of a request, as far as the device supports it. -/
def direction? (kind : UInt32) : Option Direction :=
  if kind = 0 then some .fromDisk else if kind = 1 then some .toDisk else none

/-- Moves data between the disk, from a position on, and the stretches of memory of a request. The
result is the number of bytes written to memory. -/
def moveData (direction : Direction) : Nat → List Descriptor → EStateM AccessFault Transfer UInt32
  | _, [] => return 0
  | position, d :: rest => do
    match direction with
    | .fromDisk =>
      fromDisk position d.address d.len.toNat
      return d.len + (← moveData direction (position + d.len.toNat) rest)
    | .toDisk =>
      toDisk position d.address d.len.toNat
      moveData direction (position + d.len.toNat) rest

/-- What came of a request. -/
inductive Outcome
  /-- There was no place for the status. -/
  | malformed
  /-- The request was answered, with so many bytes written to memory. -/
  | answered (written : UInt32)

/-- The total number of bytes that a request moves. -/
def totalLength (buffers : List Descriptor) : Nat :=
  buffers.foldr (fun d n => d.len.toNat + n) 0

/-- Carries a request out on a disk of `limit` bytes. The result is the status byte (0 for success,
1 for a range beyond the disk, 2 for an unknown kind) and the number of bytes written to memory. -/
def perform (limit : Nat) (kind : UInt32) (sector : UInt64) (buffers : List Descriptor) :
    EStateM AccessFault Transfer (UInt64 × UInt32) := do
  match direction? kind with
  | none => return (2, 0)
  | some direction =>
    let start := sector.toNat * sectorSize
    if start + totalLength buffers ≤ limit then
      return (0, ← moveData direction start buffers)
    else return (1, 0)

/-- Serves the request at an index of the descriptor table: a header, stretches of data, and a byte
for the status. -/
def serve (q : VirtioQueue) (head : UInt16) : EStateM AccessFault Transfer Outcome := do
  let links ← chain q q.size.toNat head
  match links, links.getLast? with
  | header :: rest@(_ :: _), some last =>
    if last.writable then
      let kind ← read header.address .word
      let sector ← read (header.address + 8) .double
      let limit := sectors (← get).disk * sectorSize
      let (status, written) ← perform limit kind.toUInt32 sector rest.dropLast
      write last.address .byte status
      return .answered (written + 1)
    else return .malformed
  | _, _ => return .malformed

/-- Reports a served request in the used ring. -/
def pushUsed (q : VirtioQueue) (head : UInt16) (len : UInt32) :
    EStateM AccessFault Transfer Unit := do
  let used ← read (q.device + 2) .half
  let entry := q.device + 4 + 8 * (used.toUInt16 % q.size.toUInt16).toUInt64
  write entry .word head.toUInt64
  write (entry + 4) .word len.toUInt64
  write (q.device + 2) .half (used.toUInt16 + 1).toUInt64

/-! ## The available ring -/

/-- The device's side while the ring is served. -/
structure Progress where
  transfer : Transfer
  lastAvailable : UInt16
  interruptStatus : UInt32
  /-- What went wrong, most recent first. -/
  notices : List Notice

/-- Serves one entry of the available ring. The flag tells whether to go on. -/
def serveEntry (q : VirtioQueue) (p : Progress) : Bool × Progress :=
  let slot := q.driver + 4 + 2 * (p.lastAvailable % q.size.toUInt16).toUInt64
  let finish (head : UInt16) (len : UInt32) (t : Transfer) (notices : List Notice) :
      Bool × Progress :=
    match pushUsed q head len t with
    | .ok _ t => (true, ⟨t, p.lastAvailable + 1, p.interruptStatus ||| 1, notices⟩)
    | .error fault t =>
      (false, ⟨t, p.lastAvailable, p.interruptStatus, .usedRingFault fault :: notices⟩)
  match read slot .half p.transfer with
  | .error fault t =>
    (false, ⟨t, p.lastAvailable, p.interruptStatus, .availableRingFault fault :: p.notices⟩)
  | .ok head t =>
    let head := head.toUInt16
    match serve q head t with
    | .ok (.answered written) t => finish head written t p.notices
    | .ok .malformed t => finish head 0 t (.malformedRequest head :: p.notices)
    | .error fault t => finish head 0 t (.requestFault fault :: p.notices)

/-- Serves up to `count` entries, stopping at the first that cannot be reported. -/
def serveEntries (q : VirtioQueue) : Nat → Progress → Progress
  | 0, p => p
  | count + 1, p =>
    match serveEntry q p with
    | (true, p) => serveEntries q count p
    | (false, p) => p

/-- Serves every entry that waits in the available ring. -/
def serveQueue (q : VirtioQueue) (p : Progress) : Progress :=
  if !q.ready || q.size == 0 then { p with notices := .queueNotReady :: p.notices }
  else if p.transfer.ram.contains (q.driver + 2) 2 then
    let available := (p.transfer.ram.load (q.driver + 2) .half).toUInt16
    serveEntries q (available - p.lastAvailable).toNat p
  else { p with notices := .availableRingMissing q.driver :: p.notices }

/-! ## Registers -/

/-- The device after a reset by the driver; the disk stays. -/
def reset (v : VirtioBlock) : VirtioBlock :=
  new v.disk

/-- The value of a 32-bit register; `none` where there is no register to read. -/
def readRegister (v : VirtioBlock) (offset : UInt64) : Option UInt32 :=
  let selected := v.queueSel == 0
  if offset = 0x000 then some 0x74726976
  else if offset = 0x004 then some 2
  else if offset = 0x008 then some (if v.disk.isSome then 2 else 0)
  else if offset = 0x00C then some 0x554D4551
  else if offset = 0x010 then some (if v.deviceFeaturesSel = 1 then 1 else 0)
  else if offset = 0x034 then some (if selected then maxQueueSize else 0)
  else if offset = 0x044 then some (if selected && v.queue.ready then 1 else 0)
  else if offset = 0x060 then some v.interruptStatus
  else if offset = 0x070 then some v.status
  else if offset = 0x0FC then some 0
  else none

def read (v : VirtioBlock) (offset : UInt64) (w : Width) : Reply VirtioBlock :=
  if 0x100 ≤ offset ∧ offset < 0x108 then ⟨readPart v.capacity (offset - 0x100) w, v, none⟩
  else
    match v.readRegister offset with
    | some value => ⟨value.toUInt64, v, none⟩
    | none => ⟨0, v, some (.unknownRead .virtio offset)⟩

/-- An address with its lower half replaced. -/
def withLow (address value : UInt64) : UInt64 :=
  (address &&& ~~~0xFFFFFFFF) ||| (value &&& 0xFFFFFFFF)

/-- An address with its upper half replaced. -/
def withHigh (address value : UInt64) : UInt64 :=
  (address &&& 0xFFFFFFFF : UInt64) ||| value <<< 32

/-- The queue after writing one of its registers; `none` where there is no register. -/
def writeQueue (q : VirtioQueue) (offset value : UInt64) : Option VirtioQueue :=
  if offset = 0x038 then some { q with size := min value.toUInt32 maxQueueSize }
  else if offset = 0x044 then some { q with ready := value &&& 1 != 0 }
  else if offset = 0x080 then some { q with descriptors := withLow q.descriptors value }
  else if offset = 0x084 then some { q with descriptors := withHigh q.descriptors value }
  else if offset = 0x090 then some { q with driver := withLow q.driver value }
  else if offset = 0x094 then some { q with driver := withHigh q.driver value }
  else if offset = 0x0A0 then some { q with device := withLow q.device value }
  else if offset = 0x0A4 then some { q with device := withHigh q.device value }
  else none

/-- The features after the driver accepts those of the selected half. -/
def acceptFeatures (v : VirtioBlock) (value : UInt64) : UInt64 :=
  if v.driverFeaturesSel = 0 then withLow v.driverFeatures value
  else if v.driverFeaturesSel = 1 then
    withHigh v.driverFeatures value
  else v.driverFeatures

/-- The device after writing a register; `none` where there is no register. The registers of the
queue are there only while queue 0 is selected. -/
def writeRegister (v : VirtioBlock) (offset value : UInt64) : Option VirtioBlock :=
  if offset = 0x014 then some { v with deviceFeaturesSel := value.toUInt32 }
  else if offset = 0x020 then some { v with driverFeatures := v.acceptFeatures value }
  else if offset = 0x024 then some { v with driverFeaturesSel := value.toUInt32 }
  else if offset = 0x030 then some { v with queueSel := value.toUInt32 }
  else if offset = 0x050 then if value = 0 then some { v with notified := true } else none
  else if offset = 0x064 then
    some { v with interruptStatus := v.interruptStatus &&& ~~~value.toUInt32 }
  else if offset = 0x070 then
    if value = 0 then some v.reset else some { v with status := value.toUInt32 }
  else if v.queueSel = 0 then
    (writeQueue v.queue offset value).map fun queue => { v with queue }
  else none

def write (v : VirtioBlock) (offset : UInt64) (_w : Width) (value : UInt64) :
    Effect VirtioBlock :=
  match v.writeRegister offset value with
  | some v => ⟨v, none⟩
  | none => ⟨v, some (.unknownWrite .virtio offset value)⟩

/-! ## Steps -/

/-- Serves the queue if the driver has notified the device and there is a disk. -/
def answer (v : VirtioBlock) (ram : Memory) : VirtioBlock × Memory × List Notice :=
  match v.notified, v.disk with
  | true, some disk =>
    let p := serveQueue v.queue ⟨⟨ram, disk⟩, v.lastAvailable, v.interruptStatus, []⟩
    ({ v with
        disk := some p.transfer.disk
        lastAvailable := p.lastAvailable
        interruptStatus := p.interruptStatus
        notified := false }, p.transfer.ram, p.notices)
  | _, _ => ({ v with notified := false }, ram, [])

/-- The lines with the source of the device raised while it has an interrupt to report. -/
def raise (v : VirtioBlock) (lines : Lines) : Lines :=
  if v.interruptStatus = 0 then lines
  else { lines with sources := lines.sources ||| (1 <<< source) }

end VirtioBlock

end Rv64Board
