import Rv64Board.Proofs.BusInvariant
import Rv64Board.Proofs.DiskContent

/-!
# The board of a machine

A machine is built with five devices, and whatever the host and software do, these five stay where
they are.  What changes is inside of them; the speed of the timer does not, and a disk stays a disk.

* `Devices` — the five, with `Devices.regions`, their places on the bus.
* `Bus.Standard c d` — the bus of a machine described by `c`, with the devices `d`.
* `kept_onBoard` — reading, writing, steps of the devices and notes keep such a bus.
* `HostOp` — what the host can do to a machine, a debugger included.
* `onBoard_after` — **after any history, a machine still has the board it was built with.**
-/

namespace Rv64Board

/-! ## The serial line -/

namespace Uart

/-- The bytes that software has not read yet, first those that the UART has already looked at. -/
def input (u : Uart) : List UInt8 :=
  u.fifo ++ u.inbox

lemma poll_eq (u : Uart) : u.poll = { u with inbox := [], fifo := u.input } := by
  obtain ⟨inbox, fifo, outbox, transmitted, ier, lcr, mcr, scr, divisor⟩ := u
  cases inbox with
  | nil => simp [poll, input]
  | cons b rest => rfl

end Uart

/-! ## The five devices -/

/-- The devices of a machine. -/
structure Devices where
  finisher : Finisher
  clint : Clint
  plic : Plic
  uart : Uart
  virtio : VirtioBlock

namespace Devices

/-- The devices in their places, in order of addresses. -/
def regions (d : Devices) : List Region :=
  [⟨"finisher", finisherBase, finisherBase + finisherSize, .finisher d.finisher⟩,
    ⟨"clint", clintBase, clintBase + clintSize, .clint d.clint⟩,
    ⟨"plic", plicBase, plicBase + plicSize, .plic d.plic⟩,
    ⟨"uart", uartBase, uartBase + uartSize, .uart d.uart⟩,
    ⟨"virtio", virtioBase, virtioBase + virtioSize, .virtio d.virtio⟩]

/-- The devices with the one of the same kind replaced. -/
def put (d : Devices) : Device → Devices
  | .finisher finisher => { d with finisher }
  | .clint clint => { d with clint }
  | .plic plic => { d with plic }
  | .uart uart => { d with uart }
  | .virtio virtio => { d with virtio }

/-- The devices after a power cycle. -/
def reset (d : Devices) : Devices :=
  ⟨Finisher.new, d.clint.reset, Plic.new, d.uart.reset, d.virtio.reset⟩

end Devices

namespace Device

/-- Where a device of a kind is mapped. -/
def home : Device → UInt64
  | .finisher _ => finisherBase
  | .clint _ => clintBase
  | .plic _ => plicBase
  | .uart _ => uartBase
  | .virtio _ => virtioBase

/-- What nothing changes about a device: the speed of the timer, and that a disk is one. -/
def Sound (increment : UInt64) : Device → Prop
  | .clint d => d.increment = increment
  | .virtio d => ∀ disk ∈ d.disk, VirtioBlock.IsDisk disk
  | .finisher _ | .plic _ | .uart _ => True

@[simp] lemma home_read (d : Device) (offset : UInt64) (w : Width) :
    (d.read offset w).device.home = d.home := by
  cases d <;> rfl

@[simp] lemma home_write (d : Device) (offset : UInt64) (w : Width) (value : UInt64) :
    (d.write offset w value).device.home = d.home := by
  cases d <;> rfl

variable {increment : UInt64} {d : Device}

lemma Sound.read (hd : d.Sound increment) (offset : UInt64) (w : Width) :
    (d.read offset w).device.Sound increment := by
  cases d with
  | finisher | plic | uart => trivial
  | clint d =>
      simp only [Device.read, Clint.read]
      split <;> exact hd
  | virtio d =>
      simp only [Device.read, VirtioBlock.read]
      split
      · exact hd
      · split <;> exact hd

lemma disk_writeRegister {v v' : VirtioBlock} {offset value : UInt64}
    (h : v.writeRegister offset value = some v') : v'.disk = v.disk := by
  rw [VirtioBlock.writeRegister] at h
  cases hqueue : VirtioBlock.writeQueue v.queue offset value with
  | none | some =>
      rw [hqueue] at h
      grind [VirtioBlock.reset, VirtioBlock.new]

lemma Sound.write (hd : d.Sound increment) (offset : UInt64) (w : Width) (value : UInt64) :
    (d.write offset w value).device.Sound increment := by
  cases d with
  | finisher | plic | uart => trivial
  | clint d =>
      simp only [Device.write, Clint.write]
      split <;> exact hd
  | virtio d =>
      simp only [Device.write, VirtioBlock.write]
      split
      · next hwrite =>
        simp only [Sound, disk_writeRegister hwrite]
        exact hd
      · exact hd

end Device

/-! ## The bus -/

namespace Bus

/-- The bus of a machine described by `c`, with the devices `d`. -/
structure Standard (c : MachineConfig) (d : Devices) (b : Bus) : Prop where
  regions : b.regions = d.regions
  base : b.ram.base = c.ramBase
  size : b.ram.size = c.ramSize
  clint : (Device.clint d.clint).Sound c.timerIncrement
  virtio : (Device.virtio d.virtio).Sound c.timerIncrement

/-- The bus of a machine described by `c`, whatever has become of its devices. -/
def OnBoard (c : MachineConfig) (b : Bus) : Prop :=
  ∃ d, b.Standard c d

lemma mem_of_region? {b : Bus} {address : UInt64} {len : Nat} {r : Region}
    (h : b.region? address len = some r) : r ∈ b.regions := by
  have hlast := List.mem_of_getLast? (Option.filter_eq_some_iff.mp h).1
  exact (List.mem_filter.mp hlast).1

variable {c : MachineConfig} {d : Devices} {b : Bus}

namespace Standard

lemma uart_eq (hb : b.Standard c d) : b.uart = d.uart := by
  simp only [uart, device?, hb.regions]
  rfl

lemma home_of_mem (hb : b.Standard c d) {r : Region} (hr : r ∈ b.regions) :
    r.base = r.device.home ∧ r.device.Sound c.timerIncrement := by
  rw [hb.regions] at hr
  simp only [Devices.regions, List.mem_cons, List.not_mem_nil, or_false] at hr
  rcases hr with rfl | rfl | rfl | rfl | rfl
  · exact ⟨rfl, trivial⟩
  · exact ⟨rfl, hb.clint⟩
  · exact ⟨rfl, trivial⟩
  · exact ⟨rfl, trivial⟩
  · exact ⟨rfl, hb.virtio⟩

/-- A device replaced by one of its kind leaves the others alone. -/
lemma put (hb : b.Standard c d) {base : UInt64} {device : Device} (hbase : base = device.home)
    (hdevice : device.Sound c.timerIncrement) :
    (b.setDevice base device).Standard c (d.put device) where
  regions := by
    simp only [setDevice, hb.regions, hbase]
    cases device <;> rfl
  base := hb.base
  size := hb.size
  clint := by
    cases device with
    | clint => exact hdevice
    | finisher | plic | uart | virtio => exact hb.clint
  virtio := by
    cases device with
    | virtio => exact hdevice
    | finisher | clint | plic | uart => exact hb.virtio

lemma note (hb : b.Standard c d) (notices : List Notice) : (b.note notices).Standard c d :=
  ⟨hb.regions, hb.base, hb.size, hb.clint, hb.virtio⟩

lemma store (hb : b.Standard c d) (address : UInt64) (w : Width) (value : UInt64) :
    Standard c d { b with ram := b.ram.store address w value } :=
  ⟨hb.regions, (Memory.base_patch _ _ _).trans hb.base, (Memory.size_patch _ _ _).trans hb.size,
    hb.clint, hb.virtio⟩

end Standard

/-- After a step each device is of the same kind; only the disk has touched memory. -/
lemma tickRegions_regions (d : Devices) (ram : Memory) (lines : Lines) :
    ∃ l,
      (tickRegions d.regions ram lines).1 =
        Devices.regions ⟨d.finisher, (d.clint.tick lines).1, d.plic, (d.uart.tick l).1,
          (d.virtio.answer ram).1⟩ ∧
      (tickRegions d.regions ram lines).2.1 = (d.virtio.answer ram).2.1 :=
  ⟨_, rfl, rfl⟩

lemma routeRegions_regions (d : Devices) (lines : Lines) :
    ∃ l, (routeRegions d.regions lines).1 = Devices.regions { d with plic := (d.plic.route l).1 } :=
  ⟨_, rfl⟩

lemma Standard.tick (hb : b.Standard c d) (lines : Lines) : (b.tick lines).1.OnBoard c := by
  have htick : ∃ l l', ((b.tick lines).1.regions = Devices.regions ⟨d.finisher,
      (d.clint.tick lines).1, (d.plic.route l').1, (d.uart.tick l).1, (d.virtio.answer b.ram).1⟩) ∧
      (b.tick lines).1.ram = (d.virtio.answer b.ram).2.1 := by
    obtain ⟨l, hticked, hram⟩ := tickRegions_regions d b.ram { lines with sources := 0, mip := 0 }
    obtain ⟨l', hrouted⟩ := routeRegions_regions _
      (tickRegions d.regions b.ram { lines with sources := 0, mip := 0 }).2.2.1
    rw [← hticked] at hrouted
    simp only [Bus.tick, hb.regions, hram]
    exact ⟨l, l', hrouted, trivial⟩
  obtain ⟨l, l', hregions, hram⟩ := htick
  obtain ⟨hbase, hsize, hdisk⟩ := VirtioBlock.kept_answer d.virtio b.ram
  exact ⟨_, hregions, hram ▸ hbase.trans hb.base, hram ▸ hsize.trans hb.size, hb.clint,
    hdisk hb.virtio⟩

/-- **The board of a machine stays, whatever is done to its bus.** -/
lemma kept_onBoard (c : MachineConfig) : Kept (OnBoard c) where
  read := by
    rintro a w b ⟨d, hb⟩
    rw [read]
    split
    · exact ⟨d, hb⟩
    · split
      · exact ⟨d, hb⟩
      · next r hr =>
        obtain ⟨hbase, hsound⟩ := hb.home_of_mem (mem_of_region? hr)
        have hhome := hbase.trans (Device.home_read r.device (a - r.base) w).symm
        exact ⟨_, (hb.put hhome (hsound.read _ _)).note _⟩
  write := by
    rintro a w v b ⟨d, hb⟩
    rw [write]
    split
    · exact ⟨d, hb.store a w v⟩
    · split
      · exact ⟨d, hb⟩
      · next r hr =>
        obtain ⟨hbase, hsound⟩ := hb.home_of_mem (mem_of_region? hr)
        have hhome := hbase.trans (Device.home_write r.device (a - r.base) w (v &&& w.mask)).symm
        exact ⟨_, (hb.put hhome (hsound.write _ _ _)).note _⟩
  tick := by
    rintro lines b ⟨d, hb⟩
    exact hb.tick lines
  note := by
    rintro notices b ⟨d, hb⟩
    exact ⟨d, hb.note notices⟩

lemma Standard.reset (hb : b.Standard c d) : b.reset.Standard c d.reset where
  regions := by
    simp only [Bus.reset, hb.regions]
    rfl
  base := hb.base
  size := hb.size
  clint := hb.clint
  virtio := hb.virtio

end Bus

/-! ## Machines -/

/-- The disk of a description, if there is one, is not longer than an address can tell. -/
def MachineConfig.DiskFits (c : MachineConfig) : Prop :=
  ∀ bytes ∈ c.disk, bytes.length < UInt64.size

/-- The devices of a machine that has just been built. -/
def MachineConfig.devices (c : MachineConfig) : Devices :=
  ⟨Finisher.new, Clint.new c.timerIncrement, Plic.new, Uart.new,
    VirtioBlock.new (c.disk.map VirtioBlock.diskOf)⟩

/-- A device is mapped only where nothing is. -/
lemma Bus.register_eq_ok {b b' : Bus} {name : String} {base size : UInt64} {device : Device}
    (h : b.register name base size device = .ok b') :
    b' = { b with regions := insertRegion ⟨name, base, base + size, device⟩ b.regions } ∧
      b.overlapped? base (base + size) = none := by
  rw [register] at h
  split at h
  · cases h
  · split at h <;> cases h
    next hfree => exact ⟨rfl, hfree⟩

/-- The bus that a description gives.  The UART is mapped after three other devices, and memory is
    not in its way. -/
lemma MachineConfig.bus_eq_ok {c : MachineConfig} {b : Bus} (h : c.bus = .ok b) :
    b = ⟨Memory.zeroed c.ramBase c.ramSize, c.devices.regions, []⟩ ∧
      ∃ b₀ : Bus, b₀.ram = Memory.zeroed c.ramBase c.ramSize ∧
        b₀.overlapped? uartBase (uartBase + uartSize) = none := by
  have hbind (x : Except BusError Bus) (f : Bus → Except BusError Bus) (h : x >>= f = .ok b) :
      ∃ b', x = .ok b' ∧ f b' = .ok b := by
    cases x with
    | error e => cases h
    | ok b' => exact ⟨b', rfl, h⟩
  obtain ⟨b₁, h₁, h⟩ := hbind _ _ h
  obtain ⟨b₂, h₂, h⟩ := hbind _ _ h
  obtain ⟨b₃, h₃, h⟩ := hbind _ _ h
  obtain ⟨b₄, h₄, h⟩ := hbind _ _ h
  obtain ⟨rfl, _⟩ := Bus.register_eq_ok h₁
  obtain ⟨rfl, _⟩ := Bus.register_eq_ok h₂
  obtain ⟨rfl, _⟩ := Bus.register_eq_ok h₃
  obtain ⟨rfl, hfree⟩ := Bus.register_eq_ok h₄
  obtain ⟨rfl, _⟩ := Bus.register_eq_ok h
  exact ⟨rfl, _, rfl, hfree⟩

lemma Machine.new_eq_ok {c : MachineConfig} {m : Machine} (h : Machine.new c = .ok m) :
    c.problem? = none ∧ c.bus = .ok m.board.bus := by
  rw [Machine.new] at h
  split at h
  · cases h
  · next hproblem =>
    split at h <;> cases h
    next hbus => exact ⟨hproblem, hbus⟩

/-- Memory ends below the end of the address space. -/
lemma Machine.room_of_new {c : MachineConfig} {m : Machine} (h : Machine.new c = .ok m) :
    c.ramBase.toNat + c.ramSize.toNat < UInt64.size := by
  have hproblem := (new_eq_ok h).1
  by_contra hpast
  simp only [MachineConfig.problem?, Nat.le_of_not_lt hpast, if_true] at hproblem
  grind

/-- The machine of a description, if it has one. -/
def Machine.ofConfig (c : MachineConfig) : Machine :=
  match Machine.new c with
  | .ok m => m
  | .error _ => default

lemma Machine.new_eq_ofConfig {c : MachineConfig} (h : (Machine.new c).isOk = true) :
    Machine.new c = .ok (ofConfig c) := by
  rw [ofConfig]
  cases hnew : Machine.new c with
  | ok m => rfl
  | error e =>
      rw [hnew] at h
      cases h

/-! ## Histories -/

/-- What the host can do to a machine.  The last three are for a debugger, which can change the hart
    at will and go to the bus itself. -/
inductive HostOp
  | load (image : List UInt8)
  | step
  | runFor (n : Nat)
  | runWithin (fuel : Nat)
  | cancel (cancelled : Bool)
  | feed (bytes : List UInt8)
  | pop
  | drain
  | setHart (hart : Hart)
  | read (address : UInt64) (w : Width)
  | write (address : UInt64) (w : Width) (value : UInt64)

/-- The machine after the host has done something.  A refused image leaves it as it was, and so does
    a run that was not seen to end. -/
def HostOp.apply (m : Machine) : HostOp → Machine
  | .load image =>
    match m.load image with
    | .ok m' => m'
    | .error _ => m
  | .step => m.step.2
  | .runFor n => (m.runFor n).2
  | .runWithin fuel =>
    match m.runWithin 0 fuel with
    | some (_, m') => m'
    | none => m
  | .cancel cancelled => { m with cancelled }
  | .feed bytes => m.feed bytes
  | .pop => m.pop.2
  | .drain => m.drain.2
  | .setHart hart => { m with board := { m.board with hart } }
  | .read address w =>
    { m with board := { m.board with bus := finalState (Bus.read address w m.board.bus) } }
  | .write address w value =>
    { m with board := { m.board with bus := finalState (Bus.write address w value m.board.bus) } }

namespace Machine

/-- The machine after a history. -/
def after (m : Machine) (history : List HostOp) : Machine :=
  history.foldl HostOp.apply m

variable {c : MachineConfig} {m m' : Machine}

lemma onBoard_new (hfits : c.DiskFits) (h : Machine.new c = .ok m) : m.board.bus.OnBoard c := by
  obtain ⟨hbus, _⟩ := MachineConfig.bus_eq_ok (new_eq_ok h).2
  rw [hbus]
  refine ⟨c.devices, rfl, rfl, rfl, rfl, fun disk hdisk => ?_⟩
  obtain ⟨bytes, hbytes, rfl⟩ := Option.map_eq_some_iff.mp hdisk
  exact VirtioBlock.isDisk_diskOf (hfits bytes hbytes)

/-- An image that is longer than memory is refused, and no other. -/
lemma load_eq_error_iff (m : Machine) (image : List UInt8) (e : MachineError) :
    m.load image = .error e ↔
      m.board.bus.ram.size.toNat < image.length ∧
        e = .imageTooLarge image.length m.board.bus.ram.size.toNat := by
  simp only [load]
  split
  · next hlong =>
    simp only [Except.error.injEq, hlong, true_and]
    exact eq_comm
  · next hfits => simp [hfits]

lemma load_eq_ok {image : List UInt8} (h : m.load image = .ok m') :
    image.length ≤ m.board.bus.ram.size.toNat ∧
      m' = ⟨⟨Hart.atReset m.board.bus.ram.base,
          { m.board.bus.reset with
            ram := m.board.bus.ram.clear.patch 0 image
            journal := .imageLoaded m.board.bus.ram.base image.length :: m.board.bus.journal },
          0, Lines.idle⟩, none, m.cancelled⟩ := by
  simp only [load] at h
  split at h
  · cases h
  · next hfits =>
    cases h
    exact ⟨Nat.le_of_not_lt hfits, rfl⟩

lemma standard_load {d : Devices} {image : List UInt8} (h : m.load image = .ok m')
    (hb : m.board.bus.Standard c d) : m'.board.bus.Standard c d.reset := by
  obtain ⟨_, rfl⟩ := load_eq_ok h
  exact ⟨hb.reset.regions, (Memory.base_patch _ _ _).trans hb.base,
    (Memory.size_patch _ _ _).trans hb.size, hb.reset.clint, hb.reset.virtio⟩

lemma uart_of_standard {d : Devices} (hm : m.board.bus.Standard c d) : m.uart = d.uart :=
  hm.uart_eq

lemma onBoard_setUart (hm : m.board.bus.OnBoard c) (u : Uart) :
    (m.setUart u).board.bus.OnBoard c := by
  obtain ⟨d, hb⟩ := hm
  exact ⟨d.put (.uart u), hb.put rfl trivial⟩

lemma onBoard_apply (hm : m.board.bus.OnBoard c) (op : HostOp) :
    (op.apply m).board.bus.OnBoard c := by
  have hkept := Bus.kept_onBoard c
  cases op with
  | load image =>
      simp only [HostOp.apply]
      split
      · next hload =>
        obtain ⟨d, hb⟩ := hm
        exact ⟨d.reset, standard_load hload hb⟩
      · exact hm
  | step => exact kept_step hkept hm
  | runFor n => exact kept_runFrom hkept 0 n hm
  | runWithin fuel =>
      simp only [HostOp.apply]
      split
      · next hrun => exact kept_runWithin hkept 0 fuel hm hrun
      · exact hm
  | cancel | setHart => exact hm
  | feed | pop | drain => exact onBoard_setUart hm _
  | read address w => exact hkept.read address w _ hm
  | write address w value => exact hkept.write address w value _ hm

/-- **After any history, a machine still has the board it was built with.** -/
lemma onBoard_after (hm : m.board.bus.OnBoard c) (history : List HostOp) :
    (m.after history).board.bus.OnBoard c := by
  induction history generalizing m with
  | nil => exact hm
  | cons op history ih => exact ih (onBoard_apply hm op)

end Machine

end Rv64Board
