import Mathlib.Data.List.Nodup
import Rv64Board.Proofs.BusMap
import Rv64Board.Proofs.Histories
import Rv64Board.Proofs.InterruptService
import Rv64Board.Proofs.Oblivious

/-!
# Sampled lines

At the end of a step the devices take a step of their own, in order of addresses, and then the
interrupt controller looks at the levels that they have raised.  One of them writes to memory, and
one of them uses what the others raise; still the order of their addresses makes no difference, and
what the hart samples is what the devices say after the step.

* `Devices.list`, `Bus.Equipped` — a bus with the five devices at any addresses that do not meet.
* `kept_equipped` — such a bus stays one, and a halt request stays.
* `tickRegions_disk`, `routeRegions_controller` — **what the two phases do,** wherever the disk and
  the controller stand in the order.
* `Equipped.tick` — a step of the devices, as a function of the devices, memory and the lines alone.
* `Board.sampled_lines_mirror_devices` — the lines and the registers after a step of the board.
-/

namespace Rv64Board

/-! ## The five devices at any addresses -/

namespace Devices

/-- The devices, wherever they are. -/
def list (d : Devices) : List Device :=
  [.finisher d.finisher, .clint d.clint, .plic d.plic, .uart d.uart, .virtio d.virtio]

variable {d : Devices} {device device' : Device}

lemma mem_list :
    device ∈ d.list ↔ device = .finisher d.finisher ∨ device = .clint d.clint ∨
      device = .plic d.plic ∨ device = .uart d.uart ∨ device = .virtio d.virtio := by
  simp [list]

/-- Kinds are told apart by where a machine has them. -/
lemma nodup_homes (d : Devices) : (d.list.map Device.home).Nodup := by
  have hhomes : d.list.map Device.home =
      [finisherBase, clintBase, plicBase, uartBase, virtioBase] := rfl
  rw [hhomes]
  decide

lemma perm_replace {α : Type} {front back : List α} {a a' : α} (below above : List α)
    (h : (front ++ a :: back).Perm (below ++ a :: above)) :
    (front ++ a' :: back).Perm (below ++ a' :: above) := by
  have hrest : (front ++ back).Perm (below ++ above) :=
    List.Perm.cons_inv (List.perm_middle.symm.trans (h.trans List.perm_middle))
  exact List.perm_middle.trans ((hrest.cons a').trans List.perm_middle.symm)

/-- Each device has a place of its own, and the others are of other kinds. -/
lemma split_regions {rs : List Region} (h : (rs.map Region.device).Perm d.list)
    (hmem : device ∈ d.list) :
    ∃ below r above, rs = below ++ r :: above ∧ r.device = device ∧
      ∀ s, s ∈ below ∨ s ∈ above → s.device.home ≠ device.home := by
  obtain ⟨r, hr, rfl⟩ := List.mem_map.mp (h.symm.subset hmem)
  obtain ⟨below, above, rfl⟩ := List.mem_iff_append.mp hr
  refine ⟨below, r, above, rfl, rfl, ?_⟩
  have hnodup := ((h.map Device.home).nodup_iff).mpr d.nodup_homes
  rw [List.map_map, List.map_append, List.map_cons, List.perm_middle.nodup_iff, List.nodup_cons,
    ← List.map_append] at hnodup
  intro s hs hsame
  exact hnodup.1 (List.mem_map.mpr ⟨s, List.mem_append.mpr hs, hsame⟩)

/-- A device replaced by one of its kind, in any order. -/
lemma perm_put {front back : List Device} (h : (front ++ device :: back).Perm d.list)
    (hkind : device'.home = device.home) :
    (front ++ device' :: back).Perm (d.put device').list := by
  have hmem : device ∈ d.list := h.subset (by simp)
  rcases mem_list.mp hmem with rfl | rfl | rfl | rfl | rfl
  · cases device' with
    | finisher => exact perm_replace [] _ h
    | clint | plic | uart | virtio => exact absurd hkind (by simp only [Device.home]; decide)
  · cases device' with
    | clint => exact perm_replace [_] _ h
    | finisher | plic | uart | virtio => exact absurd hkind (by simp only [Device.home]; decide)
  · cases device' with
    | plic => exact perm_replace [_, _] _ h
    | finisher | clint | uart | virtio => exact absurd hkind (by simp only [Device.home]; decide)
  · cases device' with
    | uart => exact perm_replace [_, _, _] _ h
    | finisher | clint | plic | virtio => exact absurd hkind (by simp only [Device.home]; decide)
  · cases device' with
    | virtio => exact perm_replace [_, _, _, _] _ h
    | finisher | clint | plic | uart => exact absurd hkind (by simp only [Device.home]; decide)

end Devices

namespace Bus

/-- One finisher, one interruptor, one interrupt controller, one UART and one disk, at addresses
    that do not meet, in any order. -/
structure Equipped (d : Devices) (b : Bus) : Prop where
  mapped : b.WellMapped
  devices : (b.regions.map Region.device).Perm d.list

variable {d : Devices} {b : Bus}

lemma WellMapped.of_sameMap {b' : Bus} (h : SameMap b b') (hb : b.WellMapped) : b'.WellMapped := by
  have hspans : b'.regions.map Region.span = b.regions.map Region.span := by
    have hextents := congrArg (List.map fun e => Span.mk e.1.toNat e.2.toNat) h.extents
    rw [List.map_map, List.map_map] at hextents
    exact hextents
  have hram : b'.ram.span = b.ram.span := by rw [Memory.span, Memory.span, h.base, h.size]
  refine ⟨hram ▸ hb.memory, hram ▸ hb.memoryEnd, ?_, ?_, ?_⟩
  · have hnonempty := hb.nonempty
    rw [← List.forall_mem_map (P := fun s : Span => s.low < s.high)] at hnonempty ⊢
    rwa [hspans]
  · have hordered := hb.ordered
    rw [← List.pairwise_map (R := fun s t : Span => s.high ≤ t.low)] at hordered ⊢
    rwa [hspans]
  · have hapart := hb.apart
    rw [← List.forall_mem_map (P := fun s : Span => s.Apart b.ram.span)] at hapart
    rw [hram, ← List.forall_mem_map (P := fun s : Span => s.Apart b.ram.span), hspans]
    exact hapart

/-- A device is replaced by one of its kind. -/
lemma Equipped.put (hb : b.Equipped d) {r : Region} (hr : r ∈ b.regions) {device : Device}
    (hkind : device.home = r.device.home) :
    (b.setDevice r.base device).Equipped (d.put device) := by
  obtain ⟨below, above, hsplit⟩ := List.mem_iff_append.mp hr
  refine ⟨hb.mapped.of_sameMap (sameMap_setDevice b r.base device), ?_⟩
  have hdevices := hb.devices
  rw [hsplit, List.map_append, List.map_cons] at hdevices
  rw [setDevice_regions hb.mapped hsplit, List.map_append, List.map_cons]
  exact Devices.perm_put hdevices hkind

lemma Equipped.note (hb : b.Equipped d) (notices : List Notice) : (b.note notices).Equipped d :=
  ⟨hb.mapped.of_sameMap (sameMap_note b notices), hb.devices⟩

end Bus

/-! ## The first phase -/

/-- The source that a UART raises, if it has just polled. -/
def Uart.level (u : Uart) : UInt64 :=
  if u.receivePending || u.transmitPending then 1 <<< source else 0

/-- The source that a disk raises. -/
def VirtioBlock.level (v : VirtioBlock) : UInt64 :=
  if v.interruptStatus = 0 then 0 else 1 <<< source

/-- The interruptor after its timer has advanced. -/
def Clint.advanced (c : Clint) : Clint :=
  { c with mtime := c.mtime + c.increment }

namespace Device

/-- The device after a step. -/
def after (ram : Memory) (device : Device) : Device :=
  (device.tick ram Lines.idle).device

/-- What a device adds to the lines. -/
def raised (ram : Memory) (lines : Lines) (device : Device) : Lines :=
  (device.tick ram lines).lines

/-- Only the disk looks at memory. -/
lemma tick_of_not_disk {device : Device} (h : device.home ≠ virtioBase) (ram ram' : Memory)
    (lines : Lines) :
    device.tick ram lines = ⟨device.after ram', ram, device.raised ram' lines, []⟩ := by
  cases device with
  | virtio => exact absurd rfl h
  | finisher | clint | plic => rfl
  | uart u =>
      simp only [after, raised, tick, Uart.tick]
      split <;> rfl

lemma raised_finisher (ram : Memory) (lines : Lines) (f : Finisher) :
    raised ram lines (.finisher f) = { lines with halt := lines.halt <|> f.requested } := rfl

lemma raised_clint (ram : Memory) (lines : Lines) (c : Clint) :
    raised ram lines (.clint c) =
      { lines with mtime := c.advanced.mtime, mip := lines.mip ||| c.advanced.driven } := rfl

lemma raised_plic (ram : Memory) (lines : Lines) (p : Plic) :
    raised ram lines (.plic p) = lines := rfl

lemma raised_uart (ram : Memory) (lines : Lines) (u : Uart) :
    raised ram lines (.uart u) =
      { lines with sources := lines.sources ||| u.pollIfEnabled.level } := by
  simp only [raised, tick, Uart.tick, Uart.level]
  split
  · rfl
  · simp

lemma raised_virtio (ram : Memory) (lines : Lines) (v : VirtioBlock) :
    raised ram lines (.virtio v) =
      { lines with sources := lines.sources ||| (v.answer ram).1.level } := by
  simp only [raised, tick, VirtioBlock.raise, VirtioBlock.level]
  split
  · simp
  · rfl

/-- Devices of different kinds do not get in the way of each other. -/
lemma raised_comm {device device' : Device} (h : device.home ≠ device'.home) (ram : Memory)
    (lines : Lines) :
    raised ram (raised ram lines device) device' =
      raised ram (raised ram lines device') device := by
  have hor (a b c : UInt64) : a ||| b ||| c = a ||| c ||| b := by
    rw [UInt64.or_assoc, UInt64.or_comm b c, UInt64.or_assoc]
  cases device with
  | finisher =>
      cases device' with
      | finisher => exact absurd rfl h
      | clint | plic | uart | virtio =>
          simp only [raised_finisher, raised_clint, raised_plic, raised_uart, raised_virtio]
  | clint =>
      cases device' with
      | clint => exact absurd rfl h
      | finisher | plic | uart | virtio =>
          simp only [raised_finisher, raised_clint, raised_plic, raised_uart, raised_virtio]
  | plic => simp only [raised_plic]
  | uart =>
      cases device' with
      | uart => exact absurd rfl h
      | finisher | clint | plic | virtio =>
          simp only [raised_finisher, raised_clint, raised_plic, raised_uart, raised_virtio, hor]
  | virtio =>
      cases device' with
      | virtio => exact absurd rfl h
      | finisher | clint | plic | uart =>
          simp only [raised_finisher, raised_clint, raised_plic, raised_uart, raised_virtio, hor]

end Device

namespace Bus

lemma tickRegions_of_not_disk {rs : List Region} (h : ∀ r ∈ rs, r.device.home ≠ virtioBase)
    (ram ram' : Memory) (lines : Lines) :
    tickRegions rs ram lines =
      (rs.map fun r => { r with device := r.device.after ram' }, ram,
        (rs.map Region.device).foldl (Device.raised ram') lines, []) := by
  induction rs generalizing lines with
  | nil => rfl
  | cons r rs ih =>
      rw [tickRegions, Device.tick_of_not_disk (h r List.mem_cons_self) ram ram']
      simp only
      rw [ih fun s hs => h s (List.mem_cons_of_mem r hs)]
      rfl

lemma tickRegions_append (rs rs' : List Region) (ram : Memory) (lines : Lines) :
    tickRegions (rs ++ rs') ram lines =
      let t := tickRegions rs ram lines
      let u := tickRegions rs' t.2.1 t.2.2.1
      (t.1 ++ u.1, u.2.1, u.2.2.1, u.2.2.2 ++ t.2.2.2) := by
  induction rs generalizing ram lines with
  | nil => simp [tickRegions]
  | cons r rs ih => simp only [List.cons_append, tickRegions, ih, List.append_assoc]

/-- **The first phase, wherever the disk stands in the order:** each device sees memory as it was
    before, and memory is as the disk leaves it. -/
lemma tickRegions_disk {below above : List Region} {r : Region} {v : VirtioBlock}
    (hdisk : r.device = .virtio v)
    (hother : ∀ s, s ∈ below ∨ s ∈ above → s.device.home ≠ virtioBase) (ram : Memory)
    (lines : Lines) :
    tickRegions (below ++ r :: above) ram lines =
      ((below ++ r :: above).map fun r => { r with device := r.device.after ram },
        (v.answer ram).2.1,
        ((below ++ r :: above).map Region.device).foldl (Device.raised ram) lines,
        (v.answer ram).2.2) := by
  rw [tickRegions_append, tickRegions_of_not_disk (fun s hs => hother s (Or.inl hs)) ram ram]
  simp only [tickRegions]
  rw [tickRegions_of_not_disk (fun s hs => hother s (Or.inr hs)) _ ram]
  simp only [List.map_append, List.map_cons, List.foldl_append, List.foldl_cons, hdisk,
    List.append_nil, List.nil_append]
  rfl

/-! ## The second phase -/

lemma routeRegions_of_not_controller {rs : List Region} (h : ∀ r ∈ rs, r.device.home ≠ plicBase)
    (lines : Lines) : routeRegions rs lines = (rs, lines) := by
  induction rs generalizing lines with
  | nil => rfl
  | cons r rs ih =>
      have hroute : r.device.route lines = (r.device, lines) := by
        have hr := h r List.mem_cons_self
        cases hdevice : r.device with
        | plic =>
            rw [hdevice] at hr
            exact absurd rfl hr
        | finisher | clint | uart | virtio => rfl
      rw [routeRegions, hroute]
      simp only
      rw [ih fun s hs => h s (List.mem_cons_of_mem r hs)]

lemma routeRegions_append (rs rs' : List Region) (lines : Lines) :
    routeRegions (rs ++ rs') lines =
      let t := routeRegions rs lines
      let u := routeRegions rs' t.2
      (t.1 ++ u.1, u.2) := by
  induction rs generalizing lines with
  | nil => rfl
  | cons r rs ih => simp only [List.cons_append, routeRegions, ih]

/-- **The second phase, wherever the controller stands in the order.** -/
lemma routeRegions_controller {below above : List Region} {r : Region} {p : Plic}
    (hcontroller : r.device = .plic p)
    (hother : ∀ s, s ∈ below ∨ s ∈ above → s.device.home ≠ plicBase) (lines : Lines) :
    routeRegions (below ++ r :: above) lines =
      (below ++ { r with device := .plic (p.route lines).1 } :: above, (p.route lines).2) := by
  rw [routeRegions_append, routeRegions_of_not_controller (fun s hs => hother s (Or.inl hs))]
  simp only [routeRegions, hcontroller, Device.route]
  rw [routeRegions_of_not_controller (fun s hs => hother s (Or.inr hs))]

end Bus

/-! ## Both phases -/

namespace Devices

/-- The devices after the first phase. -/
def advanced (d : Devices) (ram : Memory) : Devices :=
  ⟨d.finisher, d.clint.advanced, d.plic, d.uart.pollIfEnabled, (d.virtio.answer ram).1⟩

/-- The sources that the devices raise. -/
def levels (d : Devices) : UInt64 :=
  d.uart.level ||| d.virtio.level

/-- The devices after both phases: the controller takes in the levels. -/
def ticked (d : Devices) (ram : Memory) : Devices :=
  let levels := (d.advanced ram).levels
  let pending := d.plic.pending ||| (levels &&& ~~~d.plic.inService &&& ~~~1)
  { d.advanced ram with plic := { d.plic with pending } }

/-- The lines that the devices drive, beside a halt that is already requested. -/
def lines (d : Devices) (halt : Option UInt32) : Lines :=
  ⟨d.levels, d.clint.driven ||| d.plic.driven, d.clint.mtime, halt <|> d.finisher.requested⟩

lemma map_after (d : Devices) (ram : Memory) :
    d.list.map (Device.after ram) = (d.advanced ram).list := by
  have huart : Device.after ram (.uart d.uart) = .uart d.uart.pollIfEnabled := by
    simp only [Device.after, Device.tick, Uart.tick]
    split <;> rfl
  simp only [list, List.map_cons, List.map_nil, huart]
  rfl

/-- **The order of the devices makes no difference to the lines.** -/
lemma foldl_raised {d : Devices} {row : List Device} (h : row.Perm d.list) (ram : Memory)
    (lines : Lines) :
    row.foldl (Device.raised ram) { lines with sources := 0, mip := 0 } =
      ⟨(d.advanced ram).levels, d.clint.advanced.driven, d.clint.advanced.mtime,
        lines.halt <|> d.finisher.requested⟩ := by
  have hinjective {x y : Device} (hx : x ∈ row) (hy : y ∈ row) (hkind : x.home = y.home) : x = y :=
    List.inj_on_of_nodup_map d.nodup_homes (h.subset hx) (h.subset hy) hkind
  rw [h.foldl_eq' fun x hx y hy l => ?_]
  · simp only [list, List.foldl_cons, List.foldl_nil, Device.raised_finisher, Device.raised_clint,
      Device.raised_plic, Device.raised_uart, Device.raised_virtio, UInt64.zero_or]
    rfl
  · by_cases hkind : x.home = y.home
    · rw [hinjective hx hy hkind]
    · exact Device.raised_comm hkind ram l

end Devices

namespace Bus

variable {d : Devices} {b : Bus}

/-- **A step of the devices, in whatever order they stand.** -/
lemma Equipped.tick (hb : b.Equipped d) (lines : Lines) :
    (b.tick lines).1.Equipped (d.ticked b.ram) ∧
      (b.tick lines).1.ram = (d.virtio.answer b.ram).2.1 ∧
      (b.tick lines).2 = (d.ticked b.ram).lines lines.halt := by
  have hvirtio : Device.virtio d.virtio ∈ d.list := by simp [Devices.list]
  have hplic : Device.plic d.plic ∈ (d.advanced b.ram).list := by
    simp [Devices.list, Devices.advanced]
  -- the first phase
  obtain ⟨below, r, above, hsplit, hdisk, hother⟩ := Devices.split_regions hb.devices hvirtio
  have hfirst := tickRegions_disk hdisk hother b.ram { lines with sources := 0, mip := 0 }
  rw [← hsplit, Devices.foldl_raised hb.devices] at hfirst
  have hdevices : ((b.regions.map fun r => { r with device := r.device.after b.ram }).map
      Region.device).Perm (d.advanced b.ram).list := by
    have hperm := hb.devices.map (Device.after b.ram)
    rw [Devices.map_after, List.map_map] at hperm
    rw [List.map_map]
    exact hperm
  -- the second phase
  obtain ⟨below', r', above', hsplit', hcontroller, hother'⟩ :=
    Devices.split_regions hdevices hplic
  have hsecond := routeRegions_controller hcontroller hother'
    ⟨(d.advanced b.ram).levels, d.clint.advanced.driven, d.clint.advanced.mtime,
      lines.halt <|> d.finisher.requested⟩
  rw [hsplit', List.map_append, List.map_cons, hcontroller] at hdevices
  have htick : b.tick lines = (⟨(d.virtio.answer b.ram).2.1, below' ++
      { r' with device := .plic (d.ticked b.ram).plic } :: above',
      (d.virtio.answer b.ram).2.2 ++ b.journal⟩, (d.ticked b.ram).lines lines.halt) := by
    simp only [Bus.tick, hfirst, hsplit', hsecond]
    rfl
  have hmapped := hb.mapped.of_sameMap (sameMap_tick b lines)
  rw [htick] at hmapped ⊢
  refine ⟨⟨hmapped, ?_⟩, rfl, rfl⟩
  rw [List.map_append, List.map_cons]
  exact Devices.perm_put hdevices rfl

/-! ## What stays -/

lemma finisher_read {device : Device} (hmem : device ∈ d.list) (offset : UInt64) (w : Width) :
    (d.put (device.read offset w).device).finisher = d.finisher := by
  rcases Devices.mem_list.mp hmem with rfl | rfl | rfl | rfl | rfl <;> rfl

/-- The first request stands. -/
lemma requested_write {device : Device} (hmem : device ∈ d.list) (offset : UInt64) (w : Width)
    (value : UInt64) {code : UInt32} (hcode : d.finisher.requested = some code) :
    (d.put (device.write offset w value).device).finisher.requested = some code := by
  rcases Devices.mem_list.mp hmem with rfl | rfl | rfl | rfl | rfl
  · simp only [Device.write, Finisher.write, Devices.put]
    split
    · exact hcode
    · split
      · simp only [hcode]
        rfl
      · exact hcode
  · exact hcode
  · exact hcode
  · exact hcode
  · exact hcode

/-- **A bus with the five devices stays one, and a halt that is requested stays requested.** -/
lemma kept_equipped (halt : Option UInt32) :
    Kept fun b => ∃ d, b.Equipped d ∧ ∀ code ∈ halt, d.finisher.requested = some code where
  read := by
    rintro a w b ⟨d, hb, hhalt⟩
    rw [read]
    split
    · exact ⟨d, hb, hhalt⟩
    · split
      · exact ⟨d, hb, hhalt⟩
      · next r hr =>
        have hr := mem_of_region? hr
        have hmem := hb.devices.subset (List.mem_map_of_mem hr)
        refine ⟨_, (hb.put hr (Device.home_read _ _ _)).note _, ?_⟩
        rw [finisher_read hmem]
        exact hhalt
  write := by
    rintro a w v b ⟨d, hb, hhalt⟩
    rw [write]
    split
    · exact ⟨d, ⟨hb.mapped.of_sameMap (sameMap_store b a w v), hb.devices⟩, hhalt⟩
    · split
      · exact ⟨d, hb, hhalt⟩
      · next r hr =>
        have hr := mem_of_region? hr
        have hmem := hb.devices.subset (List.mem_map_of_mem hr)
        exact ⟨_, (hb.put hr (Device.home_write _ _ _ _)).note _, fun code hcode =>
          requested_write hmem _ _ _ (hhalt code hcode)⟩
  tick := by
    rintro lines b ⟨d, hb, hhalt⟩
    exact ⟨_, (hb.tick lines).1, hhalt⟩
  note := by
    rintro notices b ⟨d, hb, hhalt⟩
    exact ⟨d, hb.note notices, hhalt⟩

end Bus

/-! ## Bits and sources -/

namespace Devices

open Bits (In in_or in_and in_not in_ite in_ite_zero)
open Plic (in_bitOf in_one claim_ne_zero_iff)

variable {d : Devices}

/-- **The pending bits, one by one.** -/
lemma in_driven {bit : Fin 64} :
    In bit (d.clint.driven ||| d.plic.driven) ↔
      bit = 3 ∧ d.clint.msip &&& 1 ≠ 0 ∨ bit = 7 ∧ d.clint.mtimecmp ≤ d.clint.mtime ∨
        bit = 11 ∧ (d.plic.claim 0).1 ≠ 0 ∨ bit = 9 ∧ (d.plic.claim 1).1 ≠ 0 := by
  have hmasks : Interrupt.machineSoftware.mask = Plic.bitOf 3 ∧
      Interrupt.machineTimer.mask = Plic.bitOf 7 ∧ Interrupt.machineExternal.mask = Plic.bitOf 11 ∧
      Interrupt.supervisorExternal.mask = Plic.bitOf 9 := by decide
  obtain ⟨hsoftware, htimer, hmachine, hsupervisor⟩ := hmasks
  simp only [Clint.driven, Plic.driven, in_or, in_ite, in_ite_zero, hsoftware, htimer, hmachine,
    hsupervisor, in_bitOf, claim_ne_zero_iff]
  tauto

/-- The sources that are up, one by one. -/
lemma in_levels {id : Fin 64} :
    In id d.levels ↔
      id = 10 ∧ (d.uart.receivePending || d.uart.transmitPending) = true ∨
        id = 1 ∧ d.virtio.interruptStatus ≠ 0 := by
  have hbits : (1 : UInt64) <<< Uart.source = Plic.bitOf 10 ∧
      (1 : UInt64) <<< VirtioBlock.source = Plic.bitOf 1 := by decide
  simp only [levels, Uart.level, VirtioBlock.level, in_or, in_ite, in_ite_zero, hbits, in_bitOf]
  tauto

/-- **The controller takes in what is up and not in service.** -/
lemma in_pending_ticked {id : Fin 64} {ram : Memory} :
    In id (d.ticked ram).plic.pending ↔
      In id d.plic.pending ∨ In id (d.ticked ram).levels ∧ ¬In id d.plic.inService := by
  have hlevels : (d.ticked ram).levels = (d.advanced ram).levels := rfl
  -- source 0 is never up
  have hzero : In id (d.advanced ram).levels → id ≠ 0 := by
    rw [in_levels]
    rintro (⟨rfl, -⟩ | ⟨rfl, -⟩) <;> decide
  rw [hlevels]
  simp only [ticked, in_or, in_and, in_not, in_one]
  tauto

end Devices

namespace Board

/-- A step comes to the devices: the instruction does not end it by jumping to itself while nothing
    could interrupt it. -/
def reachesDevices (b : Board) : Bool :=
  match executeNext b with
  | .ok i b₁ => !stuck i b.hart.pc (retire b₁.hart)
  | .error _ _ => true

lemma step_eq_finishStep {b : Board} (h : b.reachesDevices = true) :
    ∃ trapped b₁, b.step = finishStep trapped b₁ ∧ b₁.bus = (finalState (executeNext b)).bus ∧
      b₁.lines = b.lines := by
  have hlines := (executeNext_surroundings b).2
  rw [step]
  cases hrun : executeNext b with
  | error e t =>
      rw [hrun] at hlines
      exact ⟨true, t.updateHart fun h => h.trap (.exception e), rfl, rfl, hlines⟩
  | ok i t =>
      rw [hrun] at hlines
      simp only [reachesDevices, hrun, Bool.not_eq_true'] at h
      have hgoes : ¬stuck i b.hart.pc (t.updateHart retire).hart = true := by
        rw [Bool.not_eq_true]
        exact h
      simp only [if_neg hgoes]
      exact ⟨false, t.updateHart retire, rfl, rfl, hlines⟩

/-- The registers that show the lines show the lines of this step, also after an interrupt. -/
lemma sampled_finishStep (trapped : Bool) (b : Board) :
    (finishStep trapped b).2.hart.csrs.hardwareMip = (finishStep trapped b).2.lines.mip ∧
      (finishStep trapped b).2.hart.csrs.time = (finishStep trapped b).2.lines.mtime := by
  have htrap (h : Hart) (t : Trap) : (h.trap t).csrs.hardwareMip = h.csrs.hardwareMip ∧
      (h.trap t).csrs.time = h.csrs.time := by
    rw [Hart.trap]
    split <;> exact ⟨rfl, rfl⟩
  rcases finishStep_hart trapped b with hhart | ⟨-, hhart⟩
  · rw [hhart]
    exact ⟨rfl, rfl⟩
  · rw [hhart, interrupt]
    split
    · exact htrap _ _
    · exact ⟨rfl, rfl⟩

lemma bus_finishStep (trapped : Bool) (b : Board) :
    (finishStep trapped b).2.bus = (b.bus.tick b.lines).1 := by
  simp only [finishStep]
  split <;> rfl

lemma halted_finishStep (trapped : Bool) {b : Board} {code : UInt32}
    (h : (finishStep trapped b).2.lines.halt = some code) :
    (finishStep trapped b).1 = .halted code := by
  rw [finishStep_lines] at h
  simp only [finishStep, h]

/-- **The end of a step does not depend on where the devices are.** -/
lemma finishStep_anywhere {d : Devices} {p q : Board} (hp : p.bus.Equipped d)
    (hq : q.bus.Equipped d) (hram : q.bus.ram = p.bus.ram) (hsame : q = { p with bus := q.bus })
    (trapped : Bool) :
    (finishStep trapped q).1 = (finishStep trapped p).1 ∧
      (finishStep trapped q).2 =
        { (finishStep trapped p).2 with bus := (finishStep trapped q).2.bus } ∧
      (finishStep trapped q).2.bus.ram = (finishStep trapped p).2.bus.ram ∧
      (finishStep trapped p).2.bus.Equipped (d.ticked p.bus.ram) ∧
      (finishStep trapped q).2.bus.Equipped (d.ticked p.bus.ram) := by
  obtain ⟨hart, bus, cycles, lines⟩ := p
  obtain ⟨hart', bus', cycles', lines'⟩ := q
  obtain ⟨rfl, -, rfl, rfl⟩ := Board.mk.inj hsame
  obtain ⟨hequipped, hmemory, hlines⟩ := hp.tick lines'
  obtain ⟨hequipped', hmemory', hlines'⟩ := hq.tick lines'
  simp only at hram hequipped hequipped' hmemory hmemory' hlines hlines' ⊢
  rw [hram] at hequipped' hmemory' hlines'
  rw [bus_finishStep, bus_finishStep]
  refine ⟨?_, ?_, hmemory'.trans hmemory.symm, hequipped, hequipped'⟩
  · simp only [finishStep, hlines, hlines']
    split <;> rfl
  · simp only [finishStep, hlines, hlines']
    split <;> rfl

/-- **The lines that the hart samples mirror the devices exactly.**  Let `d₁` be the devices as the
    instruction leaves them, and `d₂` the devices after the step.  The pending bits are those of the
    software interrupt, of a timer that has run out, and of the contexts 0 and 1 of the controller
    if they would be granted a claim; there are no others.  The time is that of the timer.  The
    controller has gained the sources that the UART and the disk hold up after this step, unless
    they are in service.  A halt that is already requested, by the lines or by the finisher, is the
    one that the step ends with.  And none of this depends on where the devices are: two boards with
    the same devices, memory, hart and lines end a step in the same way. -/
theorem sampled_lines_mirror_devices {d : Devices} {b : Board} (hb : b.bus.Equipped d)
    (hstep : b.reachesDevices = true) :
    (∃ d₁ d₂ : Devices, (finalState (executeNext b)).bus.Equipped d₁ ∧ b.step.2.bus.Equipped d₂ ∧
      d₂.uart = d₁.uart.pollIfEnabled ∧
      d₂.virtio = (d₁.virtio.answer (finalState (executeNext b)).bus.ram).1 ∧
      (∀ bit, Bits.In bit b.step.2.hart.csrs.hardwareMip ↔
        bit = 3 ∧ d₂.clint.msip &&& 1 ≠ 0 ∨ bit = 7 ∧ d₂.clint.mtimecmp ≤ d₂.clint.mtime ∨
          bit = 11 ∧ (d₂.plic.claim 0).1 ≠ 0 ∨ bit = 9 ∧ (d₂.plic.claim 1).1 ≠ 0) ∧
      b.step.2.hart.csrs.time = d₂.clint.mtime ∧
      (∀ id, Bits.In id d₂.plic.pending ↔
        Bits.In id d₁.plic.pending ∨
          (id = 10 ∧ (d₂.uart.receivePending || d₂.uart.transmitPending) = true ∨
            id = 1 ∧ d₂.virtio.interruptStatus ≠ 0) ∧ ¬Bits.In id d₁.plic.inService) ∧
      (∀ code, d.finisher.requested = some code → d₂.finisher.requested = some code) ∧
      b.step.2.lines.halt = (b.lines.halt <|> d₂.finisher.requested) ∧
      ∀ code, (b.lines.halt <|> d.finisher.requested) = some code →
        b.step.1 = .halted code ∧ b.step.2.lines.halt = some code) ∧
    ∀ (e : Devices) (trapped : Bool) (p q : Board), p.bus.Equipped e → q.bus.Equipped e →
      q.bus.ram = p.bus.ram → q = { p with bus := q.bus } →
      (finishStep trapped q).1 = (finishStep trapped p).1 ∧
      (finishStep trapped q).2 =
        { (finishStep trapped p).2 with bus := (finishStep trapped q).2.bus } ∧
      (finishStep trapped q).2.bus.ram = (finishStep trapped p).2.bus.ram ∧
      ∃ e', (finishStep trapped p).2.bus.Equipped e' ∧
        (finishStep trapped q).2.bus.Equipped e' := by
  constructor
  · obtain ⟨d₁, hd₁, hrequest⟩ := leaves_carries_executeNext
      (Bus.kept_equipped d.finisher.requested) b ⟨d, hb, fun code hcode => hcode⟩
    obtain ⟨trapped, b₁, hfinish, hbus, hlines⟩ := step_eq_finishStep hstep
    rw [← hbus] at hd₁ ⊢
    obtain ⟨hequipped, -, hsampled⟩ := hd₁.tick b₁.lines
    obtain ⟨hmip, htime⟩ := sampled_finishStep trapped b₁
    rw [finishStep_lines, hsampled] at hmip htime
    have hhalt : b.step.2.lines.halt = (b.lines.halt <|> d₁.finisher.requested) := by
      rw [hfinish, finishStep_lines, hsampled, hlines]
      rfl
    refine ⟨d₁, d₁.ticked b₁.bus.ram, hd₁, ?_, rfl, rfl, fun bit => ?_, ?_, fun id => ?_, hrequest,
      hhalt, ?_⟩
    · rw [hfinish, bus_finishStep]
      exact hequipped
    · rw [hfinish, hmip, ← Devices.in_driven]
      rfl
    · rw [hfinish, htime]
      rfl
    · rw [← Devices.in_levels]
      exact Devices.in_pending_ticked
    · intro code hcode
      have hstays : b.step.2.lines.halt = some code := by
        rw [hhalt]
        cases hlines : b.lines.halt with
        | some => rwa [hlines] at hcode
        | none =>
            rw [hlines] at hcode
            exact hrequest code hcode
      rw [hfinish] at hstays ⊢
      exact ⟨halted_finishStep trapped hstays, hstays⟩
  · intro e trapped p q hp hq hram hsame
    obtain ⟨hverdict, hboard, hmemory, hp', hq'⟩ := finishStep_anywhere hp hq hram hsame trapped
    exact ⟨hverdict, hboard, hmemory, _, hp', hq'⟩

/-- Devices with a software interrupt, a timer about to run out and a UART that has sent a byte. -/
def busyDevices : Devices where
  finisher := Finisher.new
  clint := { Clint.new 1 with msip := 1, mtimecmp := 1 }
  plic := { Plic.new with
    priority := Plic.new.priority.set 10 1
    contexts := Plic.new.contexts.set 0 ⟨0x400, 0⟩ }
  uart := { Uart.new with ier := 2, transmitted := true }
  virtio := VirtioBlock.new none

/-- A board with these devices the other way round, two of them beyond memory. -/
def scattered : Board where
  hart := Hart.atReset 0x80000000
  bus := ⟨(Memory.zeroed 0x80000000 0x1000).store 0x80000000 .word 0x13,
    [⟨"virtio", 0x1000, 0x2000, .virtio busyDevices.virtio⟩,
      ⟨"uart", 0x2000, 0x2100, .uart busyDevices.uart⟩,
      ⟨"plic", 0x4000000, 0x8000000, .plic busyDevices.plic⟩,
      ⟨"clint", 0x90000000, 0x90010000, .clint busyDevices.clint⟩,
      ⟨"finisher", 0x90020000, 0x90021000, .finisher busyDevices.finisher⟩], []⟩
  cycles := 0
  lines := Lines.idle

lemma equipped_scattered : scattered.bus.Equipped busyDevices where
  mapped := by
    have hram : scattered.bus.ram.span = ⟨0x80000000, 0x80001000⟩ := rfl
    constructor
    · decide
    · decide
    · simp only [scattered, List.forall_mem_cons, Region.span, UInt64.reduceToNat]
      simp
    · simp only [scattered, List.pairwise_cons, List.mem_cons, Region.span, UInt64.reduceToNat]
      simp
    · rw [hram]
      simp only [scattered, List.forall_mem_cons, Region.span, Span.Apart, UInt64.reduceToNat]
      simp
  devices := List.reverse_perm busyDevices.list

/-- The software interrupt, the timer and the UART show up after one step. -/
theorem scattered_lines_mirrored :
    scattered.bus.Equipped busyDevices ∧ scattered.reachesDevices = true ∧
    scattered.step.2.hart.csrs.hardwareMip = 0x888 ∧
    ∃ d, scattered.step.2.bus.Equipped d ∧ d.clint.msip &&& 1 ≠ 0 ∧
      d.clint.mtimecmp ≤ d.clint.mtime ∧ (d.plic.claim 0).1 ≠ 0 ∧ (d.plic.claim 1).1 = 0 := by
  have hreaches : scattered.reachesDevices = true := by decide +kernel
  have hmip : scattered.step.2.hart.csrs.hardwareMip = 0x888 := by decide +kernel
  obtain ⟨⟨d₁, d₂, -, hd₂, -, -, hbits, -⟩, -⟩ :=
    sampled_lines_mirror_devices equipped_scattered hreaches
  rw [hmip] at hbits
  have hthree := (hbits 3).mp (by decide)
  have hseven := (hbits 7).mp (by decide)
  have heleven := (hbits 11).mp (by decide)
  have hnine := mt (hbits 9).mpr (by decide)
  simp only [Fin.isValue, Fin.reduceEq, false_and, true_and, false_or, or_false]
    at hthree hseven heleven hnine
  exact ⟨equipped_scattered, hreaches, hmip, d₂, hd₂, hthree, hseven, heleven, not_not.mp hnine⟩

end Board

end Rv64Board
