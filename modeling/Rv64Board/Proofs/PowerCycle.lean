import Rv64Board.Proofs.StandardBoard

/-!
# Loading an image is a power cycle

Nothing of what a machine has done before is left after an image has been loaded, except for what
belongs to the outside: the disk, the bytes on the serial line and the request to stop.

* `Machine.holdings` — what belongs to the outside.
* `Machine.settled` — a machine with its input in one queue and its notices forgotten.  Whether a
  byte still waits at the host or already in the UART is the only difference that is left.
* `Machine.poweredOn` — the machine that a description, the holdings and an image give.
* `Machine.settled_load` — **a load leads there, from every machine on the board.**
* `Machine.load_erases_history` — so two machines of one shape that hold the same cannot be told
  apart after a load, whatever they went through.
-/

namespace Rv64Board

namespace Memory

/-- Cleared memory with an image at its start: the image, followed by zeros. -/
lemma content_load (base size : UInt64) {image : List UInt8} (hfits : image.length ≤ size.toNat) :
    ((zeroed base size).patch 0 image).content =
      image ++ List.replicate (size.toNat - image.length) 0 := by
  have hin : 0 + image.length ≤ (zeroed base size).size.toNat := by
    rw [Nat.zero_add]
    exact hfits
  refine List.ext_getElem ?_ fun i hi _ => ?_
  · rw [length_content, size_patch, List.length_append, List.length_replicate]
    exact (Nat.add_sub_cancel' hfits).symm
  · simp only [content, slice, List.getElem_map, List.getElem_range', Nat.one_mul, Nat.zero_add]
    rw [byte_patch _ _ _ _ hin, byte_zeroed]
    rcases Nat.lt_or_ge i image.length with hlt | hge
    · rw [if_pos (by omega), List.getElem_append_left hlt, Nat.sub_zero,
        List.getD_eq_getElem _ _ hlt]
    · rw [if_neg (by omega), List.getElem_append_right hge, List.getElem_replicate]

end Memory

/-- What belongs to the outside of a machine. -/
structure Holdings where
  disk : Option (List UInt8)
  /-- The bytes for software, in the order in which it will read them. -/
  input : List UInt8
  /-- The bytes from software, most recent first. -/
  output : List UInt8
  cancelled : Bool
  deriving DecidableEq

namespace Machine

/-- The disk, if there is one. -/
def disk? (m : Machine) : Option Memory :=
  match m.board.bus.device? virtioBase with
  | some (.virtio v) => v.disk
  | _ => none

/-- What a machine holds for the outside. -/
def holdings (m : Machine) : Holdings :=
  ⟨m.disk?.map Memory.content, m.uart.input, m.uart.outbox, m.cancelled⟩

/-- The machine with its input in one queue and its notices forgotten. -/
def settled (m : Machine) : Machine :=
  (m.setUart m.uart.poll).clearJournal

/-- A machine that has just been switched on with an image in memory. -/
def poweredOn (c : MachineConfig) (held : Holdings) (image : List UInt8) : Machine where
  board :=
    { hart := Hart.atReset c.ramBase
      bus :=
        { ram := (Memory.zeroed c.ramBase c.ramSize).patch 0 image
          regions := Devices.regions
            { finisher := Finisher.new
              clint := Clint.new c.timerIncrement
              plic := Plic.new
              uart := { Uart.new with fifo := held.input, outbox := held.output }
              virtio := VirtioBlock.new (held.disk.map VirtioBlock.diskOf) }
          journal := [] }
      cycles := 0
      lines := Lines.idle }
  halted := none
  cancelled := held.cancelled

variable {c : MachineConfig} {d : Devices} {m m' : Machine}

lemma disk?_of_standard (hm : m.board.bus.Standard c d) : m.disk? = d.virtio.disk := by
  simp only [disk?, Bus.device?, hm.regions]
  rfl

lemma settled_eq (hm : m.board.bus.Standard c d) :
    m.settled = ⟨{ m.board with
      bus := ⟨m.board.bus.ram, Devices.regions { d with uart := d.uart.poll }, []⟩ },
        m.halted, m.cancelled⟩ := by
  have hput : (m.board.bus.setDevice uartBase (.uart d.uart.poll)).Standard c _ :=
    hm.put rfl trivial
  simp only [settled, uart_of_standard hm, setUart, clearJournal, hput.regions]
  rfl

lemma holdings_of_standard (hm : m.board.bus.Standard c d) :
    m.holdings = ⟨d.virtio.disk.map Memory.content, d.uart.input, d.uart.outbox, m.cancelled⟩ := by
  rw [holdings, uart_of_standard hm, disk?_of_standard hm]

/-- **A load leads to the machine that has just been switched on,** from every machine on the
    board. -/
lemma settled_load (hm : m.board.bus.OnBoard c) {image : List UInt8}
    (hload : m.load image = .ok m') : m'.settled = poweredOn c m.holdings image := by
  obtain ⟨d, hb⟩ := hm
  have hdisk : (d.virtio.disk.map Memory.content).map VirtioBlock.diskOf = d.virtio.disk := by
    cases hd : d.virtio.disk with
    | none => rfl
    | some disk => rw [Option.map_some, Option.map_some, ← hb.virtio disk hd]
  have hspeed : d.clint.increment = c.timerIncrement := hb.clint
  rw [settled_eq (standard_load hload hb), holdings_of_standard hb]
  obtain ⟨_, rfl⟩ := load_eq_ok hload
  simp only [poweredOn, hdisk, hb.base, Memory.clear, hb.size, Devices.reset, Clint.reset, hspeed,
    Uart.poll_eq]
  rfl

/-- The outside keeps what it had. -/
lemma holdings_load (hm : m.board.bus.OnBoard c) {image : List UInt8}
    (hload : m.load image = .ok m') : m'.holdings = m.holdings := by
  obtain ⟨d, hb⟩ := hm
  rw [holdings_of_standard (standard_load hload hb), holdings_of_standard hb]
  obtain ⟨_, rfl⟩ := load_eq_ok hload
  rfl

/-- The image is written by an access that memory accepts. -/
lemma writeBytes_of_load {image : List UInt8} (hload : m.load image = .ok m') :
    m.board.bus.ram.clear.writeBytes m.board.bus.ram.base image = .ok m'.board.bus.ram := by
  obtain ⟨hfits, rfl⟩ := load_eq_ok hload
  have hin : m.board.bus.ram.clear.contains m.board.bus.ram.base image.length = true := by
    simpa [Memory.contains, Memory.clear, Memory.zeroed] using hfits
  rw [Memory.writeBytes, if_pos hin]
  simp [Memory.offset, Memory.clear, Memory.zeroed]

/-- Loads give the same answer where the machines hold the same. -/
lemma map_settled_load {c₁ c₂ : MachineConfig} {m₁ m₂ : Machine}
    (hm₁ : m₁.board.bus.OnBoard c₁) (hm₂ : m₂.board.bus.OnBoard c₂) {image : List UInt8}
    (hsame : poweredOn c₁ m₁.holdings image = poweredOn c₂ m₂.holdings image)
    (hsize : m₁.board.bus.ram.size = m₂.board.bus.ram.size) :
    (m₁.load image).map settled = (m₂.load image).map settled := by
  cases h₁ : m₁.load image with
  | error e =>
      have h₂ : m₂.load image = .error e := by
        rw [load_eq_error_iff] at h₁ ⊢
        rwa [← hsize]
      rw [h₂]
  | ok m₁' =>
      cases h₂ : m₂.load image with
      | error e =>
          rw [load_eq_error_iff, ← hsize, ← load_eq_error_iff, h₁] at h₂
          cases h₂
      | ok m₂' =>
          simp only [Except.map, settled_load hm₁ h₁, settled_load hm₂ h₂, hsame]

lemma exists_load {image : List UInt8} (hfits : image.length ≤ m.board.bus.ram.size.toNat) :
    ∃ m', m.load image = .ok m' := by
  cases h : m.load image with
  | ok m' => exact ⟨m', rfl⟩
  | error e => exact absurd ((load_eq_error_iff _ _ _).mp h).1 (by omega)

/-- **Loading an image is a power cycle.**  Two machines of one shape that hold the same for the
    outside cannot be told apart after a load, whatever they went through before.  An image that
    fits is loaded and followed by zeros; one that does not is refused, and nothing happens. -/
theorem load_erases_history {c₁ c₂ : MachineConfig} {n₁ n₂ : Machine}
    (hfits₁ : c₁.DiskFits) (hfits₂ : c₂.DiskFits)
    (hnew₁ : Machine.new c₁ = .ok n₁) (hnew₂ : Machine.new c₂ = .ok n₂)
    (hbase : c₁.ramBase = c₂.ramBase) (hsize : c₁.ramSize = c₂.ramSize)
    (hspeed : c₁.timerIncrement = c₂.timerIncrement) (history₁ history₂ : List HostOp)
    (hheld : (n₁.after history₁).holdings = (n₂.after history₂).holdings) (image : List UInt8) :
    ((n₁.after history₁).load image).map settled = ((n₂.after history₂).load image).map settled ∧
    (image.length ≤ c₁.ramSize.toNat →
      ∃ m, (n₁.after history₁).load image = .ok m ∧
        m.holdings = (n₁.after history₁).holdings ∧
        (Memory.zeroed c₁.ramBase c₁.ramSize).writeBytes c₁.ramBase image = .ok m.board.bus.ram ∧
        m.board.bus.ram.content =
          image ++ List.replicate (c₁.ramSize.toNat - image.length) 0) ∧
    (c₁.ramSize.toNat < image.length →
      (n₁.after history₁).load image = .error (.imageTooLarge image.length c₁.ramSize.toNat) ∧
        HostOp.apply (n₁.after history₁) (.load image) = n₁.after history₁) := by
  have hm₁ := onBoard_after (onBoard_new hfits₁ hnew₁) history₁
  have hm₂ := onBoard_after (onBoard_new hfits₂ hnew₂) history₂
  generalize n₁.after history₁ = m₁ at *
  generalize n₂.after history₂ = m₂ at *
  have hsize₁ : m₁.board.bus.ram.size = c₁.ramSize := hm₁.elim fun _ hb => hb.size
  have hsize₂ : m₂.board.bus.ram.size = c₂.ramSize := hm₂.elim fun _ hb => hb.size
  have hbase₁ : m₁.board.bus.ram.base = c₁.ramBase := hm₁.elim fun _ hb => hb.base
  refine ⟨?_, fun hfits => ?_, fun hlong => ?_⟩
  · refine map_settled_load hm₁ hm₂ ?_ (by rw [hsize₁, hsize₂, hsize])
    simp only [poweredOn, hbase, hsize, hspeed, hheld]
  · rw [← hsize₁] at hfits ⊢
    obtain ⟨m, hload⟩ := exists_load hfits
    have hwrite := writeBytes_of_load hload
    rw [Memory.clear, hbase₁] at hwrite
    refine ⟨m, hload, holdings_load hm₁ hload, hwrite, ?_⟩
    obtain ⟨_, rfl⟩ := load_eq_ok hload
    exact Memory.content_load _ _ hfits
  · have herror := (load_eq_error_iff m₁ image _).mpr ⟨by rwa [hsize₁], rfl⟩
    rw [hsize₁] at herror
    refine ⟨herror, ?_⟩
    simp only [HostOp.apply, herror]

/-- A machine with a page of memory and a small disk. -/
def pollingConfig : MachineConfig :=
  { MachineConfig.default with ramSize := 0x1000, disk := some [1, 2, 3] }

/-- Software asks whether there is input, and the bytes move from the host into the UART. -/
def pollingHistory : List HostOp :=
  [.load ([0x100002B7, 0x0052C303].flatMap (LittleEndian.toBytes 4)), .feed [65, 66], .runFor 2]

/-- The bytes wait in different places before a load, and the program counters differ. -/
theorem load_erases_polling :
    ((ofConfig pollingConfig).after pollingHistory).uart.fifo = [65, 66] ∧
    ((ofConfig pollingConfig).after [.feed [65, 66]]).uart.fifo = [] ∧
    (((ofConfig pollingConfig).after pollingHistory).load [0x6F]).map settled =
      (((ofConfig pollingConfig).after [.feed [65, 66]]).load [0x6F]).map settled := by
  have hnew := new_eq_ofConfig (c := pollingConfig) (by decide +kernel)
  have hfits : pollingConfig.DiskFits := by
    intro bytes hbytes
    cases hbytes
    decide
  have hheld : ((ofConfig pollingConfig).after pollingHistory).holdings =
      ((ofConfig pollingConfig).after [.feed [65, 66]]).holdings := by decide +kernel
  refine ⟨by decide +kernel, by decide +kernel, ?_⟩
  exact (load_erases_history hfits hfits hnew hnew rfl rfl rfl _ _ hheld [0x6F]).1

end Machine

end Rv64Board
