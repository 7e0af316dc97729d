import Mathlib.Data.List.Induction
import Rv64Board.Proofs.CheckedRequests
import Rv64Board.Proofs.StandardBoard

/-!
# The disk survives any guest

A guest writes what it likes to the registers of the disk and to memory, and the board resets the
device now and then.  None of it brings the device down.

* `VirtioBlock.Op`, `VirtioBlock.after` — writes to registers, steps with any memory at all, and
  resets, in any order.
* `SameTail` — two disks of one size that agree past their last whole sector; requests write to
  whole sectors only (`framed_sameTail`).
* `notified_after` — the device is notified only by a write to its register, and only until the next
  step or reset.
* `survives_any_guest` — **after any such history the checks of a step hold,** the disk has its size
  and its tail, and it changes in a step after a notification only.
-/

namespace Rv64Board

namespace VirtioBlock

/-! ## Histories -/

/-- What the guest and the board do to the device. -/
inductive Op
  | write (offset : UInt64) (w : Width) (value : UInt64)
  | tick (ram : Memory)
  | reset

def apply (v : VirtioBlock) : Op → VirtioBlock
  | .write offset w value => (v.write offset w value).device
  | .tick ram => (v.answer ram).1
  | .reset => v.reset

/-- The device after a row of operations. -/
def after (v : VirtioBlock) (ops : List Op) : VirtioBlock := ops.foldl apply v

/-- The driver notifies the device. -/
def Op.notifies : Op → Bool
  | .write offset _ value => offset == 0x050 && value == 0
  | _ => false

/-- The device forgets that it has been notified: in a step, and at a reset by the board or by the
    driver. -/
def Op.forgets : Op → Bool
  | .write offset _ value => offset == 0x070 && value == 0
  | .tick _ => true
  | .reset => true

lemma after_concat (v : VirtioBlock) (ops : List Op) (op : Op) :
    v.after (ops ++ [op]) = (v.after ops).apply op := by
  rw [after, List.foldl_append]
  rfl

/-! ## The tail of the disk -/

/-- Two disks of one size have the same bytes past the last whole sector. -/
structure SameTail (disk disk' : Memory) : Prop where
  size : disk'.size = disk.size
  byte : ∀ i, sectors disk * sectorSize ≤ i → disk'.byte i = disk.byte i

lemma SameTail.refl (disk : Memory) : SameTail disk disk := ⟨rfl, fun _ _ => rfl⟩

lemma SameTail.trans {disk disk' disk'' : Memory} (h : SameTail disk disk')
    (h' : SameTail disk' disk'') : SameTail disk disk'' where
  size := h'.size.trans h.size
  byte i hi := by
    have hi' : sectors disk' * sectorSize ≤ i := by rwa [sectors, h.size, ← sectors]
    rw [h'.byte i hi', h.byte i hi]

/-- The tail of the disk stays the same in a transfer. -/
abbrev Transfer.KeepsTail (t u : Transfer) : Prop := SameTail t.disk u.disk

instance : IsPreorder Transfer Transfer.KeepsTail where
  refl t := SameTail.refl t.disk
  trans _ _ _ := SameTail.trans

/-- **Requests write to whole sectors only.** -/
lemma framed_sameTail : Framed Transfer.KeepsTail where
  memory t _ _ := SameTail.refl t.disk
  disk t i bytes hin := by
    refine ⟨Memory.size_patch _ _ _, fun j hj => ?_⟩
    have hsectors : sectors t.disk * sectorSize ≤ t.disk.size.toNat := Nat.div_mul_le_self _ _
    rw [Memory.byte_patch _ _ _ _ (Nat.le_trans hin hsectors), if_neg]
    omega
  size := SameTail.size

/-! ## What an operation keeps -/

/-- The queue is no larger than the device allows, and the disk is there with its size and its
    tail. -/
structure Intact (disk : Memory) (v : VirtioBlock) : Prop where
  queue : v.queue.size ≤ maxQueueSize
  disk : ∃ disk', v.disk = some disk' ∧ SameTail disk disk'

/-- **What a write to a register does.**  It notifies the device, or resets it, or it leaves alone
    whether the device is notified, and the disk. -/
lemma writeRegister_cases {v v' : VirtioBlock} {offset value : UInt64}
    (h : v.writeRegister offset value = some v') :
    (offset = 0x050 ∧ value = 0 ∧ v' = { v with notified := true }) ∨
    (offset = 0x070 ∧ value = 0 ∧ v' = v.reset) ∨
    ¬(offset = 0x070 ∧ value = 0) ∧ v'.notified = v.notified ∧ v'.disk = v.disk ∧
      (v'.queue = v.queue ∨ writeQueue v.queue offset value = some v'.queue) := by
  have hother {k : UInt64} (hk : offset = k) (hne : k ≠ 0x070) : ¬(offset = 0x070 ∧ value = 0) :=
    fun hreset => hne (hk.symm.trans hreset.1)
  rw [writeRegister] at h
  by_cases hk : offset = 0x014
  · rw [if_pos hk] at h
    cases h
    exact Or.inr (Or.inr ⟨hother hk (by decide), rfl, rfl, Or.inl rfl⟩)
  rw [if_neg hk] at h
  by_cases hk : offset = 0x020
  · rw [if_pos hk] at h
    cases h
    exact Or.inr (Or.inr ⟨hother hk (by decide), rfl, rfl, Or.inl rfl⟩)
  rw [if_neg hk] at h
  by_cases hk : offset = 0x024
  · rw [if_pos hk] at h
    cases h
    exact Or.inr (Or.inr ⟨hother hk (by decide), rfl, rfl, Or.inl rfl⟩)
  rw [if_neg hk] at h
  by_cases hk : offset = 0x030
  · rw [if_pos hk] at h
    cases h
    exact Or.inr (Or.inr ⟨hother hk (by decide), rfl, rfl, Or.inl rfl⟩)
  rw [if_neg hk] at h
  by_cases hk : offset = 0x050
  · rw [if_pos hk] at h
    split at h
    · next hzero =>
      cases h
      exact Or.inl ⟨hk, hzero, rfl⟩
    · cases h
  rw [if_neg hk] at h
  by_cases hk : offset = 0x064
  · rw [if_pos hk] at h
    cases h
    exact Or.inr (Or.inr ⟨hother hk (by decide), rfl, rfl, Or.inl rfl⟩)
  rw [if_neg hk] at h
  by_cases hk : offset = 0x070
  · rw [if_pos hk] at h
    split at h
    · next hzero =>
      cases h
      exact Or.inr (Or.inl ⟨hk, hzero, rfl⟩)
    · next hzero =>
      cases h
      exact Or.inr (Or.inr ⟨fun hreset => hzero hreset.2, rfl, rfl, Or.inl rfl⟩)
  · rw [if_neg hk] at h
    split at h
    · obtain ⟨queue, hwritten, rfl⟩ := Option.map_eq_some_iff.mp h
      exact Or.inr (Or.inr ⟨fun hreset => hk hreset.1, rfl, rfl, Or.inr hwritten⟩)
    · cases h

/-- The size that the driver asks for is cut off. -/
lemma size_writeQueue {q q' : VirtioQueue} {offset value : UInt64}
    (h : writeQueue q offset value = some q') (hq : q.size ≤ maxQueueSize) :
    q'.size ≤ maxQueueSize := by
  rw [writeQueue] at h
  by_cases hsize : offset = 0x038
  · rw [if_pos hsize] at h
    cases h
    exact Std.min_le_right
  -- the other registers are not about the size
  · rw [if_neg hsize] at h
    grind

lemma intact_new (disk : Memory) : Intact disk (new (some disk)) where
  queue := show (0 : UInt32) ≤ maxQueueSize by decide
  disk := ⟨disk, rfl, SameTail.refl disk⟩

/-- **Whatever is done to the device, it stays intact.** -/
lemma Intact.apply {disk : Memory} {v : VirtioBlock} (h : Intact disk v) (op : Op) :
    Intact disk (v.apply op) := by
  obtain ⟨hqueue, disk', hdisk, htail⟩ := h
  cases op with
  | reset => exact ⟨(intact_new disk).queue, disk', hdisk, htail⟩
  | tick ram =>
      rw [VirtioBlock.apply, answer]
      split
      · next disk₁ _ hdisk₁ =>
        have hserved := framed_sameTail.serveQueue v.queue
          ⟨⟨ram, disk₁⟩, v.lastAvailable, v.interruptStatus, []⟩
        obtain rfl : disk₁ = disk' := Option.some.inj (hdisk₁.symm.trans hdisk)
        exact ⟨hqueue, _, rfl, htail.trans hserved⟩
      · exact ⟨hqueue, disk', hdisk, htail⟩
  | write offset w value =>
      rw [VirtioBlock.apply, write]
      cases hwrite : v.writeRegister offset value with
      | none => exact ⟨hqueue, disk', hdisk, htail⟩
      | some v' =>
          rcases writeRegister_cases hwrite with
            ⟨_, _, rfl⟩ | ⟨_, _, rfl⟩ | ⟨_, _, hsame, hq | hq⟩
          · exact ⟨hqueue, disk', hdisk, htail⟩
          · exact ⟨(intact_new disk).queue, disk', hdisk, htail⟩
          · refine ⟨?_, disk', hsame.trans hdisk, htail⟩
            show v'.queue.size ≤ maxQueueSize
            rwa [hq]
          · exact ⟨size_writeQueue hq hqueue, disk', hsame.trans hdisk, htail⟩

lemma intact_after (disk : Memory) (ops : List Op) : Intact disk ((new (some disk)).after ops) := by
  induction ops using List.reverseRecOn with
  | nil => exact intact_new disk
  | append_singleton ops op ih =>
      rw [after_concat]
      exact ih.apply op

/-! ## Notifications -/

/-- The device has been notified by this operation, or it was before and has not forgotten. -/
lemma notified_apply {v : VirtioBlock} {op : Op} (h : (v.apply op).notified = true) :
    op.notifies = true ∨ v.notified = true ∧ op.forgets = false := by
  cases op with
  | reset => cases h
  | tick ram =>
      rw [VirtioBlock.apply, answer] at h
      split at h <;> cases h
  | write offset w value =>
      rw [VirtioBlock.apply, write] at h
      cases hwrite : v.writeRegister offset value with
      | none =>
          rw [hwrite] at h
          refine Or.inr ⟨h, Bool.eq_false_iff.mpr fun hforgets => ?_⟩
          simp only [Op.forgets, Bool.and_eq_true, beq_iff_eq] at hforgets
          obtain ⟨rfl, rfl⟩ := hforgets
          cases hwrite
      | some v' =>
          rw [hwrite] at h
          rcases writeRegister_cases hwrite with
            ⟨rfl, rfl, rfl⟩ | ⟨_, _, rfl⟩ | ⟨hreset, hsame, _⟩
          · exact Or.inl rfl
          · cases h
          · refine Or.inr ⟨hsame.symm.trans h, ?_⟩
            simpa [Op.forgets] using hreset

/-- **A device that is notified has been notified since its last step or reset.** -/
lemma notified_after {v : VirtioBlock} (hv : v.notified = false) {ops : List Op}
    (h : (v.after ops).notified = true) :
    ∃ earlier op later, ops = earlier ++ op :: later ∧ op.notifies = true ∧
      ∀ o ∈ later, o.forgets = false := by
  induction ops using List.reverseRecOn with
  | nil => exact absurd (hv.symm.trans h) (by decide)
  | append_singleton ops op ih =>
      rw [after_concat] at h
      rcases notified_apply h with hnotifies | ⟨hbefore, hforgets⟩
      · exact ⟨ops, op, [], rfl, hnotifies, by simp⟩
      · obtain ⟨earlier, op', later, rfl, hnotifies, hlater⟩ := ih hbefore
        refine ⟨earlier, op', later ++ [op], by simp, hnotifies, fun o ho => ?_⟩
        rcases List.mem_append.mp ho with ho | ho
        · exact hlater o ho
        · rw [List.mem_singleton.mp ho]
          exact hforgets

/-- **Only a step of a device that has been notified changes the disk.** -/
lemma disk_apply {v : VirtioBlock} {op : Op} (h : (v.apply op).disk ≠ v.disk) :
    (∃ ram, op = .tick ram) ∧ v.notified = true := by
  cases op with
  | reset => exact absurd rfl h
  | tick ram =>
      refine ⟨⟨ram, rfl⟩, ?_⟩
      by_contra hnot
      rw [VirtioBlock.apply, answer, Bool.eq_false_iff.mpr hnot] at h
      exact h rfl
  | write offset w value =>
      rw [VirtioBlock.apply, write] at h
      cases hwrite : v.writeRegister offset value with
      | none =>
          rw [hwrite] at h
          exact absurd rfl h
      | some v' =>
          rw [hwrite] at h
          exact absurd (Device.disk_writeRegister hwrite) h

/-! ## Any guest -/

/-- **The disk survives any guest.**  After any row of writes to registers, steps and resets, the
    checks of a step hold for every memory, as long as the sums of addresses fit; and where they do
    not, no other check fails.  The disk keeps its size and the bytes past its last whole sector,
    and it changes only in a step that follows a notification, with no step or reset in between. -/
theorem survives_any_guest {disk : Memory} (hdisk : disk.size.toNat < 2 ^ 32) (ops : List Op) :
    let v := (new (some disk)).after ops
    (∀ ram, v.queue.Fits ram → Checked.answer v ram = .ok (v.answer ram)) ∧
    (∀ ram, Checked.answer v ram = .ok (v.answer ram) ∨
      Checked.answer v ram = .error .addressOverflow) ∧
    (∃ disk', v.disk = some disk' ∧ disk'.size = disk.size ∧
      ∀ i, sectors disk * sectorSize ≤ i → disk'.byte i = disk.byte i) ∧
    v.queue.size ≤ maxQueueSize ∧
    ∀ op, (v.apply op).disk ≠ v.disk → (∃ ram, op = .tick ram) ∧
      ∃ earlier notify later, ops = earlier ++ notify :: later ∧ notify.notifies = true ∧
        ∀ o ∈ later, o.forgets = false := by
  intro v
  obtain ⟨hqueue, disk', hv, htail⟩ := intact_after disk ops
  have hmax : v.queue.size.toNat ≤ 64 := UInt32.le_iff_toNat_le.mp hqueue
  have hsmall (d : Memory) (hd : d ∈ v.disk) : d.size.toNat < 2 ^ 32 := by
    obtain rfl : disk' = d := Option.some.inj (hv.symm.trans hd)
    rwa [htail.size]
  have hchecked (ram : Memory) := Checked.agrees_answer hmax hsmall ram
  refine ⟨fun ram hfits => ?_, fun ram => (hchecked ram).imp_right And.right,
    ⟨disk', hv, htail.size, htail.byte⟩, hqueue, fun op hchange => ?_⟩
  · rcases hchecked ram with hok | ⟨hnot, _⟩
    · exact hok
    · exact absurd hfits hnot
  · obtain ⟨htick, hnotified⟩ := disk_apply hchange
    exact ⟨htick, notified_after rfl hnotified⟩

/-- A driver that sets up a queue of four entries and notifies the device. -/
def cyclicOps : List Op :=
  [.write 0x038 .word 4, .write 0x080 .word 0x80000000, .write 0x090 .word 0x80000040,
    .write 0x0A0 .word 0x8000004C, .write 0x044 .word 1, .write 0x050 .word 0]

def cyclicDevice : VirtioBlock := (new (some (Memory.zeroed 0 700))).after cyclicOps

/-- A request to write to the disk whose second link leads back to itself. -/
def cyclicMemory : Memory :=
  (Memory.zeroed 0x80000000 0x1000).patch 0 <|
    ([0x80000080, 0, 16, 0x00010001, 0x80000090, 0, 8, 0x00010003] ++ List.replicate 8 0 ++
      -- the available ring, and the header and the data after the used ring
      [0x00010000] ++ List.replicate 15 0 ++ [1, 0, 0, 0, 0x2A2A2A2A, 0x2A2A2A2A]).flatMap
        (LittleEndian.toBytes 4)

lemma contains_cyclicMemory {address : UInt64} (h : cyclicMemory.contains address 4 = true) :
    address.toNat + 8 < 2 ^ 64 := by
  have hbase : cyclicMemory.base = 0x80000000 := Memory.base_patch _ _ _
  have hsize : cyclicMemory.size = 0x1000 := Memory.size_patch _ _ _
  have haddress := Memory.base_add_offset h
  have hend := Memory.offset_add_le h
  rw [hbase] at haddress
  rw [hsize] at hend
  have hlow : (0x80000000 : UInt64).toNat = 0x80000000 := rfl
  have hlen : (0x1000 : UInt64).toNat = 0x1000 := rfl
  omega

/-- The cycle is cut off after four links, the data goes to the disk twice, and the rest of the disk
    stays zero. -/
theorem cyclic_request_survived :
    Checked.answer cyclicDevice cyclicMemory = .ok (cyclicDevice.answer cyclicMemory) ∧
    ((cyclicDevice.answer cyclicMemory).1.disk.map fun disk => disk.byte 15) = some 0x2A ∧
    ∃ disk, (cyclicDevice.answer cyclicMemory).1.disk = some disk ∧ disk.size = 700 ∧
      ∀ i, 512 ≤ i → disk.byte i = 0 := by
  have hsmall : (Memory.zeroed 0 700).size.toNat < 2 ^ 32 := by decide
  have hrings : cyclicDevice.queue.descriptors.toNat + 16 * cyclicDevice.queue.size.toNat ≤ 2 ^ 64 ∧
      cyclicDevice.queue.driver.toNat + 4 + 2 * cyclicDevice.queue.size.toNat ≤ 2 ^ 64 ∧
      cyclicDevice.queue.device.toNat + 4 + 8 * cyclicDevice.queue.size.toNat ≤ 2 ^ 64 := by
    decide +kernel
  have hfits : cyclicDevice.queue.Fits cyclicMemory :=
    ⟨hrings.1, hrings.2.1, hrings.2.2, fun _ => contains_cyclicMemory⟩
  have hwritten : ((cyclicDevice.answer cyclicMemory).1.disk.map fun disk => disk.byte 15) =
      some 0x2A := by
    decide +kernel
  refine ⟨(survives_any_guest hsmall cyclicOps).1 cyclicMemory hfits, hwritten, ?_⟩
  obtain ⟨-, -, ⟨disk, hdisk, hsize, htail⟩, -⟩ :=
    survives_any_guest hsmall (cyclicOps ++ [.tick cyclicMemory])
  rw [after_concat, VirtioBlock.apply, ← cyclicDevice] at hdisk
  have hsectors : sectors (Memory.zeroed 0 700) * sectorSize = 512 := by decide
  rw [hsectors] at htail
  refine ⟨disk, hdisk, hsize, fun i hi => ?_⟩
  rw [htail i hi, Memory.byte_zeroed]

end VirtioBlock

end Rv64Board
