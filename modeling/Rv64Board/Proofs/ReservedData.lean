import Rv64Board.Proofs.DmaWrites
import Rv64Board.Proofs.StandardBoard

/-!
# Reserved data

A load-reserved reads a value and remembers the address; a later store-conditional to this address
replaces the value, if the address is still remembered.  The two are meant to act as one exchange:
no one else has changed the value in between.

But only the hart knows of the reservation.  A disk that writes to memory at the end of a step does
not take it away, so the exchange is one **only if the devices stay away from the data.**

* `Board.memory_step` — a step does to memory what the writes of its instruction and then those of
  the devices do.
* `Board.Paired` — a load-reserved and a successful store-conditional, with steps in between that
  enter no trap and whose instructions do not store to the data.
* `reserved_exchange` — **if no device writes to the data either, then the store-conditional
  replaces the value that the load-reserved has read.**
* `overwritten_in_between` — the disk can write to the data in between, and the store-conditional
  succeeds all the same.
-/

namespace Rv64Board

/-! ## Values in memory -/

namespace Memory

variable {m m' : Memory} {p : UInt64} {w : Width}

/-- Equal bytes hold equal values. -/
lemma load_congr (hbase : m'.base = m.base)
    (hbytes : ∀ i < w.bytes, m'.byte (m.offset p + i) = m.byte (m.offset p + i)) :
    m'.load p w = m.load p w := by
  have hoffset : m'.offset p = m.offset p := by rw [offset, offset, hbase]
  rw [load, load, hoffset]
  refine congrArg (fun bs => UInt64.ofNat (LittleEndian.ofBytes bs)) (List.map_congr_left ?_)
  intro j hj
  rw [List.mem_range'_1] at hj
  obtain ⟨i, rfl⟩ : ∃ i, j = m.offset p + i := ⟨j - m.offset p, by omega⟩
  exact hbytes i (by omega)

/-- A value that has been stored is loaded again, as far as it fits. -/
lemma load_store (value : UInt64) (hin : m.contains p w.bytes = true) :
    (m.store p w value).load p w = value &&& w.mask := by
  have hlength := LittleEndian.length_toBytes w.bytes value.toNat
  have hfits : m.offset p + (LittleEndian.toBytes w.bytes value.toNat).length ≤ m.size.toNat := by
    rw [hlength]
    exact offset_add_le hin
  have hslice := slice_patch m hfits
  have hoffset : (m.store p w value).offset p = m.offset p := by
    rw [offset, offset, store, base_patch]
  rw [hlength] at hslice
  rw [← UInt64.toNat_inj, toNat_load, hoffset, store, hslice, LittleEndian.ofBytes_toBytes,
    UInt64.toNat_and]
  have hmask : w.mask.toNat = 2 ^ (8 * w.bytes) - 1 := by cases w <;> rfl
  rw [hmask, Nat.and_two_pow_sub_one_eq_mod, Nat.one_shiftLeft]

end Memory

namespace Board

/-! ## Steps and their writes -/

/-- The writes of the devices at the end of a step.  An instruction that halts the board by jumping
    to itself comes to no such end. -/
def deviceWrites (b : Board) : List MemoryWrite :=
  match executeNext b with
  | .error _ c => c.bus.tickWrites
  | .ok i c => if stuck i b.hart.pc (retire c.hart) then [] else c.bus.tickWrites

/-- The board some steps later. -/
def after (b : Board) : Nat → Board
  | 0 => b
  | n + 1 => (b.after n).step.2

variable {b : Board}

lemma memory_finishStep (trapped : Bool) (b : Board) :
    (finishStep trapped b).2.memory = b.memory.replay b.bus.tickWrites := by
  obtain ⟨hart, bus, cycles, lines⟩ := b
  have htick := bus.ram_tick lines
  simp only [finishStep]
  split <;> exact htick

/-- After the instruction only the devices write. -/
lemma memory_devices (b : Board) :
    b.step.2.memory = (finalState (executeNext b)).memory.replay b.deviceWrites := by
  rw [step, deviceWrites]
  cases hx : executeNext b with
  | error e c => exact memory_finishStep true _
  | ok i c =>
      have hhart : (c.updateHart retire).hart = retire c.hart := rfl
      simp only [hhart, finalState_ok]
      split
      · rfl
      · exact memory_finishStep false _

/-- **A step does to memory what the writes of its instruction and then those of the devices
    do.** -/
lemma memory_step (b : Board) :
    b.step.2.memory = b.memory.replay (b.writes ++ b.deviceWrites) := by
  have hexecuted := makes_executeNext b
  rw [Makes] at hexecuted
  rw [memory_devices, hexecuted, Memory.replay_append]

lemma extent_executeNext (b : Board) :
    (finalState (executeNext b)).memory.base = b.memory.base ∧
      (finalState (executeNext b)).memory.size = b.memory.size := by
  have hexecuted := makes_executeNext b
  rw [Makes] at hexecuted
  rw [hexecuted]
  exact Memory.extent_replay _ _

lemma extent_after (b : Board) (n : Nat) :
    (b.after n).memory.base = b.memory.base ∧ (b.after n).memory.size = b.memory.size := by
  induction n with
  | zero => exact ⟨rfl, rfl⟩
  | succ n ih =>
      obtain ⟨hbase, hsize⟩ := Memory.extent_replay (b.after n).memory
        ((b.after n).writes ++ (b.after n).deviceWrites)
      rw [after, memory_step]
      exact ⟨hbase.trans ih.1, hsize.trans ih.2⟩

lemma contains_after (b : Board) (n : Nat) (address : UInt64) (len : Nat) :
    (b.after n).memory.contains address len = b.memory.contains address len := by
  obtain ⟨hbase, hsize⟩ := extent_after b n
  rw [Memory.contains, Memory.contains, hbase, hsize]

/-- A byte that neither the instruction of a step nor the devices write to is left alone. -/
lemma byte_step {j : Nat} (hown : ¬b.memory.Receives b.writes (b.memory.base.toNat + j))
    (hdevices : ¬b.memory.Receives b.deviceWrites (b.memory.base.toNat + j)) :
    b.step.2.memory.byte j = b.memory.byte j := by
  rw [memory_step]
  refine Memory.byte_replay ?_
  rw [Memory.receives_append]
  exact not_or.mpr ⟨hown, hdevices⟩

/-! ## Steps without a trap -/

/-- A step that enters no trap: its instruction completes, and the hart is as the instruction has
    left it, counters and sampled lines aside. -/
def Calm (b : Board) : Prop :=
  ∃ i c, executeNext b = .ok i c ∧
    (b.step.2.hart = retire c.hart ∨ b.step.2.hart = ticked (retire c.hart) b.step.2.lines)

/-- The trap that a step enters, if it enters one, as a test. -/
def trap? (b : Board) : Option Trap :=
  match executeNext b with
  | .error e _ => some (.exception e)
  | .ok _ c =>
    if b.step.1 = .running then
      ((ticked (retire c.hart) b.step.2.lines).csrs.pendingInterrupt? c.hart.privilege).map
        Trap.interrupt
    else none

/-- A board that halts takes no interrupt. -/
lemma hart_of_halted (hhalted : b.step.1 ≠ .running) {i : Instruction} {c : Board}
    (hx : executeNext b = .ok i c) :
    b.step.2.hart = retire c.hart ∨ b.step.2.hart = ticked (retire c.hart) b.step.2.lines := by
  simp only [step, hx] at hhalted ⊢
  split
  · exact Or.inl rfl
  next hgoes =>
    right
    rw [if_neg hgoes] at hhalted
    simp only [updateHart, finishStep] at hhalted ⊢
    split
    · rfl
    next hnone =>
      simp only [hnone] at hhalted
      exact absurd rfl hhalted

lemma calm_of_trap? (h : b.trap? = none) : b.Calm := by
  rcases step_cases b with ⟨e, c, hx, _⟩ | ⟨i, c, hx, hhart | hhart | ⟨j, hj, _⟩⟩
  · simp only [trap?, hx] at h
    cases h
  · exact ⟨i, c, hx, Or.inl hhart⟩
  · exact ⟨i, c, hx, Or.inr hhart⟩
  · refine ⟨i, c, hx, hart_of_halted (fun hrunning => ?_) hx⟩
    simp only [trap?, hx, hrunning, hj, if_true] at h
    cases h

/-! ## The two halves of an exchange -/

/-- A load-reserved: its width, its physical address and the value that it reads. -/
structure ReservedLoad where
  width : Width
  address : UInt64
  value : UInt64
  deriving DecidableEq

/-- A store-conditional: its width, its physical address, the value that it stores if it succeeds,
    whether it does, and the register that is told. -/
structure ConditionalStore where
  width : Width
  address : UInt64
  value : UInt64
  success : Bool
  rd : Reg
  deriving DecidableEq

/-- The load-reserved that comes next, if one does and it completes. -/
def reservedLoad? (b : Board) : Option ReservedLoad :=
  match b.hart.fetch b.bus with
  | .error _ _ => none
  | .ok f bus =>
    match f.instruction with
    | .loadReserved kind _ rs1 =>
      if kind.width.aligned (b.hart.get rs1) then
        match b.hart.translate .load (b.hart.get rs1) bus with
        | .error _ _ => none
        | .ok p bus =>
          match Bus.read p kind.width bus with
          | .error _ _ => none
          | .ok v _ => some ⟨kind.width, p, v⟩
      else none
    | _ => none

/-- The store-conditional that comes next, if one does and its address can be translated. -/
def conditionalStore? (b : Board) : Option ConditionalStore :=
  match b.hart.fetch b.bus with
  | .error _ _ => none
  | .ok f bus =>
    match f.instruction with
    | .storeConditional kind rd rs1 rs2 =>
      match b.hart.atomicAddress (b.hart.get rs1) kind.width bus with
      | .error _ _ => none
      | .ok p _ => some ⟨kind.width, p, b.hart.get rs2, b.hart.reservation = some p, rd⟩
    | _ => none

lemma loadReserved_run {w : Width} (rd : Reg) {rs1 : Reg} {p v : UInt64} {c d : Bus}
    (haligned : w.aligned (b.hart.get rs1) = true)
    (ht : b.hart.translate .load (b.hart.get rs1) b.bus = .ok p c)
    (hr : Bus.read p w c = .ok v d) :
    loadReserved w rd rs1 b =
      .ok () { b with
        hart := { b.hart with reservation := some p }.set rd (signExtend w v)
        bus := d } := by
  rw [loadReserved, getHart_bind, if_pos haligned, onBus_bind_ok ht]
  exact onBus_bind_ok (adaptExcept_eq_ok.mpr hr) _

lemma storeConditional_run {w : Width} (rd : Reg) {rs1 : Reg} (rs2 : Reg) {p : UInt64} {c : Bus}
    (ha : b.hart.atomicAddress (b.hart.get rs1) w b.bus = .ok p c)
    (hreserved : b.hart.reservation = some p) (hin : c.ram.contains p w.bytes = true) :
    storeConditional w rd rs1 rs2 b =
      .ok () { b with
        hart := { b.hart with reservation := none }.set rd 0
        bus := { c with ram := c.ram.store p w (b.hart.get rs2) } } := by
  have hwrite : Bus.write p w (b.hart.get rs2) c =
      .ok () { c with ram := c.ram.store p w (b.hart.get rs2) } := by
    simp only [Bus.write, hin, if_true]
  rw [storeConditional, getHart_bind, onBus_bind_ok ha]
  simp only [hreserved, decide_true, if_true]
  exact onBus_bind_ok (adaptExcept_eq_ok.mpr hwrite) _

/-- A register that is set to zero is zero, register zero or not. -/
lemma get_set_zero (rs : Registers) (rd : Reg) : (rs.set rd 0).get rd = 0 := by
  rw [Registers.get_set]
  split
  · rfl
  next hzero =>
    have hrd : rd = Reg.zero := by simpa using hzero
    rw [hrd, Registers.get_zero]

/-- An instruction that does its work and then goes on to the next one. -/
lemma executeNext_then_jump {f : Hart.Fetched} {bus : Bus} {c : Board}
    {x : EStateM Exception Board Unit} (hf : b.hart.fetch b.bus = .ok f bus)
    (hbody : ∀ t : Board, execute f.instruction f.raw f.len t =
      (x >>= fun _ => jump (t.hart.pc + f.len)) t)
    (hx : x { b with bus := bus } = .ok () c) :
    executeNext b = .ok f.instruction (c.updateHart fun h => h.jump (b.hart.pc + f.len)) := by
  have hrun := (hbody { b with bus := bus }).trans (bind_run_ok hx _)
  rw [executeNext, getHart_bind, onBus_bind_ok hf, bind_run_ok hrun]
  rfl

/-- **A load-reserved reads what is in memory once it is done.** -/
lemma executeNext_reservedLoad {w : Width} {p v : UInt64} (h : b.reservedLoad? = some ⟨w, p, v⟩)
    (hin : b.memory.contains p w.bytes = true) :
    ∃ i c, executeNext b = .ok i c ∧ c.memory.load p w = v := by
  rw [reservedLoad?] at h
  split at h
  · cases h
  next f bus hf =>
    split at h
    next kind rd rs1 hi =>
      split at h
      next haligned =>
        split at h
        · cases h
        next pa c ht =>
          split at h
          · cases h
          next value d hr =>
            cases h
            rw [memory, ← (b.hart.makes_fetch b.bus).contains_eq hf,
              ← (b.hart.makes_translate .load _ bus).contains_eq ht] at hin
            have hrun := loadReserved_run (b := { b with bus := bus }) rd haligned ht hr
            rw [Bus.read_of_ram hin] at hr
            cases hr
            refine ⟨f.instruction, _, executeNext_then_jump hf (fun t => ?_) hrun, rfl⟩
            rw [hi]
            rfl
      · cases h
    · cases h

/-- **A store-conditional that succeeds puts its value into memory,** and says so. -/
lemma executeNext_conditionalStore {w : Width} {p value : UInt64} {rd : Reg}
    (h : b.conditionalStore? = some ⟨w, p, value, true, rd⟩)
    (hin : b.memory.contains p w.bytes = true) :
    ∃ i c, executeNext b = .ok i c ∧ c.hart.get rd = 0 ∧
      c.memory.load p w = value &&& w.mask := by
  rw [conditionalStore?] at h
  split at h
  · cases h
  next f bus hf =>
    split at h
    next kind rd rs1 rs2 hi =>
      split at h
      · cases h
      next pa c ha =>
        simp only [Option.some.injEq, ConditionalStore.mk.injEq, decide_eq_true_eq] at h
        obtain ⟨rfl, rfl, rfl, hreserved, rfl⟩ := h
        rw [memory, ← (b.hart.makes_fetch b.bus).contains_eq hf,
          ← (b.hart.makes_translate .store _ bus).contains_eq (Hart.atomicAddress_ok ha).2] at hin
        have hrun := storeConditional_run (b := { b with bus := bus }) rd rs2 ha hreserved hin
        refine ⟨f.instruction, _, executeNext_then_jump hf (fun t => ?_) hrun, ?_,
          Memory.load_store _ hin⟩
        · rw [hi]
          rfl
        · exact get_set_zero b.hart.registers rd
    · cases h

/-! ## The exchange -/

/-- A load-reserved at an address `p` of memory reads `v`.  After it come `n` steps that enter no
    trap and whose instructions, page table updates included, write to none of the bytes at `p`.
    Then comes a store-conditional of the same width to `p` that succeeds. -/
structure Paired (b : Board) (n : Nat) (w : Width) (p v value : UInt64) (rd : Reg) : Prop where
  load : b.reservedLoad? = some ⟨w, p, v⟩
  inMemory : b.memory.contains p w.bytes = true
  calm : ∀ k, 1 ≤ k → k ≤ n → (b.after k).Calm
  quiet : ∀ k, 1 ≤ k → k ≤ n → ∀ i < w.bytes,
    ¬(b.after k).memory.Receives (b.after k).writes (p.toNat + i)
  store : (b.after (n + 1)).conditionalStore? = some ⟨w, p, value, true, rd⟩

variable {n : Nat} {w : Width} {p v value : UInt64} {rd : Reg}

/-- The test whether this is so, with one step in between. -/
def pairs (b : Board) (w : Width) (p v value : UInt64) (rd : Reg) : Bool :=
  b.reservedLoad? = some ⟨w, p, v⟩ && b.memory.contains p w.bytes && (b.after 1).trap? = none &&
    (∀ i < w.bytes, ¬(b.after 1).memory.Receives (b.after 1).writes (p.toNat + i)) &&
    (b.after 2).conditionalStore? = some ⟨w, p, value, true, rd⟩

lemma paired_of_pairs (h : b.pairs w p v value rd = true) : b.Paired 1 w p v value rd := by
  simp only [pairs, Bool.and_eq_true, decide_eq_true_eq] at h
  obtain ⟨⟨⟨⟨hload, hin⟩, htrap⟩, hquiet⟩, hstore⟩ := h
  refine ⟨hload, hin, fun k hlow hhigh => ?_, fun k hlow hhigh => ?_, hstore⟩
  · obtain rfl : k = 1 := by omega
    exact calm_of_trap? htrap
  · obtain rfl : k = 1 := by omega
    exact hquiet

/-- While neither the instructions nor the devices write to some bytes, they stay what the
    load-reserved has found there. -/
lemma load_after (hload : b.reservedLoad? = some ⟨w, p, v⟩)
    (hin : b.memory.contains p w.bytes = true)
    (hquiet : ∀ k, 1 ≤ k → k ≤ n → ∀ i < w.bytes,
      ¬(b.after k).memory.Receives (b.after k).writes (p.toNat + i))
    (hdevices : ∀ k ≤ n, ∀ i < w.bytes,
      ¬(b.after k).memory.Receives (b.after k).deviceWrites (p.toNat + i)) :
    (b.after (n + 1)).memory.load p w = v := by
  have haddress {m : Memory} (hbase : m.base = b.memory.base) (i : Nat) :
      m.base.toNat + (m.offset p + i) = p.toNat + i := by
    rw [← Memory.base_add_offset hin, Memory.offset, Memory.offset, hbase, Nat.add_assoc]
  induction n with
  | zero =>
      -- of the first step only the devices come after the value has been read
      obtain ⟨i, c, hx, rfl⟩ := executeNext_reservedLoad hload hin
      obtain ⟨hbase, hsize⟩ := extent_executeNext b
      have hstep := memory_devices b
      rw [hx, finalState_ok] at hbase hsize hstep
      rw [after, after, hstep]
      refine Memory.load_congr (c.memory.extent_replay _).1 fun i hi => Memory.byte_replay ?_
      rw [Memory.receives_of_extent hbase hsize, haddress hbase]
      exact hdevices 0 le_rfl i hi
  | succ n ih =>
      rw [← ih (fun k hk hkn => hquiet k hk (by omega)) fun k hk => hdevices k (by omega)]
      have hbase := (extent_after b (n + 1)).1
      refine Memory.load_congr ((extent_after b (n + 2)).1.trans hbase.symm) fun i hi => ?_
      refine byte_step ?_ ?_ <;> rw [haddress hbase]
      · exact hquiet (n + 1) (by omega) le_rfl i hi
      · exact hdevices (n + 1) le_rfl i hi

/-- **An exchange, as far as the devices leave the data alone.**  If in none of the steps from the
    load-reserved on, its own step included, a device writes to the data, then the bytes are still
    the ones that the load-reserved has read when the store-conditional comes.  It completes, says
    that it has succeeded, and leaves its own value in their place. -/
theorem reserved_exchange (h : b.Paired n w p v value rd)
    (hdevices : ∀ k ≤ n, ∀ i < w.bytes,
      ¬(b.after k).memory.Receives (b.after k).deviceWrites (p.toNat + i)) :
    (b.after (n + 1)).memory.load p w = v ∧
    ∃ i c, executeNext (b.after (n + 1)) = .ok i c ∧ c.hart.get rd = 0 ∧
      c.memory.load p w = value &&& w.mask := by
  refine ⟨load_after h.load h.inMemory h.quiet hdevices, ?_⟩
  refine executeNext_conditionalStore h.store ?_
  rw [contains_after]
  exact h.inMemory

end Board

namespace Machine

/-- Software that sets up a queue with one request, to read eight bytes of the disk into a buffer.
    It reserves the doubleword at `0x80000040`, tells the disk about the request, and stores there
    conditionally. -/
def reservingImage (buffer : Nat) : List UInt8 :=
  [0x00000517, 0x100015B7, 0x00400613, 0x02C5AC23, 0x05050613, 0x08C5A023, 0x04850613, 0x08C5A823,
    0x09850613, 0x0AC5A023, 0x00100613, 0x04C5A223, 0x04050513, 0x100536AF, 0x0405A823, 0x18C5372F,
    -- the data, and the available ring with its one entry
    0x2A, 0, 0x00010000, 0,
    -- the descriptors of the header, the buffer and the status
    0x80000080, 0, 16, 0x00010001, buffer, 0, 8, 0x00020003, 0x80000090, 0, 1, 2].flatMap
      (LittleEndian.toBytes 4)

/-- A machine with a disk full of ones, about to execute the load-reserved of this program. -/
def reserving (buffer : Nat) : Board :=
  ((ofConfig { MachineConfig.default with
      ramSize := 0x1000
      disk := some (List.replicate 512 1) }).after
    [.load (reservingImage buffer), .runFor 13]).board

/-- **The disk may come in between.**  It writes to the reserved doubleword, and the
    store-conditional succeeds although the value there is no longer the one that has been
    loaded. -/
theorem overwritten_in_between :
    (reserving 0x80000040).Paired 1 .double 0x80000040 0x2A 1 (Reg.ofNat 14) ∧
      ((reserving 0x80000040).after 2).memory.load 0x80000040 .double ≠ 0x2A := by
  have hrun : (reserving 0x80000040).pairs .double 0x80000040 0x2A 1 (Reg.ofNat 14) = true ∧
      ((reserving 0x80000040).after 2).memory.load 0x80000040 .double ≠ 0x2A := by
    decide +kernel
  exact ⟨Board.paired_of_pairs hrun.1, hrun.2⟩

/-- With a buffer elsewhere the disk does not interfere, and the two make an exchange. -/
theorem undisturbed_exchange :
    (reserving 0x800000C0).Paired 1 .double 0x80000040 0x2A 1 (Reg.ofNat 14) ∧
      ((reserving 0x800000C0).after 1).deviceWrites.length = 5 ∧
      ((reserving 0x800000C0).after 2).memory.load 0x80000040 .double = 0x2A ∧
      ∃ i c, Board.executeNext ((reserving 0x800000C0).after 2) = .ok i c ∧
        c.hart.get (Reg.ofNat 14) = 0 ∧ c.memory.load 0x80000040 .double = 1 := by
  have hrun : (reserving 0x800000C0).pairs .double 0x80000040 0x2A 1 (Reg.ofNat 14) = true ∧
      ((reserving 0x800000C0).after 1).deviceWrites.length = 5 ∧
      (∀ k < 2, ∀ i < 8, ¬((reserving 0x800000C0).after k).memory.Receives
        ((reserving 0x800000C0).after k).deviceWrites (0x80000040 + i)) := by
    decide +kernel
  obtain ⟨hpairs, hserved, hdevices⟩ := hrun
  have hpaired := Board.paired_of_pairs hpairs
  have hexchange := Board.reserved_exchange hpaired fun k hk => hdevices k (by omega)
  exact ⟨hpaired, hserved, hexchange⟩

end Machine

end Rv64Board
