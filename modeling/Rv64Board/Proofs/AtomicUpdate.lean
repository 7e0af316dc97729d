import Rv64Board.Proofs.ExactArithmetic
import Rv64Board.Proofs.DebuggerMemory
import Rv64Board.Proofs.BusMap

/-!
# Atomic updates

An atomic update replaces a number in memory by what an operation makes of it and of a register, and
keeps the old number in another register.  It goes by words or by double words, and the hart, whose
registers are wider than a word, computes with words whose sign has been spread.

* `AmoOp.result` — **the operations, for numbers of any width,** and `AmoOp.setWidth_eval`: they are
  what the hart computes.
* `execute_amo_ok` — an update that completes translates, reads and writes, in this order.
* `Updated` — what it leaves, and `updated_of_store`, for bytes in memory.
* `atomic_update_exact` — every update that completes, for all registers, which may be the same.
-/

namespace Rv64Board

/-! ## Numbers of the width of an access -/

/-- The number of bits that an access of a width covers. -/
def Width.bits (w : Width) : Nat := 8 * w.bytes

/-- The number at an address of memory, as wide as the access. -/
def Memory.number (m : Memory) (p : UInt64) (w : Width) : BitVec w.bits :=
  BitVec.ofNat w.bits (LittleEndian.ofBytes (m.slice (m.offset p) w.bytes))

/-- What an operation makes of two numbers of `n` bits.  Of two numbers it takes the smaller or the
    larger one as they are with a sign, or without. -/
def AmoOp.result {n : Nat} (op : AmoOp) (old operand : BitVec n) : BitVec n :=
  match op with
  | .swap => operand
  | .add => old + operand
  | .xor => old ^^^ operand
  | .and => old &&& operand
  | .or => old ||| operand
  | .min => if old.toInt ≤ operand.toInt then old else operand
  | .max => if operand.toInt ≤ old.toInt then old else operand
  | .minu => if old.toNat ≤ operand.toNat then old else operand
  | .maxu => if operand.toNat ≤ old.toNat then old else operand

section Widths

variable (w : Width) (v : UInt64)

lemma Width.bits_le : w.bits ≤ 64 := by cases w <;> decide

/-- Spreading the sign of the low bytes, as bits. -/
lemma toBitVec_signExtend :
    (signExtend w v).toBitVec = (v.toBitVec.setWidth w.bits).signExtend 64 := by
  cases w with
  | byte | half | word => rfl
  | double => exact (BitVec.signExtend_eq (v.toBitVec.setWidth 64)).symm

lemma setWidth_toBitVec_signExtend :
    (signExtend w v).toBitVec.setWidth w.bits = v.toBitVec.setWidth w.bits := by
  rw [toBitVec_signExtend, setWidth_signExtend _ w.bits_le]

lemma toInt_toInt64_signExtend :
    (signExtend w v).toInt64.toInt = (v.toBitVec.setWidth w.bits).toInt := by
  rw [← Int64.toInt_toBitVec, UInt64.toBitVec_toInt64, toBitVec_signExtend,
    BitVec.toInt_signExtend_of_le w.bits_le]

lemma toNat_and_mask : (v &&& w.mask).toNat = (v.toBitVec.setWidth w.bits).toNat := by
  have hmask : w.mask.toNat = 2 ^ w.bits - 1 := by cases w <;> rfl
  rw [UInt64.toNat_and, hmask, Nat.and_two_pow_sub_one_eq_mod, BitVec.toNat_setWidth,
    UInt64.toNat_toBitVec]

end Widths

/-- **An operation on words whose sign has been spread is the operation on their low bits.** -/
lemma AmoOp.setWidth_eval (op : AmoOp) (kind : AmoKind) (old operand : UInt64) :
    (op.eval kind (signExtend kind.width old) operand).toBitVec.setWidth kind.width.bits =
      op.result (old.toBitVec.setWidth kind.width.bits)
        (operand.toBitVec.setWidth kind.width.bits) := by
  have hle := kind.width.bits_le
  have hlow := setWidth_toBitVec_signExtend kind.width
  have hsigned (x y : UInt64) :
      (signExtend kind.width x).toInt64 ≤ (signExtend kind.width y).toInt64 ↔
        (x.toBitVec.setWidth kind.width.bits).toInt ≤
          (y.toBitVec.setWidth kind.width.bits).toInt := by
    rw [Int64.le_iff_toInt_le, toInt_toInt64_signExtend, toInt_toInt64_signExtend]
  have hunsigned (x y : UInt64) :
      signExtend kind.width x &&& kind.width.mask ≤ signExtend kind.width y &&& kind.width.mask ↔
        (x.toBitVec.setWidth kind.width.bits).toNat ≤
          (y.toBitVec.setWidth kind.width.bits).toNat := by
    rw [UInt64.le_iff_toNat_le, toNat_and_mask, toNat_and_mask, hlow, hlow]
  cases op with
  | swap => exact hlow operand
  | add =>
      simp only [eval, result, UInt64.toBitVec_add, BitVec.setWidth_add _ _ hle, hlow]
  | xor => simp only [eval, result, UInt64.toBitVec_xor, BitVec.setWidth_xor, hlow]
  | and => simp only [eval, result, UInt64.toBitVec_and, BitVec.setWidth_and, hlow]
  | or => simp only [eval, result, UInt64.toBitVec_or, BitVec.setWidth_or, hlow]
  | min | max =>
      simp only [eval, result, hsigned, apply_ite UInt64.toBitVec,
        apply_ite (BitVec.setWidth kind.width.bits), hlow]
  | minu | maxu =>
      simp only [eval, result, hunsigned, apply_ite UInt64.toBitVec,
        apply_ite (BitVec.setWidth kind.width.bits), hlow]

/-! ## Numbers in memory -/

/-- Only the low bits of a number are in its bytes. -/
lemma LittleEndian.toBytes_mod (count n : Nat) :
    toBytes count (n % 2 ^ (8 * count)) = toBytes count n := by
  have hbytes := toBytes_ofBytes (toBytes count n)
  rwa [length_toBytes, ofBytes_toBytes, Nat.one_shiftLeft] at hbytes

namespace Memory

variable {m : Memory} {p : UInt64} {w : Width}

lemma setWidth_load (m : Memory) (p : UInt64) (w : Width) :
    (m.load p w).toBitVec.setWidth w.bits = m.number p w := by
  apply BitVec.eq_of_toNat_eq
  rw [BitVec.toNat_setWidth, UInt64.toNat_toBitVec, toNat_load, number, BitVec.toNat_ofNat]

/-- A value that has been stored is there, as far as it fits. -/
lemma slice_store (hin : m.contains p w.bytes = true) (value : UInt64) :
    (m.store p w value).slice (m.offset p) w.bytes =
      LittleEndian.toBytes w.bytes (value.toBitVec.setWidth w.bits).toNat := by
  have hlength := LittleEndian.length_toBytes w.bytes value.toNat
  have hfits : m.offset p + (LittleEndian.toBytes w.bytes value.toNat).length ≤ m.size.toNat := by
    rw [hlength]
    exact offset_add_le hin
  have hslice := slice_patch m hfits
  rw [hlength] at hslice
  rw [store, hslice, BitVec.toNat_setWidth, UInt64.toNat_toBitVec, Width.bits,
    LittleEndian.toBytes_mod]

end Memory

/-- If the bus answers an access to an address in memory, then all of the access is in memory: no
    region starts there. -/
lemma Bus.ram_contains_of_contains {b : Bus} {p : UInt64} {w : Width} (hb : b.WellMapped)
    (hbacked : b.contains p w.bytes = true) (hin : b.ram.contains p 1 = true) :
    b.ram.contains p w.bytes = true := by
  obtain ⟨t, ht, _⟩ := (contains_iff_covers hb).mp hbacked
  cases t with
  | memory => exact memory_covers_iff.mp ht
  | region r =>
      obtain ⟨hr, hcovers⟩ := ht
      have hmemory : b.ram.span.Covers p.toNat := by
        obtain ⟨hlow, hhigh⟩ := (Sv39.contains_iff _ _ _).mp hin
        exact ⟨hlow, hhigh⟩
      have hapart := (Span.apart_iff (hb.nonempty r hr) hb.memory).mp (hb.apart r hr)
      exact absurd hmemory (hapart _ (hcovers 0 w.bytes_pos))

namespace Board

variable {op : AmoOp} {kind : AmoKind} {rd rs1 rs2 : Reg} {raw : UInt32} {len : UInt64}
  {b b' : Board} {p : UInt64} {c : Bus}

/-! ## The instruction -/

/-- An atomic update that completes: its address is translated, a value is read there, and one is
    written there. -/
lemma execute_amo_ok (hx : execute (.amo op kind rd rs1 rs2) raw len b = .ok () b') :
    ∃ p c v d e, b.hart.translate .store (b.hart.get rs1) b.bus = .ok p c ∧
      Bus.read p kind.width c = .ok v d ∧
      Bus.write p kind.width (op.eval kind (signExtend kind.width v) (b.hart.get rs2)) d =
        .ok () e ∧
      b' = { b with
        hart := (b.hart.set rd (signExtend kind.width v)).jump (b.hart.pc + len)
        bus := e } := by
  obtain ⟨_, t, hx, hjump⟩ := bind_eq_ok (x := atomicUpdate op kind rd rs1 rs2) hx
  simp only [atomicUpdate] at hx
  rw [getHart_bind] at hx
  obtain ⟨p, t₁, ha, hx⟩ := bind_eq_ok hx
  obtain ⟨ha, ht₁⟩ := onBus_eq_ok.mp ha
  obtain ⟨v, t₂, hr, hx⟩ := bind_eq_ok hx
  obtain ⟨hr, ht₂⟩ := onBus_eq_ok.mp hr
  obtain ⟨_, t₃, hw, hx⟩ := bind_eq_ok hx
  obtain ⟨hw, ht₃⟩ := onBus_eq_ok.mp hw
  rw [adaptExcept_eq_ok] at hr hw
  refine ⟨p, t₁.bus, v, t₂.bus, t₃.bus, (Hart.atomicAddress_ok ha).2, hr, hw, ?_⟩
  cases hx
  cases hjump
  rw [ht₃, ht₂, ht₁]
  rfl

/-- What an atomic update of the number at `p` leaves, where `c` is the bus once the address has
    been translated. -/
structure Updated (op : AmoOp) (w : Width) (rd rs1 rs2 : Reg) (len p : UInt64) (c : Bus)
    (b b' : Board) : Prop where
  bytes : b'.bus.ram.slice (b.bus.ram.offset p) w.bytes = LittleEndian.toBytes w.bytes
    (op.result (c.ram.number p w) ((b.hart.get rs2).toBitVec.setWidth w.bits)).toNat
  loaded : rd ≠ Reg.zero → (b'.hart.get rd).toBitVec = (c.ram.number p w).signExtend 64
  registers : ∀ r, r ≠ rd ∨ r = Reg.zero → b'.hart.get r = b.hart.get r
  pc : b'.hart.pc = b.hart.pc + len
  rest : b'.hart.csrs = b.hart.csrs ∧ b'.hart.privilege = b.hart.privilege ∧
    b'.hart.reservation = b.hart.reservation
  /-- Elsewhere there are at most the marks of the translation. -/
  elsewhere : ∀ j, ¬(b.bus.ram.offset p ≤ j ∧ j < b.bus.ram.offset p + w.bytes) →
    b'.bus.ram.byte j = b.bus.ram.byte j ∨
      b.hart.MarkedBy .store [b.hart.get rs1] b.bus j ∧
        Gains (b.bus.ram.byte j) (b'.bus.ram.byte j)

/-- Storing the result and keeping what was loaded is all that there is to an update in memory. -/
lemma updated_of_store (ht : b.hart.translate .store (b.hart.get rs1) b.bus = .ok p c)
    (hin : c.ram.contains p kind.width.bytes = true) {old : UInt64}
    (hold : old = signExtend kind.width (c.ram.load p kind.width)) :
    Updated op kind.width rd rs1 rs2 len p c b
      { b with
        hart := (b.hart.set rd old).jump (b.hart.pc + len)
        bus :=
          { c with ram := c.ram.store p kind.width (op.eval kind old (b.hart.get rs2)) } } := by
  have hoffset : c.ram.offset p = b.bus.ram.offset p := by
    rw [Memory.offset, Memory.offset, ((Hart.leaves_sameMap_translate _ _ _).of_ok ht).base]
  have hget (r : Reg) := Registers.get_set b.hart.registers rd r old
  refine ⟨?_, fun hrd => ?_, fun r hr => ?_, rfl, ⟨rfl, rfl, rfl⟩, fun j hj => ?_⟩
  · show (c.ram.store p kind.width _).slice _ _ = _
    rw [← hoffset, Memory.slice_store hin, hold, AmoOp.setWidth_eval, Memory.setWidth_load]
  · have hloaded := hget rd
    rw [if_pos ⟨rfl, hrd⟩] at hloaded
    refine (congrArg UInt64.toBitVec hloaded).trans ?_
    rw [hold, toBitVec_signExtend, Memory.setWidth_load]
  · have hkept := hget r
    have hother : ¬(r = rd ∧ rd ≠ Reg.zero) := by
      rintro ⟨rfl, hrd⟩
      exact hr.elim (· rfl) hrd
    rwa [if_neg hother] at hkept
  · show (c.ram.store p kind.width _).byte j = _ ∨ _ ∧ Gains _ ((c.ram.store p kind.width _).byte j)
    rw [← hoffset] at hj
    rw [Memory.byte_store hin, if_neg hj]
    by_cases hsame : c.ram.byte j = b.bus.ram.byte j
    · exact Or.inl hsame
    · refine Or.inr ⟨Hart.changed_translate [] ?_, ?_⟩
      · rw [ht]
        exact hsame
      · exact ((Hart.leaves_ramMarked_translate _ _ _).of_ok ht).gains j

/-- **Atomic updates are exact.**  An update that completes has its address translated to some `p`.
    If the bytes there are in memory, they become what the operation makes of them, as they are once
    the address has been translated, and of the low bits of the operand.  The register `rd` gets
    what was there, with its sign spread; `rd` may be the operand's register or that of the address,
    which have been read before.  No other register changes, the program counter moves on, and
    elsewhere memory gains at most the marks of the translation.  Where no device is mapped into
    memory, it is enough that the address `p` is in memory. -/
theorem atomic_update_exact (hx : execute (.amo op kind rd rs1 rs2) raw len b = .ok () b') :
    ∃ p c, b.hart.translate .store (b.hart.get rs1) b.bus = .ok p c ∧
      (b.bus.ram.contains p kind.width.bytes = true →
        Updated op kind.width rd rs1 rs2 len p c b b') ∧
      (b.bus.WellMapped → b.bus.ram.contains p 1 = true →
        Updated op kind.width rd rs1 rs2 len p c b b') := by
  obtain ⟨p, c, v, d, e, ht, hr, hw, hb'⟩ := execute_amo_ok hx
  have hmap := (Hart.leaves_sameMap_translate _ _ _).of_ok ht
  have hupdated (hin : b.bus.ram.contains p kind.width.bytes = true) :
      Updated op kind.width rd rs1 rs2 len p c b b' := by
    rw [← hmap.ram_contains_eq] at hin
    rw [Bus.read_of_ram hin] at hr
    cases hr
    simp only [Bus.write, hin, if_true] at hw
    cases hw
    rw [hb']
    exact updated_of_store ht hin rfl
  refine ⟨p, c, ht, hupdated, fun hb hin => hupdated (Bus.ram_contains_of_contains hb ?_ hin)⟩
  rw [← hmap.contains_eq]
  exact Bus.contains_of_read hr

/-- A hart at supervisor level that is about to update the entry through which its own address is
    translated. -/
def atOwnEntry : Board where
  hart := (Sv39.pagedHart.set Reg.a1 0x2010).set Reg.a0 0x90000000
  bus := Bus.ofMemory Debugger.Session.foldedTable
  cycles := 0
  lines := Lines.idle

/-- It finds the marks of its own translation there.  The larger number takes their place: with a
    sign, it would be the smaller one. -/
theorem own_entry_updated : ∃ b' p c,
    execute (.amo .maxu .w Reg.a0 Reg.a1 Reg.a0) 0 4 atOwnEntry = .ok () b' ∧
    atOwnEntry.hart.translate .store 0x2010 atOwnEntry.bus = .ok p c ∧
    atOwnEntry.bus.ram.contains p 4 = true ∧
    Updated .maxu .word Reg.a0 Reg.a1 Reg.a0 4 p c atOwnEntry b' ∧
    b'.hart.get Reg.a0 = 0x200000CF ∧ b'.bus.ram.load 0x80000010 .word = 0x90000000 := by
  obtain ⟨_, b', hx, htest⟩ := ok_of_passes
    (fun _ t => t.hart.get Reg.a0 == 0x200000CF && t.bus.ram.load 0x80000010 .word == 0x90000000)
    (r := execute (.amo .maxu .w Reg.a0 Reg.a1 Reg.a0) 0 4 atOwnEntry) (by decide +kernel)
  obtain ⟨pa, c', ht', hin⟩ := ok_of_passes (fun a _ => atOwnEntry.bus.ram.contains a 4)
    (r := atOwnEntry.hart.translate .store 0x2010 atOwnEntry.bus) (by decide +kernel)
  obtain ⟨p, c, ht, hupdated, _⟩ := atomic_update_exact hx
  obtain ⟨rfl, rfl⟩ := EStateM.Result.ok.inj (ht.symm.trans ht')
  rw [Bool.and_eq_true, beq_iff_eq, beq_iff_eq] at htest
  exact ⟨b', p, c, hx, ht, hin, hupdated hin, htest.1, htest.2⟩

end Board

end Rv64Board
