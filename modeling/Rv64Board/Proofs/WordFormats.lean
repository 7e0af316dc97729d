import Mathlib.Data.Nat.Bitwise
import Mathlib.Tactic.Common
import Mathlib.Tactic.Ring
import Rv64Board.Instruction.Encoding

/-!
# The formats of an instruction word

A word is a row of fields, and each format says what stands in them.  Laying fields down and picking
them up are two directions of one correspondence, and this file has both for every format.

* `fields_rType`, `fields_iType`, `fields_uType` — the fields of a word are those that were laid
  down in it.
* `rType_fields`, `iType_fields`, `uType_fields` — laying the fields of a word down again gives the
  word.

The other three formats scatter an immediate over the fields of one of these
(`sType_eq_rType`, `bType_eq_rType`, `jType_eq_uType`).  What they add is arithmetic of bits in
two's complement: `slice_add` cuts a run of bits in two, `signed_slice` and `slice_signed` say that
an integer and the bits it is kept in determine each other.
-/

namespace Rv64Board

namespace Bits

/-! ## Runs of bits -/

lemma field_eq (n low len : Nat) : field n low len = n / 2 ^ low % 2 ^ len := by
  rw [field, Nat.shiftRight_eq_div_pow, Nat.shiftLeft_eq, Nat.one_mul]

lemma field_lt_two_pow (n low len : Nat) : field n low len < 2 ^ len := by
  rw [field_eq]
  exact Nat.mod_lt _ (Nat.two_pow_pos len)

lemma field_of_lt {n len : Nat} (h : n < 2 ^ len) : field n 0 len = n := by
  rw [field_eq, Nat.pow_zero, Nat.div_one, Nat.mod_eq_of_lt h]

lemma field_add (n low a b : Nat) :
    field n low (a + b) = field n low a + field n (low + a) b * 2 ^ a := by
  rw [field_eq, field_eq, field_eq, Nat.pow_add, Nat.mod_mul, Nat.div_div_eq_div_mul,
    ← Nat.pow_add, Nat.mul_comm (2 ^ a)]

lemma testBit_field (n low len i : Nat) :
    (field n low len).testBit i = (decide (i < len) && n.testBit (low + i)) := by
  rw [field_eq, Nat.testBit_mod_two_pow, Nat.testBit_div_two_pow, Nat.add_comm]

lemma natCast_slice (z : Int) (low len : Nat) :
    (slice z low len : Int) = z / (2 ^ low : Nat) % (2 ^ len : Nat) := by
  have hpos : (0 : Int) < (2 ^ len : Nat) := Int.natCast_pos.mpr (Nat.two_pow_pos len)
  simp only [slice, Nat.shiftLeft_eq, Nat.one_mul]
  exact Int.toNat_of_nonneg (Int.emod_nonneg _ hpos.ne')

lemma slice_lt (z : Int) (low len : Nat) : slice z low len < 2 ^ len := by
  have hpos : (0 : Int) < (2 ^ len : Nat) := Int.natCast_pos.mpr (Nat.two_pow_pos len)
  rw [← Int.ofNat_lt, natCast_slice]
  exact Int.emod_lt_of_pos _ hpos

lemma slice_natCast (n low len : Nat) : slice (n : Int) low len = field n low len := by
  rw [← Int.natCast_inj, natCast_slice, field_eq]
  rfl

/-- **A run of bits is its lower part and its upper part.** -/
lemma slice_add (z : Int) (low a b : Nat) :
    slice z low (a + b) = slice z low a + slice z (low + a) b * 2 ^ a := by
  have hlow : (0 : Int) ≤ (2 ^ low : Nat) := Int.natCast_nonneg _
  have ha : (0 : Int) ≤ (2 ^ a : Nat) := Int.natCast_nonneg _
  rw [← Int.natCast_inj, Int.natCast_add, Int.natCast_mul, natCast_slice, natCast_slice,
    natCast_slice, Nat.pow_add, Nat.pow_add, Int.natCast_mul, Int.natCast_mul,
    ← Int.ediv_ediv_of_nonneg hlow, Int.emod_def, Int.emod_def, Int.emod_def,
    ← Int.ediv_ediv_of_nonneg ha]
  ring

/-- The lowest bit of an even number. -/
lemma slice_of_even {z : Int} (heven : z % 2 = 0) : slice z 0 1 = 0 := by
  rw [← Int.natCast_inj, natCast_slice, Nat.pow_zero, Int.natCast_one, Int.ediv_one]
  exact heven

/-! ## Two's complement -/

lemma signed_range (len : Nat) {n : Nat} (h : n < 2 ^ (len + 1)) :
    -(2 ^ len : Nat) ≤ signed (len + 1) n ∧ signed (len + 1) n < (2 ^ len : Nat) := by
  rw [Nat.pow_succ] at h
  simp only [signed, Nat.shiftLeft_eq, Nat.one_mul, Nat.add_sub_cancel, Nat.pow_succ]
  split <;> omega

lemma signed_even {len n : Nat} (h : n % 2 = 0) : signed (len + 1) n % 2 = 0 := by
  simp only [signed, Nat.shiftLeft_eq, Nat.one_mul, Nat.pow_succ]
  split <;> omega

/-- **An integer in range is what its lowest bits stand for.** -/
lemma signed_slice (len : Nat) {z : Int} (hlow : -(2 ^ len : Nat) ≤ z)
    (hhigh : z < (2 ^ len : Nat)) : signed (len + 1) (slice z 0 (len + 1)) = z := by
  have hz := natCast_slice z 0 (len + 1)
  rw [Nat.pow_zero, Int.natCast_one, Int.ediv_one, Nat.pow_succ] at hz
  simp only [signed, Nat.shiftLeft_eq, Nat.one_mul, Nat.add_sub_cancel, Nat.pow_succ]
  by_cases hneg : z < 0
  · rw [← Int.add_emod_right, Int.emod_eq_of_lt (by omega) (by omega)] at hz
    split <;> omega
  · rw [Int.emod_eq_of_lt (by omega) (by omega)] at hz
    split <;> omega

/-- **The bits of an integer are those it was read from.** -/
lemma slice_signed {len n low k : Nat} (h : low + k ≤ len) :
    slice (signed len n) low k = field n low k := by
  obtain ⟨rest, rfl⟩ := Nat.exists_eq_add_of_le h
  rw [← slice_natCast, ← Int.natCast_inj, natCast_slice, natCast_slice, signed]
  split
  · rfl
  · -- what was subtracted is a multiple of the whole run
    have hpos : (0 : Int) < (2 ^ low : Nat) := Int.natCast_pos.mpr (Nat.two_pow_pos low)
    rw [Nat.shiftLeft_eq, Nat.one_mul, Nat.pow_add, Nat.pow_add, Nat.mul_assoc, Int.natCast_mul,
      Int.sub_mul_ediv_left _ _ hpos.ne', Int.natCast_mul, Int.sub_mul_emod_self_left]

end Bits

lemma Opcode.bits_lt (o : Opcode) : o.bits < 2 ^ 7 := by cases o <;> decide

namespace Reg

@[simp] lemma ofNat_index (r : Reg) : Reg.ofNat r.index = r := by
  simp [Reg.ofNat]

lemma index_ofNat {n : Nat} (h : n < 2 ^ 5) : ((Reg.ofNat n).index : Nat) = n := Nat.mod_eq_of_lt h

end Reg

namespace Instruction

open Bits

/-! ## Laying down, then picking up -/

section LaidDown

variable (opcode : Opcode) (rd rs1 rs2 : Reg) {funct3 funct7 n : Nat}

lemma fields_rType (h₃ : funct3 < 2 ^ 3) (h₇ : funct7 < 2 ^ 7)
    (hn : (rType opcode rd funct3 rs1 rs2 funct7).toNat = n) :
    field n 0 7 = opcode.bits ∧ field n 7 5 = rd.index ∧ field n 12 3 = funct3 ∧
      field n 15 5 = rs1.index ∧ field n 20 5 = rs2.index ∧ field n 25 7 = funct7 := by
  have h₀ := opcode.bits_lt
  have hrd := rd.index.isLt
  have hrs1 := rs1.index.isLt
  have hrs2 := rs2.index.isLt
  rw [rType, UInt32.toNat_ofNat'] at hn
  simp only [field_eq, Nat.shiftLeft_eq] at hn ⊢
  refine ⟨?_, ?_, ?_, ?_, ?_, ?_⟩ <;> omega

lemma fields_iType (imm : Int) (h₃ : funct3 < 2 ^ 3)
    (hn : (iType opcode rd funct3 rs1 imm).toNat = n) :
    field n 0 7 = opcode.bits ∧ field n 7 5 = rd.index ∧ field n 12 3 = funct3 ∧
      field n 15 5 = rs1.index ∧ field n 20 12 = slice imm 0 12 := by
  have h₀ := opcode.bits_lt
  have hrd := rd.index.isLt
  have hrs1 := rs1.index.isLt
  have himm := slice_lt imm 0 12
  rw [iType, UInt32.toNat_ofNat'] at hn
  simp only [field_eq, Nat.shiftLeft_eq] at hn ⊢
  refine ⟨?_, ?_, ?_, ?_, ?_⟩ <;> omega

lemma fields_uType (imm : UInt32) (hn : (uType opcode rd imm).toNat = n) :
    field n 0 7 = opcode.bits ∧ field n 7 5 = rd.index ∧
      field n 12 20 = field imm.toNat 0 20 := by
  have h₀ := opcode.bits_lt
  have hrd := rd.index.isLt
  rw [uType, UInt32.toNat_ofNat'] at hn
  simp only [field_eq, Nat.shiftLeft_eq] at hn ⊢
  refine ⟨?_, ?_, ?_⟩ <;> omega

end LaidDown

/-! ## Picking up, then laying down -/

section PickedUp

variable {w : UInt32} {opcode : Opcode} (h : field w.toNat 0 7 = opcode.bits)
include h

lemma rType_fields :
    rType opcode (rdOf w.toNat) (funct3Of w.toNat) (rs1Of w.toNat) (rs2Of w.toNat)
      (funct7Of w.toNat) = w := by
  have hlt := w.toNat_lt
  have hreg (low : Nat) := Reg.index_ofNat (field_lt_two_pow w.toNat low 5)
  rw [← UInt32.toNat_inj, rType, UInt32.toNat_ofNat', ← h, rdOf, rs1Of, rs2Of, hreg, hreg, hreg,
    funct3Of, funct7Of]
  simp only [field_eq, Nat.shiftLeft_eq]
  omega

lemma iType_fields {imm : Int} (himm : slice imm 0 12 = field w.toNat 20 12) :
    iType opcode (rdOf w.toNat) (funct3Of w.toNat) (rs1Of w.toNat) imm = w := by
  have hlt := w.toNat_lt
  have hreg (low : Nat) := Reg.index_ofNat (field_lt_two_pow w.toNat low 5)
  rw [← UInt32.toNat_inj, iType, UInt32.toNat_ofNat', ← h, rdOf, rs1Of, hreg, hreg, funct3Of, himm]
  simp only [field_eq, Nat.shiftLeft_eq]
  omega

lemma uType_fields {imm : UInt32} (himm : field imm.toNat 0 20 = field w.toNat 12 20) :
    uType opcode (rdOf w.toNat) imm = w := by
  have hlt := w.toNat_lt
  rw [← UInt32.toNat_inj, uType, UInt32.toNat_ofNat', ← h, rdOf,
    Reg.index_ofNat (field_lt_two_pow w.toNat 7 5), himm]
  simp only [field_eq, Nat.shiftLeft_eq]
  omega

end PickedUp

/-! ## Immediates in one piece -/

lemma immI_eq {n : Nat} {imm : Int} (h₂₀ : field n 20 12 = slice imm 0 12) (hlow : -2048 ≤ imm)
    (hhigh : imm < 2048) : immI n = imm := by
  rw [immI, h₂₀]
  exact signed_slice 11 hlow hhigh

lemma slice_immI (n : Nat) : slice (immI n) 0 12 = field n 20 12 := by
  have hlt := field_lt_two_pow n 20 12
  rw [immI, slice_signed (Nat.le_refl 12), field_eq (field n 20 12)]
  omega

lemma immI_range (n : Nat) : -2048 ≤ immI n ∧ immI n < 2048 :=
  signed_range 11 (field_lt_two_pow n 20 12)

lemma immU_eq {n : Nat} {imm : UInt32} (h : imm.toNat < 2 ^ 20)
    (h₁₂ : field n 12 20 = field imm.toNat 0 20) : immU n = imm := by
  rw [immU, h₁₂, field_of_lt h, UInt32.ofNat_toNat]

lemma toNat_immU (n : Nat) : (immU n).toNat = field n 12 20 := by
  have hlt := field_lt_two_pow n 12 20
  exact UInt32.toNat_ofNat_of_lt' (by rw [UInt32.size]; omega)

lemma immU_lt (n : Nat) : (immU n).toNat < 2 ^ 20 := by
  rw [toNat_immU]
  exact field_lt_two_pow n 12 20

lemma uType_immU {w : UInt32} {opcode : Opcode} (h : field w.toNat 0 7 = opcode.bits) :
    uType opcode (rdOf w.toNat) (immU w.toNat) = w :=
  uType_fields h (by rw [field_of_lt (immU_lt _), toNat_immU])

/-! ## Immediates of stores -/

lemma sType_eq_rType (opcode : Opcode) (funct3 : Nat) (rs1 rs2 : Reg) (imm : Int) :
    sType opcode funct3 rs1 rs2 imm =
      rType opcode (Reg.ofNat (slice imm 0 5)) funct3 rs1 rs2 (slice imm 5 7) := by
  rw [sType, rType, Reg.index_ofNat (slice_lt imm 0 5)]

lemma immS_eq {n : Nat} {imm : Int} (h₇ : field n 7 5 = slice imm 0 5)
    (h₂₅ : field n 25 7 = slice imm 5 7) (hlow : -2048 ≤ imm) (hhigh : imm < 2048) :
    immS n = imm := by
  rw [immS, h₇, h₂₅, Nat.shiftLeft_eq, ← slice_add imm 0 5 7]
  exact signed_slice 11 hlow hhigh

lemma immS_range (n : Nat) : -2048 ≤ immS n ∧ immS n < 2048 := by
  have h₇ := field_lt_two_pow n 7 5
  have h₂₅ := field_lt_two_pow n 25 7
  exact signed_range 11 (by rw [Nat.shiftLeft_eq]; omega)

lemma sType_fields {w : UInt32} {opcode : Opcode} (h : field w.toNat 0 7 = opcode.bits) :
    sType opcode (funct3Of w.toNat) (rs1Of w.toNat) (rs2Of w.toNat) (immS w.toNat) = w := by
  have h₇ := field_lt_two_pow w.toNat 7 5
  have hlow : slice (immS w.toNat) 0 5 = field w.toNat 7 5 := by
    rw [immS, slice_signed (by decide), field_eq _ 0 5, Nat.shiftLeft_eq]
    omega
  have hhigh : slice (immS w.toNat) 5 7 = field w.toNat 25 7 := by
    have h₂₅ := field_lt_two_pow w.toNat 25 7
    rw [immS, slice_signed (by decide), field_eq _ 5 7, Nat.shiftLeft_eq]
    omega
  rw [sType_eq_rType, hlow, hhigh]
  exact rType_fields h

/-! ## Offsets of branches -/

lemma bType_eq_rType (opcode : Opcode) (funct3 : Nat) (rs1 rs2 : Reg) (offset : Int) :
    bType opcode funct3 rs1 rs2 offset =
      rType opcode (Reg.ofNat (slice offset 11 1 + slice offset 1 4 * 2)) funct3 rs1 rs2
        (slice offset 5 6 + slice offset 12 1 * 2 ^ 6) := by
  have h₁₁ := slice_lt offset 11 1
  have h₁ := slice_lt offset 1 4
  rw [bType, rType, Reg.index_ofNat (by omega)]
  refine congrArg UInt32.ofNat ?_
  simp only [Nat.shiftLeft_eq]
  omega

/-- The two fields that hold the offset of a branch, each cut at the place where its bits come from
    different ends of the offset. -/
lemma branchFields_eq (n : Nat) :
    field n 7 5 = field n 7 1 + field n 8 4 * 2 ∧
      field n 25 7 = field n 25 6 + field n 31 1 * 2 ^ 6 :=
  ⟨field_add n 7 1 4, field_add n 25 6 1⟩

lemma immB_eq {n : Nat} {offset : Int}
    (h₇ : field n 7 5 = slice offset 11 1 + slice offset 1 4 * 2)
    (h₂₅ : field n 25 7 = slice offset 5 6 + slice offset 12 1 * 2 ^ 6) (heven : offset % 2 = 0)
    (hlow : -4096 ≤ offset) (hhigh : offset < 4096) : immB n = offset := by
  have hall : slice offset 0 13 = slice offset 1 4 * 2 + slice offset 5 6 * 2 ^ 5 +
      slice offset 11 1 * 2 ^ 11 + slice offset 12 1 * 2 ^ 12 := by
    have s₀ := slice_of_even heven
    have s₁ : slice offset 0 13 = slice offset 0 1 + slice offset 1 12 * 2 ^ 1 :=
      slice_add offset 0 1 12
    have s₂ : slice offset 1 12 = slice offset 1 4 + slice offset 5 8 * 2 ^ 4 :=
      slice_add offset 1 4 8
    have s₃ : slice offset 5 8 = slice offset 5 6 + slice offset 11 2 * 2 ^ 6 :=
      slice_add offset 5 6 2
    have s₄ : slice offset 11 2 = slice offset 11 1 + slice offset 12 1 * 2 ^ 1 :=
      slice_add offset 11 1 1
    omega
  have h₁₁ := slice_lt offset 11 1
  have h₅ := slice_lt offset 5 6
  have hbit := field_lt_two_pow n 7 1
  have hsix := field_lt_two_pow n 25 6
  obtain ⟨f₇, f₂₅⟩ := branchFields_eq n
  rw [immB, ← signed_slice 12 hlow hhigh, hall]
  refine congrArg (signed 13) ?_
  simp only [Nat.shiftLeft_eq]
  omega

section BranchOffset

variable (n : Nat)

/-- The parts of a branch offset are small enough to stand side by side. -/
lemma branchParts_lt :
    field n 8 4 < 2 ^ 4 ∧ field n 25 6 < 2 ^ 6 ∧ field n 7 1 < 2 ^ 1 ∧ field n 31 1 < 2 ^ 1 :=
  ⟨field_lt_two_pow n 8 4, field_lt_two_pow n 25 6, field_lt_two_pow n 7 1,
    field_lt_two_pow n 31 1⟩

lemma immB_range : -4096 ≤ immB n ∧ immB n < 4096 := by
  obtain ⟨h₈, h₂₅, h₇, h₃₁⟩ := branchParts_lt n
  exact signed_range 12 (by simp only [Nat.shiftLeft_eq]; omega)

lemma immB_even : immB n % 2 = 0 :=
  signed_even (by simp only [Nat.shiftLeft_eq]; omega)

lemma slice_immB :
    slice (immB n) 11 1 = field n 7 1 ∧ slice (immB n) 1 4 = field n 8 4 ∧
      slice (immB n) 5 6 = field n 25 6 ∧ slice (immB n) 12 1 = field n 31 1 := by
  obtain ⟨h₈, h₂₅, h₇, h₃₁⟩ := branchParts_lt n
  refine ⟨?_, ?_, ?_, ?_⟩ <;>
    rw [immB, slice_signed (by decide), field_eq (_ + _)] <;>
    simp only [Nat.shiftLeft_eq] <;>
    omega

end BranchOffset

lemma bType_fields {w : UInt32} {opcode : Opcode} (h : field w.toNat 0 7 = opcode.bits) :
    bType opcode (funct3Of w.toNat) (rs1Of w.toNat) (rs2Of w.toNat) (immB w.toNat) = w := by
  obtain ⟨h₁₁, h₁, h₅, h₁₂⟩ := slice_immB w.toNat
  obtain ⟨f₇, f₂₅⟩ := branchFields_eq w.toNat
  rw [bType_eq_rType, h₁₁, h₁, h₅, h₁₂, ← f₇, ← f₂₅]
  exact rType_fields h

/-! ## Offsets of jumps -/

/-- The 20 bits of a word that hold the offset of a jump. -/
def jumpField (offset : Int) : Nat :=
  slice offset 12 8 + slice offset 11 1 * 2 ^ 8 + slice offset 1 10 * 2 ^ 9 +
    slice offset 20 1 * 2 ^ 19

lemma field_jumpField (offset : Int) :
    field (UInt32.ofNat (jumpField offset)).toNat 0 20 = jumpField offset := by
  have h₁₂ := slice_lt offset 12 8
  have h₁₁ := slice_lt offset 11 1
  have h₁ := slice_lt offset 1 10
  have h₂₀ := slice_lt offset 20 1
  rw [UInt32.toNat_ofNat', field_eq, jumpField]
  omega

lemma jType_eq_uType (opcode : Opcode) (rd : Reg) (offset : Int) :
    jType opcode rd offset = uType opcode rd (UInt32.ofNat (jumpField offset)) := by
  rw [jType, uType, field_jumpField, jumpField]
  refine congrArg UInt32.ofNat ?_
  simp only [Nat.shiftLeft_eq]
  omega

lemma jumpFields_eq (n : Nat) :
    field n 12 20 = field n 12 8 + field n 20 1 * 2 ^ 8 + field n 21 10 * 2 ^ 9 +
      field n 31 1 * 2 ^ 19 := by
  have f₁ : field n 12 20 = field n 12 8 + field n 20 12 * 2 ^ 8 := field_add n 12 8 12
  have f₂ : field n 20 12 = field n 20 1 + field n 21 11 * 2 ^ 1 := field_add n 20 1 11
  have f₃ : field n 21 11 = field n 21 10 + field n 31 1 * 2 ^ 10 := field_add n 21 10 1
  omega

lemma immJ_eq {n : Nat} {offset : Int} (h₁₂ : field n 12 20 = jumpField offset)
    (heven : offset % 2 = 0) (hlow : -1048576 ≤ offset) (hhigh : offset < 1048576) :
    immJ n = offset := by
  have hall : slice offset 0 21 = slice offset 1 10 * 2 + slice offset 11 1 * 2 ^ 11 +
      slice offset 12 8 * 2 ^ 12 + slice offset 20 1 * 2 ^ 20 := by
    have s₀ := slice_of_even heven
    have s₁ : slice offset 0 21 = slice offset 0 1 + slice offset 1 20 * 2 ^ 1 :=
      slice_add offset 0 1 20
    have s₂ : slice offset 1 20 = slice offset 1 10 + slice offset 11 10 * 2 ^ 10 :=
      slice_add offset 1 10 10
    have s₃ : slice offset 11 10 = slice offset 11 1 + slice offset 12 9 * 2 ^ 1 :=
      slice_add offset 11 1 9
    have s₄ : slice offset 12 9 = slice offset 12 8 + slice offset 20 1 * 2 ^ 8 :=
      slice_add offset 12 8 1
    omega
  have b₁ := slice_lt offset 12 8
  have b₂ := slice_lt offset 11 1
  have b₃ := slice_lt offset 1 10
  have c₁ := field_lt_two_pow n 12 8
  have c₂ := field_lt_two_pow n 20 1
  have c₃ := field_lt_two_pow n 21 10
  rw [jumpFields_eq, jumpField] at h₁₂
  rw [immJ, ← signed_slice 20 hlow hhigh, hall]
  refine congrArg (signed 21) ?_
  simp only [Nat.shiftLeft_eq]
  omega

section JumpOffset

variable (n : Nat)

lemma jumpParts_lt :
    field n 21 10 < 2 ^ 10 ∧ field n 20 1 < 2 ^ 1 ∧ field n 12 8 < 2 ^ 8 ∧ field n 31 1 < 2 ^ 1 :=
  ⟨field_lt_two_pow n 21 10, field_lt_two_pow n 20 1, field_lt_two_pow n 12 8,
    field_lt_two_pow n 31 1⟩

lemma immJ_range : -1048576 ≤ immJ n ∧ immJ n < 1048576 := by
  obtain ⟨h₂₁, h₂₀, h₁₂, h₃₁⟩ := jumpParts_lt n
  exact signed_range 20 (by simp only [Nat.shiftLeft_eq]; omega)

lemma immJ_even : immJ n % 2 = 0 :=
  signed_even (by simp only [Nat.shiftLeft_eq]; omega)

lemma jumpField_immJ : jumpField (immJ n) = field n 12 20 := by
  obtain ⟨h₂₁, h₂₀, h₁₂, h₃₁⟩ := jumpParts_lt n
  have hparts : slice (immJ n) 12 8 = field n 12 8 ∧ slice (immJ n) 11 1 = field n 20 1 ∧
      slice (immJ n) 1 10 = field n 21 10 ∧ slice (immJ n) 20 1 = field n 31 1 := by
    refine ⟨?_, ?_, ?_, ?_⟩ <;>
      rw [immJ, slice_signed (by decide), field_eq (_ + _)] <;>
      simp only [Nat.shiftLeft_eq] <;>
      omega
  obtain ⟨p₁₂, p₁₁, p₁, p₂₀⟩ := hparts
  rw [jumpField, jumpFields_eq, p₁₂, p₁₁, p₁, p₂₀]

end JumpOffset

lemma jType_fields {w : UInt32} {opcode : Opcode} (h : field w.toNat 0 7 = opcode.bits) :
    jType opcode (rdOf w.toNat) (immJ w.toNat) = w := by
  rw [jType_eq_uType]
  refine uType_fields h ?_
  rw [field_jumpField, jumpField_immJ]

end Instruction

end Rv64Board
