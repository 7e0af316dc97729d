import Rv64Board.Instruction.Compressed
import Rv64Board.Proofs.InstructionCodec

/-!
# Short forms stand for canonical instructions

The immediates of the 16-bit formats are scattered over the parcel, each format in its own way, and
some are scaled.  Whatever the parcel, the number that comes together fits into the long form of the
instruction; in particular the offsets of jumps and branches are even.

* `jumpOffset_range`, `branchOffset_range` — the two formats that move the program counter.
* `canonical_of_decodeCompressed` — **every parcel that decodes stands for a canonical
  instruction.**
-/

namespace Rv64Board.Instruction

open Bits

variable {n : Nat} {i : Instruction}

/-! ## Immediates -/

lemma imm6_lt (n : Nat) : imm6 n < 64 := by
  have h₂ := field_lt_two_pow n 2 5
  have h₁₂ := field_lt_two_pow n 12 1
  simp only [imm6, Nat.shiftLeft_eq]
  omega

lemma wordOffset_lt (n : Nat) : wordOffset n < 128 := by
  have h₆ := field_lt_two_pow n 6 1
  have h₁₀ := field_lt_two_pow n 10 3
  have h₅ := field_lt_two_pow n 5 1
  simp only [wordOffset, Nat.shiftLeft_eq]
  omega

lemma doubleOffset_lt (n : Nat) : doubleOffset n < 256 := by
  have h₁₀ := field_lt_two_pow n 10 3
  have h₅ := field_lt_two_pow n 5 2
  simp only [doubleOffset, Nat.shiftLeft_eq]
  omega

lemma stackAddress_lt (n : Nat) : stackAddress n < 1024 := by
  have h₆ := field_lt_two_pow n 6 1
  have h₅ := field_lt_two_pow n 5 1
  have h₁₁ := field_lt_two_pow n 11 2
  have h₇ := field_lt_two_pow n 7 4
  simp only [stackAddress, Nat.shiftLeft_eq]
  omega

lemma stackMove_lt (n : Nat) : stackMove n < 1024 := by
  have h₆ := field_lt_two_pow n 6 1
  have h₂ := field_lt_two_pow n 2 1
  have h₅ := field_lt_two_pow n 5 1
  have h₃ := field_lt_two_pow n 3 2
  have h₁₂ := field_lt_two_pow n 12 1
  simp only [stackMove, Nat.shiftLeft_eq]
  omega

lemma signed_imm6_range (n : Nat) : -32 ≤ signed 6 (imm6 n) ∧ signed 6 (imm6 n) < 32 :=
  signed_range 5 (imm6_lt n)

lemma signed_stackMove_range (n : Nat) :
    -512 ≤ signed 10 (stackMove n) ∧ signed 10 (stackMove n) < 512 :=
  signed_range 9 (stackMove_lt n)

/-- The lowest bit of a jump's offset is not in the parcel: it is zero. -/
lemma jumpOffset_range (n : Nat) :
    jumpOffset n % 2 = 0 ∧ -2048 ≤ jumpOffset n ∧ jumpOffset n < 2048 := by
  have h₃ := field_lt_two_pow n 3 3
  have h₁₁ := field_lt_two_pow n 11 1
  have h₂ := field_lt_two_pow n 2 1
  have h₇ := field_lt_two_pow n 7 1
  have h₆ := field_lt_two_pow n 6 1
  have h₉ := field_lt_two_pow n 9 2
  have h₈ := field_lt_two_pow n 8 1
  have h₁₂ := field_lt_two_pow n 12 1
  refine ⟨signed_even ?_, signed_range 11 ?_⟩ <;> simp only [Nat.shiftLeft_eq] <;> omega

lemma branchOffset_range (n : Nat) :
    branchOffset n % 2 = 0 ∧ -256 ≤ branchOffset n ∧ branchOffset n < 256 := by
  have h₃ := field_lt_two_pow n 3 2
  have h₁₀ := field_lt_two_pow n 10 2
  have h₂ := field_lt_two_pow n 2 1
  have h₅ := field_lt_two_pow n 5 2
  have h₁₂ := field_lt_two_pow n 12 1
  refine ⟨signed_even ?_, signed_range 8 ?_⟩ <;> simp only [Nat.shiftLeft_eq] <;> omega

/-! ## Quadrants -/

lemma canonical_plain {op : ImmOp} (hop : op.isShift = false) (rd rs1 : Reg) {imm : Int}
    (hlow : -2048 ≤ imm) (hhigh : imm < 2048) : (Instruction.opImm op rd rs1 imm).Canonical := by
  simp [Canonical, hop, hlow, hhigh]

lemma canonical_shift {op : ImmOp} (hop : op.isShift = true) (hword : op.isWord = false)
    (rd rs1 : Reg) (n : Nat) : (Instruction.opImm op rd rs1 (imm6 n)).Canonical := by
  have himm := imm6_lt n
  simp only [Canonical, hop, hword, if_true, Bool.false_eq_true, if_false]
  omega

lemma canonical_quadrant0 (h : decodeQuadrant0? n = some i) : i.Canonical := by
  have haddress := stackAddress_lt n
  have hword := wordOffset_lt n
  have hdouble := doubleOffset_lt n
  unfold decodeQuadrant0? at h
  split at h
  · split at h <;> cases h
    exact canonical_plain rfl _ _ (by omega) (by omega)
  · cases h
    simp only [Canonical]
    omega
  · cases h
    simp only [Canonical]
    omega
  · cases h
    simp only [Canonical]
    omega
  · cases h
    simp only [Canonical]
    omega
  · cases h

lemma canonical_arithmetic (h : decodeArithmetic? n = some i) : i.Canonical := by
  have hsigned := signed_imm6_range n
  unfold decodeArithmetic? at h
  simp only at h
  split at h
  · cases h
    exact canonical_shift rfl rfl _ _ n
  · cases h
    exact canonical_shift rfl rfl _ _ n
  · cases h
    exact canonical_plain rfl _ _ (by omega) (by omega)
  · obtain ⟨op, _, rfl⟩ := Option.map_eq_some_iff.mp h
    trivial

lemma canonical_quadrant1 (h : decodeQuadrant1? n = some i) : i.Canonical := by
  have hsigned := signed_imm6_range n
  have hjump := jumpOffset_range n
  have hbranch := branchOffset_range n
  unfold decodeQuadrant1? at h
  simp only at h
  split at h
  · cases h
    exact canonical_plain rfl _ _ (by omega) (by omega)
  · split at h <;> cases h
    exact canonical_plain rfl _ _ (by omega) (by omega)
  · cases h
    exact canonical_plain rfl _ _ (by omega) (by omega)
  · split at h
    · split at h <;> cases h
      have hmove := signed_stackMove_range n
      exact canonical_plain rfl _ _ (by omega) (by omega)
    · split at h <;> cases h
      have hupper := slice_lt (signed 6 (imm6 n)) 0 20
      simp only [Canonical, UInt32.toNat_ofNat']
      omega
  · exact canonical_arithmetic h
  · cases h
    simp only [Canonical]
    omega
  · cases h
    simp only [Canonical]
    omega
  · cases h
    simp only [Canonical]
    omega
  · cases h

lemma canonical_move (h : decodeMove? n = some i) : i.Canonical := by
  unfold decodeMove? at h
  simp only at h
  split at h
  · split at h
    · split at h <;> cases h
      simp [Canonical]
    · cases h
      trivial
  · split at h
    · split at h <;> cases h
      · trivial
      · simp [Canonical]
    · cases h
      trivial

/-- The offsets of accesses to the stack are unsigned and scaled, up to 504. -/
lemma canonical_quadrant2 (h : decodeQuadrant2? n = some i) : i.Canonical := by
  have h₁₂ := field_lt_two_pow n 12 1
  unfold decodeQuadrant2? at h
  simp only [Nat.shiftLeft_eq] at h
  split at h
  · cases h
    exact canonical_shift rfl rfl _ _ n
  · have h₄ := field_lt_two_pow n 4 3
    have h₂ := field_lt_two_pow n 2 2
    split at h <;> cases h
    simp only [Canonical]
    omega
  · have h₅ := field_lt_two_pow n 5 2
    have h₂ := field_lt_two_pow n 2 3
    split at h <;> cases h
    simp only [Canonical]
    omega
  · exact canonical_move h
  · have h₉ := field_lt_two_pow n 9 4
    have h₇ := field_lt_two_pow n 7 2
    cases h
    simp only [Canonical]
    omega
  · have h₁₀ := field_lt_two_pow n 10 3
    have h₇ := field_lt_two_pow n 7 3
    cases h
    simp only [Canonical]
    omega
  · cases h

/-- **Every parcel that decodes stands for a canonical instruction.** -/
lemma canonical_of_decodeCompressed {parcel : UInt16} (h : decodeCompressed parcel = .ok i) :
    i.Canonical := by
  rw [decodeCompressed] at h
  split at h <;> cases h
  next hi =>
  unfold decodeCompressed? at hi
  simp only at hi
  split at hi
  · exact canonical_quadrant0 hi
  · exact canonical_quadrant1 hi
  · exact canonical_quadrant2 hi
  · cases hi

end Rv64Board.Instruction
