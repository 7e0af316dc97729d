import Rv64Board.Assembly
import Rv64Board.Proofs.InstructionRows

/-!
# Loading a constant

Every 64-bit constant can be put into a register by at most eight instructions.

* `ofInt_congr` — a register holds an integer up to multiples of `2 ^ 64`, so what an instruction
  does to a register is arithmetic of integers.
* `Assembly.Loads rd value program` — the program leaves an integer in a register and does nothing
  else.  It passes from a program to one with an instruction more (`Loads.snoc`).
* `Assembly.rest_spec`, `rest_range` — **what is left of a wide constant** once its low part and the
  zeros above that have been split off: an odd number, at least twelve bits shorter.
* `Assembly.loads_li`, `length_li_le`, `canonical_li` — from there by induction, each over the
  constants that are left.
-/

namespace Rv64Board

/-! ## Words as integers -/

lemma ofInt_congr {x y : Int} (h : x % 2 ^ 64 = y % 2 ^ 64) : UInt64.ofInt x = UInt64.ofInt y := by
  rw [UInt64.ofInt, UInt64.ofInt, h]

lemma natCast_toNat_ofInt (x : Int) : ((UInt64.ofInt x).toNat : Int) = x % 2 ^ 64 := by
  have hnonneg : 0 ≤ x % 2 ^ 64 := Int.emod_nonneg _ (by decide)
  have hlt : x % 2 ^ 64 < 2 ^ 64 := Int.emod_lt_of_pos _ (by decide)
  rw [UInt64.ofInt, UInt64.toNat_ofNat']
  omega

lemma ofInt_toInt (x : Int64) : UInt64.ofInt x.toInt = x.toUInt64 := by
  have hlt := x.toUInt64.toNat_lt
  apply UInt64.toNat_inj.mp
  apply Int.natCast_inj.mp
  rw [natCast_toNat_ofInt, ← Int64.toInt_toBitVec, BitVec.toInt_eq_toNat_bmod, Int64.toNat_toBitVec,
    Int.bmod_def]
  split <;> omega

/-- A 32-bit value with its sign spread, as the integer of least size that it stands for. -/
lemma signExtend32_of_emod {v : UInt32} {x : Int} (h : (v.toNat : Int) = x % (2 ^ 32 : Nat)) :
    signExtend32 v = UInt64.ofInt (x.bmod (2 ^ 32)) := by
  have hint : v.toInt32.toInt = x.bmod (2 ^ 32) := by
    rw [← Int32.toInt_toBitVec, UInt32.toBitVec_toInt32, BitVec.toInt_eq_toNat_bmod,
      UInt32.toNat_toBitVec, h, Int.emod_bmod]
  rw [signExtend32, ← hint, ← Int32.toInt_toInt64, ofInt_toInt]

lemma signExtend32_shiftLeft (n : Nat) :
    signExtend32 (UInt32.ofNat n <<< 12) = UInt64.ofInt ((n * 4096 : Int).bmod (2 ^ 32)) := by
  have hn : (UInt32.ofNat n).toNat = n % 2 ^ 32 := UInt32.toNat_ofNat'
  have hamount : (12 : UInt32).toNat % 32 = 12 := rfl
  refine signExtend32_of_emod ?_
  rw [UInt32.toNat_shiftLeft, hamount, Nat.shiftLeft_eq, hn]
  omega

lemma eval_add_ofInt (x y : Int) :
    RegOp.add.eval (UInt64.ofInt x) (UInt64.ofInt y) = UInt64.ofInt (x + y) :=
  (UInt64.ofInt_add x y).symm

lemma eval_addw_ofInt (x y : Int) :
    RegOp.addw.eval (UInt64.ofInt x) (UInt64.ofInt y) = UInt64.ofInt ((x + y).bmod (2 ^ 32)) := by
  have hsum := natCast_toNat_ofInt (x + y)
  simp only [RegOp.eval, RegOp.evalWord]
  rw [← UInt64.toUInt32_add, ← UInt64.ofInt_add]
  refine signExtend32_of_emod ?_
  rw [UInt64.toNat_toUInt32]
  omega

lemma eval_sll_ofInt (x : Int) {k : Nat} (hk : k < 64) :
    RegOp.sll.eval (UInt64.ofInt x) (UInt64.ofInt k) = UInt64.ofInt (x * 2 ^ k) := by
  have hamount : (UInt64.ofInt k).toNat = k := by
    have h := natCast_toNat_ofInt k
    omega
  have hmask : (UInt64.ofInt k &&& 0x3F).toNat = k := by
    rw [UInt64.toNat_and, hamount, show (0x3F : UInt64).toNat = 2 ^ 6 - 1 from rfl,
      Nat.and_two_pow_sub_one_eq_mod]
    exact Nat.mod_eq_of_lt hk
  apply UInt64.toNat_inj.mp
  apply Int.natCast_inj.mp
  rw [RegOp.eval, UInt64.toNat_shiftLeft, hmask, Nat.mod_eq_of_lt hk, Nat.shiftLeft_eq,
    Int.natCast_emod, Int.natCast_mul, natCast_toNat_ofInt, natCast_toNat_ofInt, Int.mul_emod]
  push_cast
  rw [Int.emod_emod, ← Int.mul_emod]

namespace Assembly

open Board

/-! ## Programs that load a constant -/

/-- A program leaves an integer in a register, and the program counter behind the program. -/
def Loads (rd : Reg) (value : Int) (program : List Instruction) : Prop :=
  ∀ b : Board, executeRow (program.map Instruction.whole) b =
    .ok () (b.proceed rd (UInt64.ofInt value) (b.hart.pc + 4 * UInt64.ofNat program.length))

section Loads

variable {rd : Reg}

lemma loads_addi (value : Int) : Loads rd value [.opImm .addi rd Reg.zero value] := by
  intro b
  have hzero : b.hart.get Reg.zero = 0 := Registers.get_zero _
  refine (executeRow_cons [] (execute_opImm rd Reg.zero _ 4 b .addi value)).trans ?_
  rw [hzero, ImmOp.toRegOp, RegOp.eval, UInt64.zero_add]
  rfl

lemma loads_lui (high : Nat) :
    Loads rd ((high * 4096 : Int).bmod (2 ^ 32)) [.lui rd (UInt32.ofNat high)] := by
  intro b
  refine (executeRow_cons [] (execute_lui rd _ 4 b (UInt32.ofNat high))).trans ?_
  rw [signExtend32_shiftLeft]
  rfl

/-- **One more instruction on the register** does to the integer what it does to the word. -/
lemma Loads.snoc (hrd : rd ≠ Reg.zero) {value : Int} {program : List Instruction}
    (h : Loads rd value program) {op : ImmOp} {imm result : Int}
    (hop : op.toRegOp.eval (UInt64.ofInt value) (UInt64.ofInt imm) = UInt64.ofInt result) :
    Loads rd result (program ++ [.opImm op rd rd imm]) := by
  intro b
  rw [List.map_append, executeRow_append (h b)]
  refine (executeRow_cons [] (execute_opImm rd rd _ 4 _ op imm)).trans ?_
  have hget : (b.proceed rd (UInt64.ofInt value)
      (b.hart.pc + 4 * UInt64.ofNat program.length)).hart.get rd = UInt64.ofInt value := by
    rw [get_proceed, if_pos ⟨rfl, hrd⟩]
  rw [hget, hop, pc_proceed, proceed_proceed, List.length_append, List.length_singleton,
    UInt64.ofNat_add, UInt64.mul_add, UInt64.add_assoc]
  rfl

end Loads

/-! ## The parts of a constant -/

/-- A constant that a signed 32-bit word holds. -/
def IsWord (value : Int) : Prop := -0x80000000 ≤ value ∧ value < 0x80000000

/-- A constant that a signed 64-bit word holds. -/
def IsDouble (value : Int) : Prop := -0x8000000000000000 ≤ value ∧ value < 0x8000000000000000

/-- How many zeros stand between the low part of a constant and the lowest one above it. -/
def zerosAbove (value : Int) : Nat := trailingZeros (highPart value).natAbs

/-- What is left of a constant without its low part and these zeros. -/
def rest (value : Int) : Int := highPart value / (1 <<< zerosAbove value : Nat)

lemma lowPart_spec (value : Int) :
    -2048 ≤ lowPart value ∧ lowPart value < 2048 ∧ (value - lowPart value) % 4096 = 0 := by
  have hbits := Bits.natCast_slice value 0 12
  have hlt := Bits.slice_lt value 0 12
  simp only [lowPart, Bits.signed, Nat.shiftLeft_eq]
  split <;> omega

/-- The upper part is what the low part leaves, as long as it is put back in place modulo
    `2 ^ 64`. -/
lemma highPart_spec (value : Int) :
    (highPart value * 4096) % 2 ^ 64 = (value - lowPart value) % 2 ^ 64 := by
  obtain ⟨_, _, hlow⟩ := lowPart_spec value
  simp only [highPart, Int.bmod_def, UInt64.size]
  split <;> omega

lemma highPart_range {value : Int} (bound : Int) (hlow : -(4096 * bound) ≤ value)
    (hhigh : value < 4096 * bound) : -bound ≤ highPart value ∧ highPart value ≤ bound := by
  obtain ⟨hmin, hmax, hdvd⟩ := lowPart_spec value
  simp only [highPart, Int.bmod_def, UInt64.size]
  split <;> omega

lemma highPart_ne_zero {value : Int} (hwide : ¬IsWord value) (hvalue : IsDouble value) :
    highPart value ≠ 0 := by
  have hspec := highPart_spec value
  obtain ⟨hmin, hmax, _⟩ := lowPart_spec value
  rw [IsWord] at hwide
  rw [IsDouble] at hvalue
  omega

/-- **The zeros at the end of a number can be split off,** and leave an odd number. -/
lemma exists_odd_mul {n : Nat} (hn : n ≠ 0) : ∃ m, m % 2 = 1 ∧ n = m * 2 ^ trailingZeros n := by
  induction n using trailingZeros.induct with
  | case1 => exact absurd rfl hn
  | case2 n _ heven ih =>
      obtain ⟨m, hodd, hm⟩ := ih (by omega)
      refine ⟨m, hodd, ?_⟩
      rw [trailingZeros, dif_neg hn, if_pos heven, Nat.pow_succ, ← Nat.mul_assoc, ← hm]
      omega
  | case3 n _ hodd =>
      refine ⟨n, by omega, ?_⟩
      rw [trailingZeros, dif_neg hn, if_neg hodd, Nat.pow_zero, Nat.mul_one]

/-- What is left is odd, and the upper part is what is left, shifted over the zeros. -/
lemma rest_spec {value : Int} (hhigh : highPart value ≠ 0) :
    rest value % 2 = 1 ∧ rest value * 2 ^ zerosAbove value = highPart value := by
  obtain ⟨m, hodd, hm⟩ := exists_odd_mul (Int.natAbs_ne_zero.mpr hhigh)
  have hpos : (2 ^ zerosAbove value : Int) ≠ 0 := pow_ne_zero _ (by decide)
  have hshift : ((1 <<< zerosAbove value : Nat) : Int) = 2 ^ zerosAbove value := by
    rw [Nat.shiftLeft_eq, Nat.one_mul, Int.natCast_pow]
    rfl
  have hcast : ((m * 2 ^ zerosAbove value : Nat) : Int) = m * 2 ^ zerosAbove value := by
    rw [Int.natCast_mul, Int.natCast_pow]
    rfl
  rw [rest, hshift]
  rcases Int.natAbs_eq (highPart value) with hsign | hsign
  · rw [hm, ← zerosAbove, hcast] at hsign
    rw [hsign, Int.mul_ediv_cancel _ hpos]
    exact ⟨by omega, rfl⟩
  · rw [hm, ← zerosAbove, hcast, ← Int.neg_mul] at hsign
    rw [hsign, Int.mul_ediv_cancel _ hpos]
    exact ⟨by omega, rfl⟩

variable {value : Int}

lemma natAbs_highPart (hhigh : highPart value ≠ 0) :
    (highPart value).natAbs = (rest value).natAbs * 2 ^ zerosAbove value := by
  rw [← (rest_spec hhigh).2, Int.natAbs_mul, Int.natAbs_pow]
  rfl

lemma zerosAbove_le (hvalue : IsDouble value) (hhigh : highPart value ≠ 0) :
    zerosAbove value ≤ 51 := by
  obtain ⟨hodd, _⟩ := rest_spec hhigh
  have hrange := highPart_range (2 ^ 51) hvalue.1 hvalue.2
  have hpos : 0 < (rest value).natAbs := by omega
  have hle : 2 ^ zerosAbove value ≤ 2 ^ 51 := by
    have hmul := Nat.le_mul_of_pos_left (2 ^ zerosAbove value) hpos
    rw [← natAbs_highPart hhigh] at hmul
    omega
  exact (Nat.pow_le_pow_iff_right (by decide)).mp hle

/-- **What is left of a wide constant is twelve bits shorter.** -/
lemma rest_range (hhigh : highPart value ≠ 0) (bound : Int) (hmin : -(4096 * bound) ≤ value)
    (hmax : value < 4096 * bound) : -bound ≤ rest value ∧ rest value ≤ bound := by
  have hrange := highPart_range bound hmin hmax
  have hle := Nat.le_mul_of_pos_right (rest value).natAbs (Nat.two_pow_pos (zerosAbove value))
  rw [← natAbs_highPart hhigh] at hle
  omega

/-- Putting the parts of a constant together again. -/
lemma parts_spec (hhigh : highPart value ≠ 0) :
    (rest value * 2 ^ (12 + zerosAbove value)) % 2 ^ 64 = (value - lowPart value) % 2 ^ 64 := by
  have hshift : rest value * 2 ^ (12 + zerosAbove value) = highPart value * 4096 := by
    rw [← (rest_spec hhigh).2]
    ring
  rw [hshift, highPart_spec]

/-! ## The program of a constant -/

variable {rd : Reg}

lemma li_of_isWord (h : IsWord value) : li rd value = liWord rd value := by
  rw [IsWord] at h
  rw [li, dif_pos h]

lemma li_of_wide (h : ¬IsWord value) : li rd value = li rd (rest value) ++
    .opImm .slli rd rd (12 + zerosAbove value : Nat) ::
      (if lowPart value = 0 then [] else [.opImm .addi rd rd (lowPart value)]) := by
  rw [IsWord] at h
  rw [li, dif_neg h]
  rfl

/-- **Induction over the constants that are left.**  A constant is a word, or a wide one of which
    something is left. -/
lemma li_induction {P : Int → Prop} (hword : ∀ v, IsWord v → P v)
    (hwide : ∀ v, IsDouble v → highPart v ≠ 0 → ¬IsWord v → P (rest v) → P v) (value : Int)
    (hvalue : IsDouble value) : P value := by
  by_cases h : IsWord value
  · exact hword value h
  · have hhigh := highPart_ne_zero h hvalue
    have hrest : IsDouble (rest value) := by
      have hrange := rest_range hhigh (2 ^ 51) hvalue.1 hvalue.2
      rw [IsDouble]
      omega
    exact hwide value hvalue hhigh h (li_induction hword hwide (rest value) hrest)
termination_by value.natAbs
decreasing_by exact natAbs_highPart_lt h _

/-- A word is loaded by its upper twenty bits, rounded, and what that leaves. -/
lemma loads_liWord (hrd : rd ≠ Reg.zero) (h : IsWord value) : Loads rd value (liWord rd value) := by
  obtain ⟨hmin, hmax, hdvd⟩ := lowPart_spec value
  have hhigh := Bits.natCast_slice (value + 0x800) 12 20
  rw [IsWord] at h
  rw [liWord]
  generalize Bits.slice (value + 0x800) 12 20 = high at *
  by_cases hzero : high = 0
  · have hlow : lowPart value = value := by omega
    rw [if_pos hzero, hlow]
    exact loads_addi value
  · rw [if_neg hzero]
    by_cases hlow : lowPart value = 0
    · have hupper : (high * 4096 : Int).bmod (2 ^ 32) = value := by
        simp only [Int.bmod_def]
        split <;> omega
      rw [if_pos hlow, ← hupper]
      exact loads_lui high
    · have hsum : ((high * 4096 : Int).bmod (2 ^ 32) + lowPart value).bmod (2 ^ 32) = value := by
        simp only [Int.bmod_def]
        split <;> split <;> omega
      rw [if_neg hlow, ← List.singleton_append]
      refine (loads_lui high).snoc hrd ?_
      rw [ImmOp.toRegOp, eval_addw_ofInt, hsum]

/-- **The program of a constant loads it.** -/
lemma loads_li (hrd : rd ≠ Reg.zero) (hvalue : IsDouble value) : Loads rd value (li rd value) := by
  refine li_induction (P := fun v => Loads rd v (li rd v)) (fun v h => ?_) ?_ value hvalue
  · rw [li_of_isWord h]
    exact loads_liWord hrd h
  · intro v hv hhigh hwide hrest
    have hzeros := zerosAbove_le hv hhigh
    have hshifted : Loads rd (v - lowPart v)
        (li rd (rest v) ++ [.opImm .slli rd rd (12 + zerosAbove v : Nat)]) := by
      refine hrest.snoc hrd ?_
      rw [ImmOp.toRegOp, eval_sll_ofInt _ (by omega)]
      exact ofInt_congr (parts_spec hhigh)
    rw [li_of_wide hwide]
    by_cases hlow : lowPart v = 0
    · rw [hlow, Int.sub_zero] at hshifted
      rw [if_pos hlow]
      exact hshifted
    · rw [if_neg hlow, List.append_cons]
      refine hshifted.snoc hrd ?_
      rw [ImmOp.toRegOp, eval_add_ofInt, Int.sub_add_cancel]

/-- Twelve bits more cost two instructions more. -/
lemma length_li_le (hvalue : IsDouble value) (n : Nat) (hmin : -(2 ^ (31 + 12 * n) : Int) ≤ value)
    (hmax : value < 2 ^ (31 + 12 * n)) : (li rd value).length ≤ 2 * n + 2 := by
  refine li_induction (P := fun v => ∀ n : Nat, -(2 ^ (31 + 12 * n) : Int) ≤ v →
    v < 2 ^ (31 + 12 * n) → (li rd v).length ≤ 2 * n + 2) (fun v h n _ _ => ?_) ?_ value hvalue n
    hmin hmax
  · rw [li_of_isWord h, liWord]
    split
    · simp
    · split <;> simp
  · intro v hv hhigh hwide ih n hmin hmax
    cases n with
    | zero => exact absurd ⟨hmin, hmax⟩ hwide
    | succ n =>
        have hpow : (2 ^ (31 + 12 * (n + 1)) : Int) = 4096 * 2 ^ (31 + 12 * n) := by ring
        have heven : (2 ^ (31 + 12 * n) : Int) = 2 * 2 ^ (30 + 12 * n) := by ring
        rw [hpow] at hmin hmax
        -- an odd number is not at the end of the range
        have hrange := rest_range hhigh _ hmin hmax
        have hodd := (rest_spec hhigh).1
        have hlen := ih n (by omega) (by omega)
        rw [li_of_wide hwide]
        split <;> simp <;> omega

lemma canonical_li (hvalue : IsDouble value) : ∀ i ∈ li rd value, i.Canonical := by
  have hlow (v : Int) (rs1 : Reg) {op : ImmOp} (hop : op.isShift = false) :
      (Instruction.opImm op rd rs1 (lowPart v)).Canonical := by
    obtain ⟨hmin, hmax, _⟩ := lowPart_spec v
    simp only [Instruction.Canonical, hop]
    exact ⟨hmin, hmax⟩
  refine li_induction (P := fun v => ∀ i ∈ li rd v, i.Canonical) (fun v h => ?_) ?_ value hvalue
  · rw [li_of_isWord h, liWord]
    split
    · simpa using hlow v Reg.zero rfl
    · have hhigh :
          (Instruction.lui rd (UInt32.ofNat (Bits.slice (v + 0x800) 12 20))).Canonical := by
        have hlt := Bits.slice_lt (v + 0x800) 12 20
        simp only [Instruction.Canonical]
        rw [UInt32.toNat_ofNat']
        omega
      split
      · simpa using hhigh
      · simpa using ⟨hhigh, hlow v rd rfl⟩
  · intro v hv hhigh hwide ih
    have hzeros := zerosAbove_le hv hhigh
    have hshift : (Instruction.opImm .slli rd rd (12 + zerosAbove v : Nat)).Canonical := by
      simp only [Instruction.Canonical, ImmOp.isShift, ImmOp.isWord, if_true, Bool.false_eq_true,
        if_false]
      omega
    rw [li_of_wide hwide]
    intro i hi
    rcases List.mem_append.mp hi with hi | hi
    · exact ih i hi
    · rcases List.mem_cons.mp hi with rfl | hi
      · exact hshift
      · split at hi
        · cases hi
        · rw [List.mem_singleton.mp hi]
          exact hlow v rd rfl

/-- **Every constant can be loaded.**  At most eight instructions, all of which can be encoded,
    leave it in the register and the program counter behind them, and change nothing else. -/
theorem li_loads_every_constant (rd : Reg) (hrd : rd ≠ Reg.zero) (value : Int64) (b : Board) :
    (li rd value.toInt).length ≤ 8 ∧
    (∀ i ∈ li rd value.toInt, Instruction.decode i.encode = .ok i) ∧
    executeRow ((li rd value.toInt).map Instruction.whole) b =
      .ok () { b with
        hart := (b.hart.set rd value.toUInt64).jump
          (b.hart.pc + 4 * UInt64.ofNat (li rd value.toInt).length) } := by
  have hvalue : IsDouble value.toInt := ⟨value.le_toInt, value.toInt_lt⟩
  refine ⟨length_li_le hvalue 3 ?_ ?_, fun i hi => ?_, ?_⟩
  · have hmin := hvalue.1
    omega
  · have hmax := hvalue.2
    omega
  · exact Instruction.decode_eq_ok_iff.mpr
      (Instruction.decode?_of_encode_eq (canonical_li hvalue i hi) rfl)
  · rw [loads_li hrd hvalue b, ofInt_toInt]
    rfl

/-- A constant that takes all eight instructions, on a board at reset. -/
theorem li_loads_mixed_bits :
    Reg.a0 ≠ Reg.zero ∧ (li Reg.a0 (0x123456789ABCDEF0 : Int64).toInt).length = 8 ∧
    (finalState (executeRow ((li Reg.a0 (0x123456789ABCDEF0 : Int64).toInt).map Instruction.whole)
      default)).hart.get Reg.a0 = 0x123456789ABCDEF0 := by
  have hrd : Reg.a0 ≠ Reg.zero := by decide
  obtain ⟨_, _, hrun⟩ := li_loads_every_constant Reg.a0 hrd 0x123456789ABCDEF0 default
  refine ⟨hrd, by decide +kernel, ?_⟩
  rw [hrun]
  rfl

end Assembly

end Rv64Board
