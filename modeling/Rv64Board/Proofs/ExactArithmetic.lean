import Rv64Board.Proofs.LoadConstant

/-!
# Arithmetic is exact

Registers hold 64 bits, and what these bits stand for depends on the instruction: a number with a
sign, one without, or a number of 32 bits in the low half.  Whichever it is, the result is that of
the integers, cut to the bits that there are.

* `SizedOp` — the operations that there are for words and for their low halves, and
  `SizedOp.result`, **what they come to for numbers of any width.**
* `toBitVec_full`, `toBitVec_half` — this is what the hart computes, at 64 bits and at 32.
* `SignedDivision`, `UnsignedDivision` — quotient and remainder, with what stands in for them where
  there is none, for every width.
* `inTwoWords_mul` — the halves of a product, put together again.
* `arithmetic_exact` — all of it for two words.
-/

namespace Rv64Board

/-! ## Operations of any width -/

/-- The operations that the hart has for words and for the low halves of words. -/
inductive SizedOp
  | add | sub | sll | srl | sra | mul | div | divu | rem | remu

namespace SizedOp

/-- The operation on words. -/
def full : SizedOp → RegOp
  | .add => .add
  | .sub => .sub
  | .sll => .sll
  | .srl => .srl
  | .sra => .sra
  | .mul => .mul
  | .div => .div
  | .divu => .divu
  | .rem => .rem
  | .remu => .remu

/-- The operation on the low halves of words. -/
def half : SizedOp → RegOp
  | .add => .addw
  | .sub => .subw
  | .sll => .sllw
  | .srl => .srlw
  | .sra => .sraw
  | .mul => .mulw
  | .div => .divw
  | .divu => .divuw
  | .rem => .remw
  | .remu => .remuw

/-- An operation on numbers of `n` bits: arithmetic of integers, with or without their sign, of
    which the low `n` bits are kept.  Numbers are shifted by less than their width.  A division by
    zero has all ones for its quotient and the dividend for its remainder. -/
def result {n : Nat} (op : SizedOp) (x y : BitVec n) : BitVec n :=
  match op with
  | .add => BitVec.ofInt n (x.toInt + y.toInt)
  | .sub => BitVec.ofInt n (x.toInt - y.toInt)
  | .sll => BitVec.ofNat n (x.toNat * 2 ^ (y.toNat % n))
  | .srl => BitVec.ofNat n (x.toNat / 2 ^ (y.toNat % n))
  | .sra => BitVec.ofInt n (x.toInt / 2 ^ (y.toNat % n))
  | .mul => BitVec.ofInt n (x.toInt * y.toInt)
  | .div => if y.toNat = 0 then BitVec.allOnes n else BitVec.ofInt n (x.toInt.tdiv y.toInt)
  | .divu => if y.toNat = 0 then BitVec.allOnes n else BitVec.ofNat n (x.toNat / y.toNat)
  | .rem => if y.toNat = 0 then x else BitVec.ofInt n (x.toInt.tmod y.toInt)
  | .remu => if y.toNat = 0 then x else BitVec.ofNat n (x.toNat % y.toNat)

/-! ## Integers and bits -/

section Bits

variable {n : Nat} (x y : BitVec n)

lemma result_add : add.result x y = x + y := by
  simp only [result, BitVec.ofInt_add, BitVec.ofInt_toInt]

lemma result_sub : sub.result x y = x - y := by
  simp only [result, Int.sub_eq_add_neg, BitVec.ofInt_add, BitVec.ofInt_neg, BitVec.ofInt_toInt,
    BitVec.sub_eq_add_neg]

lemma result_mul : mul.result x y = x * y := by
  simp only [result, BitVec.ofInt_mul, BitVec.ofInt_toInt]

lemma result_sll : sll.result x y = x <<< (y.toNat % n) := by
  apply BitVec.eq_of_toNat_eq
  rw [result, BitVec.toNat_ofNat, BitVec.toNat_shiftLeft, Nat.shiftLeft_eq]

lemma result_srl : srl.result x y = x >>> (y.toNat % n) := by
  have hle : x.toNat / 2 ^ (y.toNat % n) ≤ x.toNat := Nat.div_le_self _ _
  apply BitVec.eq_of_toNat_eq
  rw [result, BitVec.toNat_ofNat, BitVec.toNat_ushiftRight, Nat.shiftRight_eq_div_pow]
  exact Nat.mod_eq_of_lt (Nat.lt_of_le_of_lt hle x.isLt)

lemma result_sra : sra.result x y = x.sshiftRight (y.toNat % n) := by
  have hpow : (2 ^ (y.toNat % n) : Int) = (2 ^ (y.toNat % n) : Nat) := by push_cast; rfl
  rw [result, hpow, ← Int.shiftRight_eq_div_pow, ← BitVec.toInt_sshiftRight, BitVec.ofInt_toInt]

lemma result_div : div.result x y = if y.toNat = 0 then BitVec.allOnes n else x.sdiv y := by
  rw [result]
  congr 1
  apply BitVec.eq_of_toInt_eq
  rw [BitVec.toInt_ofInt, BitVec.toInt_sdiv]

lemma result_divu : divu.result x y = if y.toNat = 0 then BitVec.allOnes n else x / y := by
  rw [result, ← BitVec.udiv_def]

lemma result_rem : rem.result x y = if y.toNat = 0 then x else x.srem y := by
  rw [result, ← BitVec.toInt_srem, BitVec.ofInt_toInt]

lemma result_remu : remu.result x y = if y.toNat = 0 then x else x % y := by
  rw [result, ← BitVec.umod_def]

end Bits

/-! ## What the hart computes -/

section Amounts

variable {n k : Nat} (y : BitVec n)

/-- The mask of a shift leaves the amount modulo the width. -/
lemma toNat_masked (hn : n = 2 ^ k) : (y &&& BitVec.ofNat n (n - 1)).toNat = y.toNat % n := by
  have hlt : n < 2 ^ n := Nat.lt_two_pow_self
  rw [BitVec.toNat_and, BitVec.toNat_ofNat, Nat.mod_eq_of_lt (by omega)]
  subst hn
  exact Nat.and_two_pow_sub_one_eq_mod _ _

lemma toNat_amount (hn : n = 2 ^ k) :
    ((y &&& BitVec.ofNat n (n - 1)) % BitVec.ofNat n n).toNat = y.toNat % n := by
  have hlt : n < 2 ^ n := Nat.lt_two_pow_self
  rw [BitVec.toNat_umod, toNat_masked y hn, BitVec.toNat_ofNat, Nat.mod_eq_of_lt hlt, Nat.mod_mod]

/-- Amounts are far from the sign bit. -/
lemma smod_amount (hn : n = 2 ^ k) (hsmall : 2 * n < 2 ^ n) :
    (y &&& BitVec.ofNat n (n - 1)).smod (BitVec.ofNat n n) =
      (y &&& BitVec.ofNat n (n - 1)) % BitVec.ofNat n n := by
  have hpos : 0 < n := by rw [hn]; exact Nat.two_pow_pos k
  have hmasked : (y &&& BitVec.ofNat n (n - 1)).msb = false := by
    rw [BitVec.msb_eq_false_iff_two_mul_lt, toNat_masked y hn]
    have := Nat.mod_lt y.toNat hpos
    omega
  have hwidth : (BitVec.ofNat n n).msb = false := by
    rw [BitVec.msb_eq_false_iff_two_mul_lt, BitVec.toNat_ofNat, Nat.mod_eq_of_lt (by omega)]
    exact hsmall
  rw [BitVec.smod_eq, hmasked, hwidth]
  rfl

end Amounts

/-- **The operations on words are those on 64 bits.** -/
lemma toBitVec_full (op : SizedOp) (a b : UInt64) :
    (op.full.eval a b).toBitVec = op.result a.toBitVec b.toBitVec := by
  have hwidth : 64 = 2 ^ 6 := rfl
  have hamount := toNat_amount b.toBitVec hwidth
  have hzero : b = 0 ↔ b.toBitVec.toNat = 0 := UInt64.toNat_inj.symm
  cases op with
  | add => exact (result_add _ _).symm
  | sub => exact (result_sub _ _).symm
  | mul => exact (result_mul _ _).symm
  | sll =>
      rw [result_sll, ← hamount]
      exact UInt64.toBitVec_shiftLeft a _
  | srl =>
      rw [result_srl, ← hamount]
      exact UInt64.toBitVec_shiftRight a _
  | sra =>
      rw [result_sra, ← hamount, ← smod_amount _ hwidth (by decide)]
      exact Int64.toBitVec_shiftRight a.toInt64 _
  | div =>
      simp only [full, RegOp.eval, result_div, hzero, apply_ite UInt64.toBitVec]
      rfl
  | divu =>
      simp only [full, RegOp.eval, result_divu, hzero, apply_ite UInt64.toBitVec]
      rfl
  | rem =>
      simp only [full, RegOp.eval, result_rem, hzero, apply_ite UInt64.toBitVec]
      rfl
  | remu =>
      simp only [full, RegOp.eval, result_remu, hzero, apply_ite UInt64.toBitVec]
      rfl

/-- **The operations on halves are those on 32 bits,** -/
lemma toBitVec_evalWord (op : SizedOp) (a b : UInt32) :
    (op.half.evalWord a b).toBitVec = op.result a.toBitVec b.toBitVec := by
  have hwidth : 32 = 2 ^ 5 := rfl
  have hamount := toNat_amount b.toBitVec hwidth
  have hzero : b = 0 ↔ b.toBitVec.toNat = 0 := UInt32.toNat_inj.symm
  cases op with
  | add => exact (result_add _ _).symm
  | sub => exact (result_sub _ _).symm
  | mul => exact (result_mul _ _).symm
  | sll =>
      rw [result_sll, ← hamount]
      exact UInt32.toBitVec_shiftLeft a _
  | srl =>
      rw [result_srl, ← hamount]
      exact UInt32.toBitVec_shiftRight a _
  | sra =>
      rw [result_sra, ← hamount, ← smod_amount _ hwidth (by decide)]
      exact Int32.toBitVec_shiftRight a.toInt32 _
  | div =>
      simp only [half, RegOp.evalWord, result_div, hzero, apply_ite UInt32.toBitVec]
      rfl
  | divu =>
      simp only [half, RegOp.evalWord, result_divu, hzero, apply_ite UInt32.toBitVec]
      rfl
  | rem =>
      simp only [half, RegOp.evalWord, result_rem, hzero, apply_ite UInt32.toBitVec]
      rfl
  | remu =>
      simp only [half, RegOp.evalWord, result_remu, hzero, apply_ite UInt32.toBitVec]
      rfl

/-- and their results stand in a word with their sign spread over it. -/
lemma toBitVec_half (op : SizedOp) (a b : UInt64) :
    (op.half.eval a b).toBitVec =
      (op.result (a.toBitVec.setWidth 32) (b.toBitVec.setWidth 32)).signExtend 64 := by
  have heval : op.half.eval a b = signExtend32 (op.half.evalWord a.toUInt32 b.toUInt32) := by
    cases op <;> rfl
  have hword := toBitVec_evalWord op a.toUInt32 b.toUInt32
  rw [UInt64.toBitVec_toUInt32, UInt64.toBitVec_toUInt32] at hword
  rw [heval, ← hword]
  rfl

end SizedOp

/-! ## Division -/

/-- The one quotient of numbers with a sign that does not fit. -/
def QuotientOverflows {n : Nat} (x y : BitVec n) : Prop :=
  x.toInt = -2 ^ (n - 1) ∧ y.toInt = -1

/-- `q` and `r` are quotient and remainder of numbers with a sign.  The quotient is rounded toward
    zero. -/
structure SignedDivision {n : Nat} (x y q r : BitVec n) : Prop where
  sum : y.toInt ≠ 0 → ¬QuotientOverflows x y → x.toInt = q.toInt * y.toInt + r.toInt
  truncated : y.toInt ≠ 0 → ¬QuotientOverflows x y → q.toInt = x.toInt.tdiv y.toInt
  small : y.toInt ≠ 0 → r.toInt.natAbs < y.toInt.natAbs
  sign : y.toInt ≠ 0 → r.toInt = 0 ∨ r.toInt.sign = x.toInt.sign
  overflow : QuotientOverflows x y → q.toInt = -2 ^ (n - 1) ∧ r.toInt = 0
  byZero : y.toInt = 0 → q = BitVec.allOnes n ∧ r = x

/-- `q` and `r` are quotient and remainder of numbers without a sign. -/
structure UnsignedDivision {n : Nat} (x y q r : BitVec n) : Prop where
  sum : y.toNat ≠ 0 → x.toNat = q.toNat * y.toNat + r.toNat
  small : y.toNat ≠ 0 → r.toNat < y.toNat
  byZero : y.toNat = 0 → q = BitVec.allOnes n ∧ r = x

section Division

variable {n : Nat} (x y : BitVec n)

lemma toInt_eq_zero : y.toInt = 0 ↔ y.toNat = 0 := by
  rw [← BitVec.toInt_zero, BitVec.toInt_inj, ← BitVec.toNat_inj, BitVec.toNat_zero]

variable {x y}

lemma toInt_rem (hy : y.toInt ≠ 0) : (SizedOp.rem.result x y).toInt = x.toInt.tmod y.toInt := by
  rw [SizedOp.result_rem, if_neg (mt (toInt_eq_zero y).mpr hy), BitVec.toInt_srem]

lemma quotientOverflows_iff (hn : 0 < n) :
    QuotientOverflows x y ↔ x = BitVec.intMin n ∧ y = -1#n := by
  have hone : (-1#n).toInt = -1 := by
    rw [BitVec.neg_one_eq_allOnes, BitVec.toInt_allOnes, if_pos hn]
  rw [QuotientOverflows, ← BitVec.toInt_inj, ← BitVec.toInt_inj (y := -1#n), hone,
    BitVec.toInt_intMin_of_pos hn]

lemma toInt_div (hn : 0 < n) (hy : y.toInt ≠ 0) (hfits : ¬QuotientOverflows x y) :
    (SizedOp.div.result x y).toInt = x.toInt.tdiv y.toInt := by
  rw [quotientOverflows_iff hn, not_and_or] at hfits
  rw [SizedOp.result_div, if_neg (mt (toInt_eq_zero y).mpr hy),
    BitVec.toInt_sdiv_of_ne_or_ne _ _ hfits]

variable (x y)

/-- **Signed division, of any width.** -/
lemma signedDivision (hn : 0 < n) :
    SignedDivision x y (SizedOp.div.result x y) (SizedOp.rem.result x y) where
  sum hy hfits := by
    rw [toInt_div hn hy hfits, toInt_rem hy, Int.tdiv_mul_add_tmod]
  truncated hy hfits := toInt_div hn hy hfits
  small hy := by
    rw [toInt_rem hy, Int.natAbs_tmod]
    exact Nat.mod_lt _ (Int.natAbs_pos.mpr hy)
  sign hy := by
    rw [toInt_rem hy, Int.sign_tmod]
    split
    · next hdvd => exact Or.inl (Int.tmod_eq_zero_of_dvd hdvd)
    · exact Or.inr rfl
  overflow h := by
    have hone := h.2
    have hy : y.toInt ≠ 0 := by omega
    obtain ⟨rfl, rfl⟩ := (quotientOverflows_iff hn).mp h
    refine ⟨?_, ?_⟩
    · rw [SizedOp.result_div, if_neg (mt (toInt_eq_zero _).mpr hy), BitVec.intMin_sdiv_neg_one,
        BitVec.toInt_intMin_of_pos hn]
    · rw [toInt_rem hy, hone, Int.tmod_neg, Int.tmod_one]
  byZero hy := by
    rw [toInt_eq_zero] at hy
    rw [SizedOp.result_div, SizedOp.result_rem, if_pos hy, if_pos hy]
    exact ⟨rfl, rfl⟩

/-- **Unsigned division, of any width.** -/
lemma unsignedDivision :
    UnsignedDivision x y (SizedOp.divu.result x y) (SizedOp.remu.result x y) where
  sum hy := by
    rw [SizedOp.result_divu, SizedOp.result_remu, if_neg hy, if_neg hy, BitVec.toNat_udiv,
      BitVec.toNat_umod, Nat.div_add_mod']
  small hy := by
    rw [SizedOp.result_remu, if_neg hy, BitVec.toNat_umod]
    exact Nat.mod_lt _ (Nat.pos_of_ne_zero hy)
  byZero hy := by
    rw [SizedOp.result_divu, SizedOp.result_remu, if_pos hy, if_pos hy]
    exact ⟨rfl, rfl⟩

end Division

/-! ## Products -/

/-- Two words hold a number: the upper one, read as `high`, and the lower one. -/
def InTwoWords (high : Int) (low : UInt64) (z : Int) : Prop :=
  2 ^ 64 * high + low.toNat = z

/-- A number with a sign has room in `n` bits. -/
def FitsSigned (n : Nat) (z : Int) : Prop :=
  -2 ^ (n - 1) ≤ z ∧ z < 2 ^ (n - 1)

section Products

variable {x y : Int} {a b : UInt64}

lemma toInt_emod (a : UInt64) : a.toBitVec.toInt % 2 ^ 64 = a.toNat := by
  have hlt := a.toNat_lt
  rw [BitVec.toInt_eq_toNat_bmod, UInt64.toNat_toBitVec, Int.bmod_def]
  split <;> omega

lemma natAbs_toInt_le (a : UInt64) : a.toBitVec.toInt.natAbs ≤ 2 ^ 63 := by
  have hlow := a.toBitVec.le_toInt
  have hhigh := a.toBitVec.toInt_lt
  omega

lemma natAbs_mul_le {m n : Nat} (hx : x.natAbs ≤ m) (hy : y.natAbs ≤ n) :
    (x * y).natAbs ≤ m * n := by
  rw [Int.natAbs_mul]
  exact Nat.mul_le_mul hx hy

/-- A word that a number with a sign has room in reads as that number. -/
lemma toInt_ofInt {z : Int} (hfits : FitsSigned 64 z) : (UInt64.ofInt z).toBitVec.toInt = z := by
  obtain ⟨hlow, hhigh⟩ := hfits
  rw [BitVec.toInt_eq_toNat_bmod, UInt64.toNat_toBitVec, natCast_toNat_ofInt, Int.bmod_def]
  simp only [Nat.reduceSub] at hlow hhigh
  split <;> omega

/-- **The lower word of a product** is the same however the factors are read. -/
lemma natCast_toNat_mul (hx : x % 2 ^ 64 = a.toNat) (hy : y % 2 ^ 64 = b.toNat) :
    ((a * b).toNat : Int) = x * y % 2 ^ 64 := by
  rw [Int.mul_emod, hx, hy, UInt64.toNat_mul]
  push_cast
  rfl

/-- **A product is in its two words.** -/
lemma inTwoWords_mul (hx : x % 2 ^ 64 = a.toNat) (hy : y % 2 ^ 64 = b.toNat) {high : Int}
    (hhigh : high = x * y / 2 ^ 64) : InTwoWords high (RegOp.mul.eval a b) (x * y) := by
  rw [InTwoWords, RegOp.eval, natCast_toNat_mul hx hy, hhigh, Int.mul_ediv_add_emod]

/-- With a sign, a product that 128 bits have room for has an upper word. -/
lemma inTwoWords_ofInt (hx : x % 2 ^ 64 = a.toNat) (hy : y % 2 ^ 64 = b.toNat)
    (hfits : FitsSigned 128 (x * y)) :
    InTwoWords (UInt64.ofInt (x * y / 2 ^ 64)).toBitVec.toInt (RegOp.mul.eval a b) (x * y) := by
  refine inTwoWords_mul hx hy (toInt_ofInt ?_)
  simp only [FitsSigned, Nat.reduceSub] at hfits ⊢
  omega

lemma inTwoWords_mulh (a b : UInt64) :
    InTwoWords (RegOp.mulh.eval a b).toBitVec.toInt (RegOp.mul.eval a b)
        (a.toBitVec.toInt * b.toBitVec.toInt) ∧
      FitsSigned 128 (a.toBitVec.toInt * b.toBitVec.toInt) := by
  have hsize := natAbs_mul_le (natAbs_toInt_le a) (natAbs_toInt_le b)
  have hfits : FitsSigned 128 (a.toBitVec.toInt * b.toBitVec.toInt) := by
    simp only [FitsSigned, Nat.reduceSub]
    omega
  exact ⟨inTwoWords_ofInt (toInt_emod a) (toInt_emod b) hfits, hfits⟩

lemma inTwoWords_mulhsu (a b : UInt64) :
    InTwoWords (RegOp.mulhsu.eval a b).toBitVec.toInt (RegOp.mul.eval a b)
        (a.toBitVec.toInt * b.toBitVec.toNat) ∧
      FitsSigned 128 (a.toBitVec.toInt * b.toBitVec.toNat) := by
  have hlt := b.toNat_lt
  have hb : (b.toBitVec.toNat : Int) % 2 ^ 64 = b.toNat := by
    rw [UInt64.toNat_toBitVec]
    omega
  have hsize : (a.toBitVec.toInt * b.toBitVec.toNat).natAbs ≤ 2 ^ 63 * (2 ^ 64 - 1) :=
    natAbs_mul_le (natAbs_toInt_le a) (by rw [UInt64.toNat_toBitVec]; omega)
  have hfits : FitsSigned 128 (a.toBitVec.toInt * b.toBitVec.toNat) := by
    simp only [FitsSigned, Nat.reduceSub]
    omega
  exact ⟨inTwoWords_ofInt (toInt_emod a) hb hfits, hfits⟩

lemma inTwoWords_mulhu (a b : UInt64) :
    InTwoWords (RegOp.mulhu.eval a b).toBitVec.toNat (RegOp.mul.eval a b)
        (a.toBitVec.toNat * b.toBitVec.toNat) ∧
      a.toBitVec.toNat * b.toBitVec.toNat < 2 ^ 128 := by
  have ha := a.toNat_lt
  have hb := b.toNat_lt
  have hsize : a.toNat * b.toNat ≤ (2 ^ 64 - 1) * (2 ^ 64 - 1) :=
    Nat.mul_le_mul (by omega) (by omega)
  have hhigh : (RegOp.mulhu.eval a b).toNat = a.toNat * b.toNat / 2 ^ 64 :=
    UInt64.toNat_ofNat_of_lt' (by rw [UInt64.size]; omega)
  simp only [UInt64.toNat_toBitVec]
  refine ⟨inTwoWords_mul (by omega) (by omega) ?_, by omega⟩
  rw [hhigh]
  push_cast
  rfl

end Products

/-! ## Two words -/

/-- Spreading the sign adds bits above. -/
lemma setWidth_signExtend {n m : Nat} (x : BitVec n) (h : n ≤ m) :
    (x.signExtend m).setWidth n = x := by
  apply BitVec.eq_of_getLsbD_eq
  intro i hi
  have him : i < m := by omega
  rw [BitVec.getLsbD_setWidth, BitVec.getLsbD_signExtend, if_pos hi]
  simp only [hi, him, decide_true, Bool.true_and]

/-- The low half of a word. -/
def lowHalf (a : UInt64) : BitVec 32 :=
  a.toBitVec.setWidth 32

lemma lowHalf_half (op : SizedOp) (a b : UInt64) :
    lowHalf (op.half.eval a b) = op.result (lowHalf a) (lowHalf b) := by
  rw [lowHalf, SizedOp.toBitVec_half, setWidth_signExtend _ (by decide)]
  rfl

/-- **Arithmetic is that of the integers.**  The upper and the lower word of a product hold it as a
    number of 128 bits, which has room for it, whichever factors have a sign.  Quotients and
    remainders are those of the integers, with or without sign, or what stands in for them.  And
    each operation on low halves depends on these only, and is the same operation on 32 bits, with
    the sign of its result spread over the word. -/
theorem arithmetic_exact (a b : UInt64) :
    (InTwoWords (RegOp.mulh.eval a b).toBitVec.toInt (RegOp.mul.eval a b)
        (a.toBitVec.toInt * b.toBitVec.toInt) ∧
      FitsSigned 128 (a.toBitVec.toInt * b.toBitVec.toInt)) ∧
    (InTwoWords (RegOp.mulhsu.eval a b).toBitVec.toInt (RegOp.mul.eval a b)
        (a.toBitVec.toInt * b.toBitVec.toNat) ∧
      FitsSigned 128 (a.toBitVec.toInt * b.toBitVec.toNat)) ∧
    (InTwoWords (RegOp.mulhu.eval a b).toBitVec.toNat (RegOp.mul.eval a b)
        (a.toBitVec.toNat * b.toBitVec.toNat) ∧
      a.toBitVec.toNat * b.toBitVec.toNat < 2 ^ 128) ∧
    SignedDivision a.toBitVec b.toBitVec (RegOp.div.eval a b).toBitVec
      (RegOp.rem.eval a b).toBitVec ∧
    UnsignedDivision a.toBitVec b.toBitVec (RegOp.divu.eval a b).toBitVec
      (RegOp.remu.eval a b).toBitVec ∧
    (∀ op : SizedOp,
      (op.full.eval a b).toBitVec = op.result a.toBitVec b.toBitVec ∧
      (op.half.eval a b).toBitVec = (op.result (lowHalf a) (lowHalf b)).signExtend 64 ∧
      ∀ a' b', lowHalf a' = lowHalf a → lowHalf b' = lowHalf b →
        op.half.eval a' b' = op.half.eval a b) ∧
    SignedDivision (lowHalf a) (lowHalf b) (lowHalf (RegOp.divw.eval a b))
      (lowHalf (RegOp.remw.eval a b)) ∧
    UnsignedDivision (lowHalf a) (lowHalf b) (lowHalf (RegOp.divuw.eval a b))
      (lowHalf (RegOp.remuw.eval a b)) := by
  refine ⟨inTwoWords_mulh a b, inTwoWords_mulhsu a b, inTwoWords_mulhu a b, ?_, ?_, fun op => ?_,
    ?_, ?_⟩
  · have h := signedDivision a.toBitVec b.toBitVec (by decide)
    rwa [← SizedOp.toBitVec_full, ← SizedOp.toBitVec_full] at h
  · have h := unsignedDivision a.toBitVec b.toBitVec
    rwa [← SizedOp.toBitVec_full, ← SizedOp.toBitVec_full] at h
  · refine ⟨SizedOp.toBitVec_full op a b, SizedOp.toBitVec_half op a b, fun a' b' ha hb => ?_⟩
    rw [lowHalf, lowHalf] at ha hb
    rw [← UInt64.toBitVec_inj, SizedOp.toBitVec_half, SizedOp.toBitVec_half, ha, hb]
  · have h := signedDivision (lowHalf a) (lowHalf b) (by decide)
    rwa [← lowHalf_half, ← lowHalf_half] at h
  · have h := unsignedDivision (lowHalf a) (lowHalf b)
    rwa [← lowHalf_half, ← lowHalf_half] at h

/-- The least number of 32 bits, with its sign spread and with anything above it, divided by -1.  As
    a half it has no quotient, as a word it has one. -/
theorem least_half_divided :
    lowHalf 0x1234567880000000 = lowHalf 0xFFFFFFFF80000000 ∧
    QuotientOverflows (lowHalf 0xFFFFFFFF80000000) (lowHalf 0xFFFFFFFFFFFFFFFF) ∧
    (lowHalf (RegOp.divw.eval 0xFFFFFFFF80000000 0xFFFFFFFFFFFFFFFF)).toInt = -2 ^ 31 ∧
    RegOp.divw.eval 0x1234567880000000 0xFFFFFFFFFFFFFFFF =
      RegOp.divw.eval 0xFFFFFFFF80000000 0xFFFFFFFFFFFFFFFF ∧
    SignedDivision (0xFFFFFFFF80000000 : UInt64).toBitVec (0xFFFFFFFFFFFFFFFF : UInt64).toBitVec
      (0x80000000 : UInt64).toBitVec (0 : UInt64).toBitVec := by
  obtain ⟨_, _, _, hwords, _, hsized, hhalves, _⟩ :=
    arithmetic_exact 0xFFFFFFFF80000000 0xFFFFFFFFFFFFFFFF
  have hsame : lowHalf 0x1234567880000000 = lowHalf 0xFFFFFFFF80000000 := by decide
  have hoverflows :
      QuotientOverflows (lowHalf 0xFFFFFFFF80000000) (lowHalf 0xFFFFFFFFFFFFFFFF) := by
    constructor <;> decide
  exact ⟨hsame, hoverflows, (hhalves.overflow hoverflows).1,
    (hsized .div).2.2 _ _ hsame rfl, hwords⟩

end Rv64Board
