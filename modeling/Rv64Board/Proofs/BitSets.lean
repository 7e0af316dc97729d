import Mathlib.Tactic.Common
import Rv64Board.Bits

/-!
# Sets of bits

Registers hold sets of interrupts and of sources, one bit for each that there may be.

* `Bits.In k set` — bit `k` is in a set; `in_and`, `in_or`, `in_not` and `in_ite` take sets apart.
* `Bits.eq_zero_iff` — a set is empty exactly if nothing is in it.
-/

namespace Rv64Board.Bits

/-- A bit is in a set. -/
def In (k : Fin 64) (set : UInt64) : Prop := set.toBitVec.getLsbD k.val = true

instance (k : Fin 64) (set : UInt64) : Decidable (In k set) :=
  inferInstanceAs (Decidable (_ = true))

variable {k : Fin 64} {a b : UInt64}

lemma in_and : In k (a &&& b) ↔ In k a ∧ In k b := by
  rw [In, UInt64.toBitVec_and, BitVec.getLsbD_and, Bool.and_eq_true]
  rfl

lemma in_or : In k (a ||| b) ↔ In k a ∨ In k b := by
  rw [In, UInt64.toBitVec_or, BitVec.getLsbD_or, Bool.or_eq_true]
  rfl

lemma in_not : In k (~~~a) ↔ ¬In k a := by
  rw [In, In, UInt64.toBitVec_not, BitVec.getLsbD_not, decide_eq_true k.isLt, Bool.true_and,
    Bool.not_eq_true', Bool.not_eq_true]

lemma not_in_zero : ¬In k 0 := by
  simp [In]

lemma in_ite {p : Prop} [Decidable p] : In k (if p then a else 0) ↔ p ∧ In k a := by
  split
  · next hp => simp [hp]
  · next hp => simp [hp, not_in_zero]

lemma in_ite_zero {p : Prop} [Decidable p] : In k (if p then 0 else a) ↔ ¬p ∧ In k a := by
  rw [← in_ite, ite_not]

/-- A set is empty exactly if nothing is in it. -/
lemma eq_zero_iff : a = 0 ↔ ∀ k, ¬In k a := by
  constructor
  · rintro rfl k
    exact not_in_zero
  · intro h
    rw [← UInt64.toBitVec_inj]
    refine BitVec.eq_of_getLsbD_eq fun i hi => ?_
    have hout := h ⟨i, hi⟩
    rw [In, Bool.not_eq_true] at hout
    simpa using hout

end Rv64Board.Bits
