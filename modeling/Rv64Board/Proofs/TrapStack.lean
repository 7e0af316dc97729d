import Rv64Board.Proofs.LegalCsrs
import Rv64Board.Proofs.Sv39

/-!
# What traps push onto the status register

A trap moves the interrupt enable and the level of what it interrupts into fields of the status
register, where there is room for one of each.  Returns move them back.  Machine level and the
supervisor do so alike, each with its own fields.

* `Mstatus.Stack` — the fields of a level: `Stack.machine` and `Stack.supervisor`.
* `Stack.push`, `Stack.pop` — what a trap and a return do to them.
* `Stack.pop_push` — **after both, only the stacked fields are changed.**
* `Hart.trap_cases` — the two ways to enter a handler.
* `Hart.mret_eq`, `Hart.sret_eq` — the two ways to leave one.
-/

namespace Rv64Board

lemma Within.or_left (x y : UInt64) : Within (x ||| y) x := by
  rw [iff_bits]
  intro i hi hor
  simp only [UInt64.toBitVec_or, BitVec.getElem_or, Bool.or_eq_false_iff] at hor
  exact hor.1

lemma Within.or_right (x y : UInt64) : Within (x ||| y) y := by
  rw [UInt64.or_comm]
  exact or_left y x

namespace SameOutside

variable {mask wider n x y : UInt64}

lemma mono (hmask : Within wider mask) (h : SameOutside mask x y) : SameOutside wider x y := by
  rw [iff_bits] at h ⊢
  intro i hi hwider
  exact h i hi (Within.iff_bits.mp hmask i hi hwider)

/-- Bits that turn out to be the same can be taken out of the mask. -/
lemma shrink (h : SameOutside (n ||| mask) x y) (hn : y &&& n = x &&& n) :
    SameOutside mask x y := by
  rw [iff_bits] at h ⊢
  intro i hi hmask
  cases hbit : n.toBitVec[i] with
  | false => exact h i hi (by simp [hbit, hmask])
  | true =>
      have hsame := congrArg (fun v => v.toBitVec[i]) hn
      simpa [hbit] using hsame

end SameOutside

namespace Mstatus

/-! ## Fields -/

lemma assign_eq_merge (s : Mstatus) (mask : UInt64) (on : Bool) :
    s.assign mask on = s.merge mask (if on then mask else 0) := by
  cases on with
  | false => simp [assign, merge]
  | true =>
      rw [assign, merge, if_pos rfl, if_pos rfl, UInt64.and_self]
      congr 1
      rw [← UInt64.toBitVec_inj]
      refine BitVec.eq_of_getElem_eq fun i hi => ?_
      cases hmask : mask.toBitVec[i] <;> simp [hmask]

lemma and_merge_self (s : Mstatus) (mask value : UInt64) :
    (s.merge mask value).bits &&& mask = value &&& mask :=
  merge_and s value UInt64.and_not_self

lemma and_assign_self (s : Mstatus) (mask : UInt64) (on : Bool) :
    (s.assign mask on).bits &&& mask = if on then mask else 0 := by
  rw [assign_eq_merge, and_merge_self]
  cases on <;> simp

lemma test_assign_true (s : Mstatus) (mask : UInt64) : (s.assign mask true).test mask = true := by
  rw [test, and_assign_self]
  exact beq_self_eq_true mask

lemma test_assign_self (s : Mstatus) {mask : UInt64} (hmask : mask ≠ 0) (on : Bool) :
    (s.assign mask on).test mask = on := by
  cases on with
  | false => exact test_assign_false s hmask
  | true => exact test_assign_true s mask

lemma sameOutside_merge (s : Mstatus) (mask value : UInt64) :
    SameOutside mask s.bits (s.merge mask value).bits :=
  SameOutside.merged UInt64.or_self s.bits value

lemma sameOutside_assign (s : Mstatus) (mask : UInt64) (on : Bool) :
    SameOutside mask s.bits (s.assign mask on).bits :=
  SameOutside.assign UInt64.or_self s on

/-- A field of one bit is set or clear. -/
lemma and_eq_of_test (s : Mstatus) {mask : UInt64} {k : Nat} (hmask : mask.toNat = 2 ^ k) :
    s.bits &&& mask = if s.test mask then mask else 0 := by
  rw [Sv39.test_eq_testBit s mask k hmask, ← UInt64.toNat_inj, UInt64.toNat_and, hmask,
    Nat.and_two_pow]
  cases s.bits.toNat.testBit k <;> simp [hmask]

/-! ## Pushing and popping -/

/-- The fields of the status register that a level stacks interrupted contexts with. -/
structure Stack where
  /-- Interrupts of the level are enabled. -/
  enable : UInt64
  /-- They were when the handler was entered. -/
  stacked : UInt64
  /-- The level that the handler was entered from. -/
  level : UInt64
  enable_bit : ∃ k, enable.toNat = 2 ^ k
  stacked_ne : stacked ≠ 0
  enable_stacked : enable &&& stacked = 0
  enable_level : enable &&& level = 0
  stacked_level : stacked &&& level = 0
  apart_mprv : (enable ||| (stacked ||| level)) &&& mprv = 0

namespace Stack

def machine : Stack where
  enable := mie
  stacked := mpie
  level := mppMask
  enable_bit := ⟨3, rfl⟩
  stacked_ne := by decide
  enable_stacked := by decide
  enable_level := by decide
  stacked_level := by decide
  apart_mprv := by decide

def supervisor : Stack where
  enable := sie
  stacked := spie
  level := spp
  enable_bit := ⟨1, rfl⟩
  stacked_ne := by decide
  enable_stacked := by decide
  enable_level := by decide
  stacked_level := by decide
  apart_mprv := by decide

/-- What is stacked. -/
def frame (k : Stack) : UInt64 := k.stacked ||| k.level

/-- Disables interrupts, and stacks whether they were enabled and the bits of a level. -/
def push (k : Stack) (value : UInt64) (s : Mstatus) : Mstatus :=
  ((s.assign k.stacked (s.test k.enable)).assign k.enable false).merge k.level value

/-- Enables interrupts as stacked, and leaves the fields as a trap from user level with interrupts
    enabled would. -/
def pop (k : Stack) (s : Mstatus) : Mstatus :=
  ((s.assign k.enable (s.test k.stacked)).assign k.stacked true).merge k.level 0

variable (k : Stack) (value : UInt64) (s : Mstatus)

lemma within_enable : Within (k.enable ||| k.frame) k.enable := Within.or_left _ _

lemma within_stacked : Within (k.enable ||| k.frame) k.stacked :=
  (Within.or_right _ _).mono (Within.or_left _ _)

lemma within_level : Within (k.enable ||| k.frame) k.level :=
  (Within.or_right _ _).mono (Within.or_right _ _)

lemma enable_ne : k.enable ≠ 0 := by
  obtain ⟨i, hi⟩ := k.enable_bit
  rw [Ne, ← UInt64.toNat_inj, hi]
  exact (Nat.two_pow_pos i).ne'

lemma test_enable_push : (k.push value s).test k.enable = false := by
  rw [push, (sameOutside_merge _ k.level value).test_eq (by rw [UInt64.and_comm, k.enable_level])]
  exact test_assign_false _ k.enable_ne

lemma test_stacked_push : (k.push value s).test k.stacked = s.test k.enable := by
  rw [push, (sameOutside_merge _ k.level value).test_eq (by rw [UInt64.and_comm, k.stacked_level]),
    (sameOutside_assign _ k.enable false).test_eq k.enable_stacked]
  exact test_assign_self s k.stacked_ne _

lemma and_level_push : (k.push value s).bits &&& k.level = value &&& k.level :=
  and_merge_self _ _ _

lemma sameOutside_push :
    SameOutside (k.enable ||| k.frame) s.bits (k.push value s).bits :=
  (((sameOutside_assign _ _ _).mono k.within_stacked).trans
    ((sameOutside_assign _ _ _).mono k.within_enable)).trans
    ((sameOutside_merge _ _ _).mono k.within_level)

lemma test_enable_pop : (k.pop s).test k.enable = s.test k.stacked := by
  rw [pop, (sameOutside_merge _ k.level 0).test_eq (by rw [UInt64.and_comm, k.enable_level]),
    (sameOutside_assign _ k.stacked true).test_eq (by rw [UInt64.and_comm, k.enable_stacked])]
  exact test_assign_self s k.enable_ne _

lemma test_stacked_pop : (k.pop s).test k.stacked = true := by
  rw [pop, (sameOutside_merge _ k.level 0).test_eq (by rw [UInt64.and_comm, k.stacked_level])]
  exact test_assign_true _ _

lemma and_level_pop : (k.pop s).bits &&& k.level = 0 := by
  rw [pop, and_merge_self, UInt64.zero_and]

lemma sameOutside_pop :
    SameOutside (k.enable ||| k.frame) s.bits (k.pop s).bits :=
  (((sameOutside_assign _ _ _).mono k.within_enable).trans
    ((sameOutside_assign _ _ _).mono k.within_stacked)).trans
    ((sameOutside_merge _ _ _).mono k.within_level)

/-- **A trap and its return change nothing but what is stacked.** -/
lemma pop_push : SameOutside k.frame s.bits (k.pop (k.push value s)).bits := by
  -- the enable is changed twice, and ends as it was
  have hall := (k.sameOutside_push value s).trans (k.sameOutside_pop (k.push value s))
  obtain ⟨i, hi⟩ := k.enable_bit
  refine hall.shrink ?_
  rw [and_eq_of_test _ hi, and_eq_of_test s hi, test_enable_pop, test_stacked_push]

end Stack

end Mstatus

namespace Hart

open Mstatus (Stack)

variable (h : Hart) (t : Trap)

/-! ## Entering handlers -/

lemma trapToMachine_eq : h.trapToMachine t =
    { registers := { h.registers with pc := handler h.csrs.mtvec t }
      csrs := { h.csrs with
        mepc := h.pc
        mcause := t.cause
        mtval := t.value
        mstatus := Stack.machine.push (h.privilege.bits <<< 11) h.csrs.mstatus }
      privilege := .machine
      reservation := none } := by
  simp only [trapToMachine, Mstatus.setMpp_eq_merge]
  rfl

lemma trapToSupervisor_eq : h.trapToSupervisor t =
    { registers := { h.registers with pc := handler h.csrs.stvec t }
      csrs := { h.csrs with
        sepc := h.pc
        scause := t.cause
        stval := t.value
        mstatus := Stack.supervisor.push
          (if h.privilege = .supervisor then Mstatus.spp else 0) h.csrs.mstatus }
      privilege := .supervisor
      reservation := none } := by
  simp only [trapToSupervisor, Mstatus.assign_eq_merge _ Mstatus.spp, decide_eq_true_eq]
  rfl

/-- The supervisor handles nothing that has happened to machine level. -/
lemma privilege_of_delegated (hd : h.delegated t = true) : h.privilege ≠ .machine := by
  simp only [delegated, Bool.and_eq_true, decide_eq_true_eq] at hd
  intro hmachine
  rw [hmachine] at hd
  exact absurd hd.1 (by decide)

/-- The handler of a trap is one of the supervisor or of machine level. -/
lemma trap_cases :
    (h.delegated t = true ∧ h.privilege ≠ .machine ∧ h.trap t = h.trapToSupervisor t ∧
      (h.trap t).privilege = .supervisor) ∨
    (h.delegated t = false ∧ h.trap t = h.trapToMachine t ∧ (h.trap t).privilege = .machine) := by
  rw [trap]
  cases hd : h.delegated t with
  | true => exact Or.inl ⟨rfl, h.privilege_of_delegated t hd, rfl, rfl⟩
  | false => exact Or.inr ⟨rfl, rfl, rfl⟩

/-! ## Leaving them -/

lemma mret_eq : h.mret =
    { h with
      registers := { h.registers with pc := h.csrs.mepc }
      csrs := { h.csrs with
        mstatus := if h.csrs.mstatus.mpp = .machine then Stack.machine.pop h.csrs.mstatus
          else (Stack.machine.pop h.csrs.mstatus).assign Mstatus.mprv false }
      privilege := h.csrs.mstatus.mpp } := by
  simp only [mret, Mstatus.setMpp_eq_merge]
  rfl

lemma sret_eq : h.sret =
    { h with
      registers := { h.registers with pc := h.csrs.sepc }
      csrs := { h.csrs with
        mstatus := (Stack.supervisor.pop h.csrs.mstatus).assign Mstatus.mprv false }
      privilege := if h.csrs.mstatus.test Mstatus.spp then .supervisor else .user } := by
  simp only [sret, Mstatus.assign_eq_merge _ Mstatus.spp, Bool.false_eq_true, if_false]
  rfl

end Hart

end Rv64Board
