import Rv64Board.Proofs.BitSets
import Rv64Board.Proofs.TrapStack

/-!
# Which interrupt is taken

Several interrupts may be pending at once.  One is taken if it is enabled and its level is open to
interrupts.

* `Interrupt.In` — an interrupt is in a set, as the registers hold them.
* `Interrupt.rank` — the order among the interrupts of a level.  `highest?_eq_some` and
  `highest?_eq_none` say that the first of a set is found.
* `CsrFile.levelOf`, `CsrFile.Opens` — the level that takes an interrupt, and whether the hart lets
  that level interrupt it.  `CsrFile.Accepts`, `CsrFile.Eligible` — the interrupts that would be
  taken, and those that could be taken now.
* `CsrFile.Precedes` — machine level comes before the supervisor, then `rank` decides.
* `pendingInterrupt?_eq_some`, `pendingInterrupt?_eq_none_iff` — **the interrupt that is taken is
  the first of the eligible ones.**
* `not_opens_trap` — **the handler that it enters is not interrupted by its own level.**
* `CsrFile.signalled` — the same file with other interrupts pending.  Where interrupts are
  impossible none is ever taken (`pendingInterrupt?_signalled`), and elsewhere a device can bring
  one about (`exists_pendingInterrupt?`).
-/

namespace Rv64Board

namespace Interrupt

/-! ## Sets of interrupts -/

lemma code_lt (i : Interrupt) : i.code.toNat < 64 := by cases i <;> decide

/-- The bit of an interrupt in the registers. -/
def bit (i : Interrupt) : Fin 64 := ⟨i.code.toNat, i.code_lt⟩

/-- An interrupt is in a set. -/
abbrev In (i : Interrupt) (set : UInt64) : Prop := Bits.In i.bit set

variable {i j : Interrupt} {a b : UInt64}

lemma in_iff : i.In a ↔ (a &&& i.mask != 0) = true := by
  rw [Sv39.flag_eq_testBit a i.mask i.code.toNat (by cases i <;> rfl)]
  rfl

lemma in_iff_shift : i.In a ↔ ((a >>> i.code) &&& 1 != 0) = true := by
  rw [Sv39.flag_eq_testBit _ 1 0 rfl, UInt64.toNat_shiftRight, Nat.mod_eq_of_lt i.code_lt,
    Nat.testBit_shiftRight, Nat.add_zero]
  rfl

lemma in_mask (i : Interrupt) : i.In i.mask := by cases i <;> decide

/-- A set of interrupts that is not empty has one of the six. -/
lemma exists_in (hset : Within CsrFile.allInterrupts a) (hne : a ≠ 0) :
    ∃ i : Interrupt, i.In a := by
  have hcodes : ∀ k : Fin 64, CsrFile.allInterrupts.toBitVec[k.val] = true →
      ∃ i ∈ byPriority, i.code.toNat = k.val := by decide
  by_contra hnone
  refine hne (UInt64.toBitVec_inj.mp (BitVec.eq_of_getElem_eq fun k hk => ?_))
  cases hall : CsrFile.allInterrupts.toBitVec[k] with
  | false => simpa using Within.iff_bits.mp hset k hk hall
  | true =>
      obtain ⟨i, _, hcode⟩ := hcodes ⟨k, hk⟩ hall
      have hout : ¬a.toBitVec.getLsbD i.code.toNat = true := fun hin => hnone ⟨i, hin⟩
      rw [hcode, Bool.not_eq_true] at hout
      simpa [BitVec.getLsbD_eq_getElem hk] using hout

/-! ## The first of a set -/

/-- The place of an interrupt among those of its level. -/
def rank : Interrupt → Nat
  | .machineExternal => 0
  | .machineSoftware => 1
  | .machineTimer => 2
  | .supervisorExternal => 3
  | .supervisorSoftware => 4
  | .supervisorTimer => 5

lemma rank_injective : Function.Injective rank := by
  intro i j hrank
  cases i <;> cases j <;> first | rfl | cases hrank

lemma mem_byPriority (i : Interrupt) : i ∈ byPriority := by cases i <;> decide

lemma pairwise_byPriority : byPriority.Pairwise fun i j => i.rank < j.rank := by decide

lemma highest?_eq_none : highest? a = none ↔ ∀ i : Interrupt, ¬i.In a := by
  rw [highest?, List.find?_eq_none]
  simp only [in_iff]
  exact ⟨fun h i => h i i.mem_byPriority, fun h i _ => h i⟩

lemma in_of_highest? (hi : highest? a = some i) : i.In a :=
  in_iff.mpr (List.find?_some (p := fun i : Interrupt => a &&& i.mask != 0) hi)

lemma highest?_le (hi : highest? a = some i) (hj : j.In a) : i.rank ≤ j.rank := by
  obtain ⟨_, before, after, hsplit, hbefore⟩ := List.find?_eq_some_iff_append.mp hi
  have hsorted := pairwise_byPriority
  have hmem := j.mem_byPriority
  rw [hsplit] at hsorted hmem
  -- what stands before the one that was found is not in the set, what stands after it is higher
  rcases List.mem_append.mp hmem with hearlier | hlater
  · have hout := hbefore j hearlier
    rw [in_iff.mp hj] at hout
    cases hout
  · rcases List.mem_cons.mp hlater with rfl | hlater
    · exact Nat.le_refl _
    · exact Nat.le_of_lt ((List.pairwise_cons.mp (List.pairwise_append.mp hsorted).2.1).1 j hlater)

/-- **The first of a set is found.** -/
lemma highest?_eq_some :
    highest? a = some i ↔ i.In a ∧ ∀ j : Interrupt, j.In a → ¬j.rank < i.rank := by
  constructor
  · intro hi
    exact ⟨in_of_highest? hi, fun j hj => Nat.not_lt.mpr (highest?_le hi hj)⟩
  · rintro ⟨hin, hfirst⟩
    cases hfound : highest? a with
    | none => exact absurd hin (highest?_eq_none.mp hfound i)
    | some k =>
        have hk := in_of_highest? hfound
        have hrank : k.rank = i.rank :=
          Nat.le_antisymm (highest?_le hfound hin) (Nat.not_lt.mp (hfirst k hk))
        rw [rank_injective hrank]

end Interrupt

namespace CsrFile

open Bits (in_and in_ite in_not in_or not_in_zero)

/-! ## Eligible interrupts -/

/-- The level that takes an interrupt. -/
def levelOf (f : CsrFile) (i : Interrupt) : Privilege :=
  if i.In f.mideleg then .supervisor else .machine

/-- At level `p`, the hart lets itself be interrupted by another level, or by the same. -/
def Opens (f : CsrFile) (p : Privilege) : Privilege → Prop
  | .machine => p < .machine ∨ f.mstatus.test Mstatus.mie = true
  | .supervisor => p = .user ∨ p = .supervisor ∧ f.mstatus.test Mstatus.sie = true
  | .user => False

/-- At level `p`, the hart would take an interrupt. -/
structure Accepts (f : CsrFile) (p : Privilege) (i : Interrupt) : Prop where
  enabled : i.In f.mie
  opens : f.Opens p (f.levelOf i)

/-- At level `p`, the hart could take an interrupt now. -/
structure Eligible (f : CsrFile) (p : Privilege) (i : Interrupt) : Prop where
  pending : i.In f.pending
  accepted : f.Accepts p i

/-- One interrupt comes before another: machine level before the supervisor, then by rank. -/
def Precedes (f : CsrFile) (j i : Interrupt) : Prop :=
  (f.levelOf j = .machine ∧ f.levelOf i = .supervisor) ∨
    (f.levelOf j = f.levelOf i ∧ j.rank < i.rank)

variable {f : CsrFile} {p : Privilege} {i j : Interrupt}

lemma levelOf_eq_machine : f.levelOf i = .machine ↔ ¬i.In f.mideleg := by
  rw [levelOf]
  split <;> simp_all

lemma levelOf_eq_supervisor : f.levelOf i = .supervisor ↔ i.In f.mideleg := by
  rw [levelOf]
  split <;> simp_all

lemma lt_supervisor_iff : p < .supervisor ↔ p = .user := by
  cases p <;> decide

/-- The interrupts that machine level would take. -/
lemma in_machineEnabled :
    i.In (f.machineEnabled p) ↔ f.Accepts p i ∧ f.levelOf i = .machine := by
  simp only [machineEnabled, in_ite, in_and, in_not, ← levelOf_eq_machine]
  constructor
  · rintro ⟨hopens, henabled, hlevel⟩
    exact ⟨⟨henabled, hlevel ▸ hopens⟩, hlevel⟩
  · rintro ⟨⟨henabled, hopens⟩, hlevel⟩
    rw [hlevel] at hopens
    exact ⟨hopens, henabled, hlevel⟩

/-- The interrupts that the supervisor would take. -/
lemma in_supervisorEnabled :
    i.In (f.supervisorEnabled p) ↔ f.Accepts p i ∧ f.levelOf i = .supervisor := by
  simp only [supervisorEnabled, in_ite, in_and, ← levelOf_eq_supervisor, lt_supervisor_iff]
  constructor
  · rintro ⟨hopens, henabled, hlevel⟩
    exact ⟨⟨henabled, hlevel ▸ hopens⟩, hlevel⟩
  · rintro ⟨⟨henabled, hopens⟩, hlevel⟩
    rw [hlevel] at hopens
    exact ⟨hopens, henabled, hlevel⟩

lemma in_pending_machine :
    i.In (f.pending &&& f.machineEnabled p) ↔ f.Eligible p i ∧ f.levelOf i = .machine := by
  simp only [in_and, in_machineEnabled]
  exact ⟨fun ⟨hp, ha, hl⟩ => ⟨⟨hp, ha⟩, hl⟩, fun ⟨⟨hp, ha⟩, hl⟩ => ⟨hp, ha, hl⟩⟩

lemma in_pending_supervisor :
    i.In (f.pending &&& f.supervisorEnabled p) ↔ f.Eligible p i ∧ f.levelOf i = .supervisor := by
  simp only [in_and, in_supervisorEnabled]
  exact ⟨fun ⟨hp, ha, hl⟩ => ⟨⟨hp, ha⟩, hl⟩, fun ⟨⟨hp, ha⟩, hl⟩ => ⟨hp, ha, hl⟩⟩

lemma levelOf_cases (f : CsrFile) (i : Interrupt) :
    f.levelOf i = .machine ∨ f.levelOf i = .supervisor := by
  rw [levelOf]
  split
  · exact Or.inr rfl
  · exact Or.inl rfl

lemma pendingInterrupt?_eq_none_iff : f.pendingInterrupt? p = none ↔ ∀ i, ¬f.Eligible p i := by
  rw [pendingInterrupt?, Option.orElse_eq_none, Interrupt.highest?_eq_none,
    Interrupt.highest?_eq_none]
  simp only [in_pending_machine, in_pending_supervisor]
  constructor
  · rintro ⟨hmachine, hsupervisor⟩ i hi
    rcases f.levelOf_cases i with hlevel | hlevel
    · exact hmachine i ⟨hi, hlevel⟩
    · exact hsupervisor i ⟨hi, hlevel⟩
  · intro h
    exact ⟨fun i hi => h i hi.1, fun i hi => h i hi.1⟩

/-- **The interrupt that is taken is the first of the eligible ones.** -/
lemma pendingInterrupt?_eq_some : f.pendingInterrupt? p = some i ↔
    f.Eligible p i ∧ ∀ j, f.Eligible p j → ¬f.Precedes j i := by
  rw [pendingInterrupt?, Option.orElse_eq_some, Interrupt.highest?_eq_none,
    Interrupt.highest?_eq_some, Interrupt.highest?_eq_some]
  simp only [in_pending_machine, in_pending_supervisor]
  constructor
  · rintro (⟨⟨hi, hlevel⟩, hfirst⟩ | ⟨hnone, ⟨hi, hlevel⟩, hfirst⟩)
    · refine ⟨hi, fun j hj => ?_⟩
      rintro (⟨_, hother⟩ | ⟨hsame, hrank⟩)
      · exact absurd (hlevel.symm.trans hother) (by decide)
      · exact hfirst j ⟨hj, hsame.trans hlevel⟩ hrank
    · refine ⟨hi, fun j hj => ?_⟩
      -- the supervisor has its turn only because machine level has nothing to take
      rintro (⟨hother, _⟩ | ⟨hsame, hrank⟩)
      · exact hnone j ⟨hj, hother⟩
      · exact hfirst j ⟨hj, hsame.trans hlevel⟩ hrank
  · rintro ⟨hi, hfirst⟩
    have hrank (j : Interrupt) (hj : f.Eligible p j) (hsame : f.levelOf j = f.levelOf i) :
        ¬j.rank < i.rank := fun hlt => hfirst j hj (Or.inr ⟨hsame, hlt⟩)
    rcases f.levelOf_cases i with hlevel | hlevel
    · exact Or.inl ⟨⟨hi, hlevel⟩, fun j hj => hrank j hj.1 (hj.2.trans hlevel.symm)⟩
    · exact Or.inr ⟨fun j hj => hfirst j hj.1 (Or.inl ⟨hj.2, hlevel⟩), ⟨hi, hlevel⟩,
        fun j hj => hrank j hj.1 (hj.2.trans hlevel.symm)⟩

/-! ## Interrupts to come -/

/-- The file with other interrupts pending, and with the timer elsewhere. -/
def signalled (f : CsrFile) (hardwareMip mip time stimecmp : UInt64) : CsrFile :=
  { f with hardwareMip := hardwareMip, mip := mip, time := time, stimecmp := stimecmp }

/-- **Where no interrupt is possible, none is ever taken.**  What is pending does not matter. -/
lemma pendingInterrupt?_signalled (h : f.interruptsPossible p = false)
    (hardwareMip mip time stimecmp : UInt64) :
    (f.signalled hardwareMip mip time stimecmp).pendingInterrupt? p = none := by
  have hzero : f.machineEnabled p = 0 ∧ f.supervisorEnabled p = 0 := by
    simpa [interruptsPossible] using h
  have hmachine : (f.signalled hardwareMip mip time stimecmp).machineEnabled p = 0 := hzero.1
  have hsupervisor : (f.signalled hardwareMip mip time stimecmp).supervisorEnabled p = 0 := hzero.2
  have hnone : Interrupt.highest? 0 = none :=
    Interrupt.highest?_eq_none.mpr fun _ => not_in_zero
  rw [pendingInterrupt?, hmachine, hsupervisor, UInt64.and_zero, hnone]
  rfl

lemma within_machineEnabled : Within f.mie (f.machineEnabled p) := by
  rw [machineEnabled]
  split
  · rw [UInt64.and_comm]
    exact Within.masked _ _
  · exact Within.zero _

lemma within_supervisorEnabled : Within f.mie (f.supervisorEnabled p) := by
  rw [supervisorEnabled]
  split
  · rw [UInt64.and_comm]
    exact Within.masked _ _
  · exact Within.zero _

/-- Interrupts are possible if one would be taken. -/
lemma interruptsPossible_iff (hmie : Within allInterrupts f.mie) :
    f.interruptsPossible p = true ↔ ∃ i, f.Accepts p i := by
  rw [interruptsPossible, bne_iff_ne]
  constructor
  · intro hne
    obtain ⟨i, hi⟩ := Interrupt.exists_in
      (hmie.mono (within_machineEnabled.or within_supervisorEnabled)) hne
    simp only [in_or, in_machineEnabled, in_supervisorEnabled] at hi
    exact ⟨i, hi.elim And.left And.left⟩
  · rintro ⟨i, hi⟩ hzero
    have hin : i.In (f.machineEnabled p ||| f.supervisorEnabled p) := by
      simp only [in_or, in_machineEnabled, in_supervisorEnabled]
      exact (f.levelOf_cases i).imp (⟨hi, ·⟩) (⟨hi, ·⟩)
    rw [hzero] at hin
    exact not_in_zero hin

/-- **Where an interrupt is possible, a device can bring one about.** -/
lemma exists_pendingInterrupt? (hmie : Within allInterrupts f.mie)
    (h : f.interruptsPossible p = true) :
    ∃ lines, ({ f with hardwareMip := lines }.pendingInterrupt? p).isSome = true := by
  obtain ⟨i, henabled, hopens⟩ := (interruptsPossible_iff hmie).mp h
  refine ⟨i.mask, Option.isSome_iff_ne_none.mpr fun hnone => ?_⟩
  refine pendingInterrupt?_eq_none_iff.mp hnone i ⟨?_, henabled, hopens⟩
  exact in_or.mpr (Or.inl (in_or.mpr (Or.inr i.in_mask)))

end CsrFile

namespace Hart

open CsrFile
open Mstatus (Stack)

/-! ## Delivery -/

variable {h : Hart} {i : Interrupt}

lemma delegated_interrupt (h : Hart) (i : Interrupt) :
    h.delegated (.interrupt i) = true ↔
      h.privilege ≤ .supervisor ∧ h.csrs.levelOf i = .supervisor := by
  rw [delegated, Bool.and_eq_true, decide_eq_true_eq, levelOf_eq_supervisor, Interrupt.in_iff_shift]
  rfl

/-- An interrupt that the hart accepts is taken to its level, which is none below the present. -/
lemma trap_of_accepts (ha : h.csrs.Accepts h.privilege i) :
    (h.trap (.interrupt i)).privilege = h.csrs.levelOf i ∧ h.privilege ≤ h.csrs.levelOf i := by
  have hopens := ha.opens
  rcases h.csrs.levelOf_cases i with hlevel | hlevel
  · rw [hlevel]
    constructor
    · rcases h.trap_cases (.interrupt i) with ⟨hdelegated, _⟩ | ⟨_, _, hmachine⟩
      · have hsupervisor := ((delegated_interrupt h i).mp hdelegated).2
        exact absurd (hlevel.symm.trans hsupervisor) (by decide)
      · exact hmachine
    · cases h.privilege <;> decide
  · rw [hlevel] at hopens ⊢
    have hle : h.privilege ≤ .supervisor := by
      rcases hopens with hp | ⟨hp, _⟩ <;> rw [hp] <;> decide
    have hdelegated := (delegated_interrupt h i).mpr ⟨hle, hlevel⟩
    rw [trap, hdelegated, if_pos rfl]
    exact ⟨rfl, hle⟩

/-- **A handler is not interrupted by its own level** before it says so. -/
lemma not_opens_trap (h : Hart) (t : Trap) :
    ¬(h.trap t).csrs.Opens (h.trap t).privilege (h.trap t).privilege := by
  rcases h.trap_cases t with ⟨_, _, htrap, _⟩ | ⟨_, htrap, _⟩
  · rw [htrap, trapToSupervisor_eq]
    rintro (huser | ⟨_, hsie⟩)
    · cases huser
    · exact Bool.false_ne_true ((Stack.supervisor.test_enable_push _ _).symm.trans hsie)
  · rw [htrap, trapToMachine_eq]
    rintro (hlower | hmie)
    · exact absurd hlower (show ¬Privilege.machine < .machine by decide)
    · exact Bool.false_ne_true ((Stack.machine.test_enable_push _ _).symm.trans hmie)

/-- Only machine level can interrupt a handler that has just been entered, and only one of the
    supervisor. -/
lemma preempts {t : Trap} {j : Interrupt}
    (hopens : (h.trap t).csrs.Opens (h.trap t).privilege ((h.trap t).csrs.levelOf j)) :
    (h.trap t).privilege = .supervisor ∧ (h.trap t).csrs.levelOf j = .machine := by
  have hclosed := not_opens_trap h t
  rcases h.trap_cases t with ⟨_, _, _, hp⟩ | ⟨_, _, hp⟩ <;>
    rcases (h.trap t).csrs.levelOf_cases j with hlevel | hlevel <;>
    rw [hp] at hopens hclosed <;> rw [hlevel] at hopens
  · exact ⟨hp, hlevel⟩
  · exact absurd hopens hclosed
  · exact absurd hopens hclosed
  · exact absurd hopens (by simp [Opens])

/-- **Interrupts are selected by level and rank, and are delivered to their level.**  The interrupt
    that is taken is the first of those that are pending, enabled and open, and its handler is
    closed to its own level.  The hart can tell beforehand whether it may be interrupted at all. -/
theorem interrupt_selection (f : CsrFile) (p : Privilege) :
    (∀ i, f.pendingInterrupt? p = some i ↔
      f.Eligible p i ∧ ∀ j, f.Eligible p j → ¬f.Precedes j i) ∧
    (f.pendingInterrupt? p = none ↔ ∀ i, ¬f.Eligible p i) ∧
    (∀ (h h' : Hart) (i : Interrupt), h.csrs = f → h.privilege = p →
      f.pendingInterrupt? p = some i → h' = h.trap (.interrupt i) →
        h'.privilege = f.levelOf i ∧ p ≤ h'.privilege ∧
        (∀ j, h'.csrs.levelOf j = h'.privilege → ¬h'.csrs.Eligible h'.privilege j) ∧
        ∀ hardwareMip mip time stimecmp j,
          (h'.csrs.signalled hardwareMip mip time stimecmp).pendingInterrupt? h'.privilege =
            some j →
          h'.privilege = .supervisor ∧ h'.csrs.levelOf j = .machine) ∧
    (f.interruptsPossible p = false → ∀ hardwareMip mip time stimecmp,
      (f.signalled hardwareMip mip time stimecmp).pendingInterrupt? p = none) ∧
    (f.interruptsPossible p = true → Within allInterrupts f.mie →
      ∃ lines, ({ f with hardwareMip := lines }.pendingInterrupt? p).isSome = true) := by
  refine ⟨fun i => pendingInterrupt?_eq_some, pendingInterrupt?_eq_none_iff, ?_,
    pendingInterrupt?_signalled, fun hpossible hmie => exists_pendingInterrupt? hmie hpossible⟩
  rintro h _ i rfl rfl hi rfl
  have haccepts := (pendingInterrupt?_eq_some.mp hi).1.accepted
  obtain ⟨hlevel, hle⟩ := trap_of_accepts haccepts
  refine ⟨hlevel, hlevel ▸ hle, fun j hj hopen => ?_, fun _ _ _ _ j hj => ?_⟩
  · -- the enable of the entered level is off, so what is pending does not matter
    have hopens := hopen.accepted.opens
    rw [hj] at hopens
    exact not_opens_trap h _ hopens
  · exact preempts (pendingInterrupt?_eq_some.mp hj).1.accepted.opens

/-- A hart of the supervisor with three interrupts pending, of which the one of highest rank is
    delegated. -/
def crowded : Hart :=
  { atReset 0x80001000 with
    privilege := .supervisor
    csrs := { CsrFile.atReset with
      mstatus := ⟨Mstatus.sie⟩
      mideleg := Interrupt.supervisorExternal.mask
      mie := CsrFile.allInterrupts
      hardwareMip := Interrupt.supervisorExternal.mask
      mip := Interrupt.supervisorSoftware.mask ||| Interrupt.supervisorTimer.mask } }

/-- Machine level comes first, whatever the rank of what waits for the supervisor. -/
theorem crowded_takes_software :
    crowded.csrs.pendingInterrupt? crowded.privilege = some .supervisorSoftware ∧
      (crowded.trap (.interrupt .supervisorSoftware)).privilege = .machine ∧
      crowded.csrs.Eligible .supervisor .supervisorExternal ∧
      ¬crowded.csrs.Precedes .supervisorExternal .supervisorSoftware := by
  have hselected := interrupt_selection crowded.csrs crowded.privilege
  obtain ⟨hsome, _, hdelivered, _⟩ := hselected
  have htaken : crowded.csrs.pendingInterrupt? crowded.privilege = some .supervisorSoftware := by
    decide
  have hexternal : crowded.csrs.Eligible .supervisor .supervisorExternal :=
    ⟨by decide, by decide, Or.inr ⟨rfl, by decide⟩⟩
  refine ⟨htaken, ?_, hexternal, ((hsome _).mp htaken).2 _ hexternal⟩
  exact (hdelivered crowded _ _ rfl rfl htaken rfl).1

end Hart

end Rv64Board
