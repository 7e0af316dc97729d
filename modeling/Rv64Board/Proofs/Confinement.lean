import Rv64Board.Board
import Rv64Board.Proofs.SystemState

/-!
# Privilege confinement

How the hart gets to a higher level.  No instruction does that by itself, so what is left are the
traps, and a trap leads to the start of a handler.

* `Hart.Entered` — the hart stands at the start of a handler, and the registers of the handler's
  level tell which trap it was and where it came from.
* `step_cases` — what one step is made of.
* `privilege_confinement` — **the lower levels are confined, and only a trap leads to a higher
  one.**
-/

namespace Rv64Board

/-! ## Entering a handler -/

namespace Hart

/-- The hart is about to execute the first instruction of the handler of a trap, which has diverted
    it from `epc`. -/
def Entered (t : Trap) (epc : UInt64) (h : Hart) : Prop :=
  (h.privilege = .supervisor ∧ h.pc = handler h.csrs.stvec t ∧
    h.csrs.sepc = epc ∧ h.csrs.scause = t.cause ∧ h.csrs.stval = t.value) ∨
  (h.privilege = .machine ∧ h.pc = handler h.csrs.mtvec t ∧
    h.csrs.mepc = epc ∧ h.csrs.mcause = t.cause ∧ h.csrs.mtval = t.value)

lemma entered_trap (h : Hart) (t : Trap) : (h.trap t).Entered t h.pc := by
  rw [trap]
  split
  · exact Or.inl ⟨rfl, rfl, rfl, rfl, rfl⟩
  · exact Or.inr ⟨rfl, rfl, rfl, rfl, rfl⟩

end Hart

namespace Board

/-- The hart once the cycle has been counted and the lines have been sampled. -/
def ticked (h : Hart) (lines : Lines) : Hart := sample (countCycle h) lines

/-- The end of a step touches counters and sampled registers only. -/
lemma ticked_eq (h : Hart) (lines : Lines) :
    ticked h lines = { h with csrs := { h.csrs with
      mcycle := (ticked h lines).csrs.mcycle
      hardwareMip := lines.mip
      time := lines.mtime } } := by
  rw [ticked, countCycle]
  split <;> rfl

/-- Counting an instruction touches its counter only. -/
lemma retire_eq (h : Hart) :
    retire h = { h with csrs := { h.csrs with minstret := (retire h).csrs.minstret } } := by
  rw [retire]
  split <;> rfl

lemma ticked_privilege (h : Hart) (lines : Lines) : (ticked h lines).privilege = h.privilege := by
  rw [ticked_eq]

lemma ticked_pc (h : Hart) (lines : Lines) : (ticked h lines).pc = h.pc := by
  rw [ticked_eq]
  rfl

lemma retire_privilege (h : Hart) : (retire h).privilege = h.privilege := by
  rw [retire_eq]

lemma retire_pc (h : Hart) : (retire h).pc = h.pc := by
  rw [retire_eq]
  rfl

lemma entered_ticked {t : Trap} {epc : UInt64} {h : Hart} (he : h.Entered t epc) (lines : Lines) :
    (ticked h lines).Entered t epc := by
  rw [ticked_eq]
  exact he

/-! ## The parts of a step -/

lemma executeNext_error {b b' : Board} {e : Exception} (hx : executeNext b = .error e b') :
    b'.hart = b.hart := by
  unfold executeNext at hx
  rw [getHart_bind] at hx
  obtain hf | ⟨f, t, hf, hx⟩ := bind_eq_error hx
  · rw [(onBus_eq_error.mp hf).2]
  obtain ⟨_, ht⟩ := onBus_eq_ok.mp hf
  obtain hexec | ⟨_, u, _, hpure⟩ := bind_eq_error hx
  · rw [(execute_error hexec).1, ht]
  · cases hpure

/-- An instruction that completes has been fetched and executed. -/
lemma executeNext_fetched {b b' : Board} {i : Instruction} (hx : executeNext b = .ok i b') :
    ∃ f bus, b.hart.fetch b.bus = .ok f bus ∧ f.instruction = i ∧
      execute i f.raw f.len { b with bus := bus } = .ok () b' := by
  unfold executeNext at hx
  rw [getHart_bind] at hx
  obtain ⟨f, t, hf, hx⟩ := bind_eq_ok hx
  obtain ⟨hf, ht⟩ := onBus_eq_ok.mp hf
  obtain ⟨_, u, hexec, hpure⟩ := bind_eq_ok hx
  cases hpure
  rw [ht] at hexec
  exact ⟨f, t.bus, hf, rfl, hexec⟩

lemma executeNext_ok {b b' : Board} {i : Instruction} (hx : executeNext b = .ok i b') :
    ∃ raw len b₀, b₀.hart = b.hart ∧ execute i raw len b₀ = .ok () b' := by
  obtain ⟨f, bus, _, _, hexec⟩ := executeNext_fetched hx
  exact ⟨f.raw, f.len, { b with bus := bus }, rfl, hexec⟩

/-- After the instruction the cycle ends, and an interrupt may be taken if there was no trap yet. -/
lemma finishStep_hart (trapped : Bool) (b : Board) :
    (finishStep trapped b).2.hart = ticked b.hart (finishStep trapped b).2.lines ∨
    trapped = false ∧
      (finishStep trapped b).2.hart = interrupt (ticked b.hart (finishStep trapped b).2.lines) := by
  obtain ⟨hart, bus, cycles, lines⟩ := b
  simp only [finishStep]
  split
  · exact Or.inl rfl
  · cases trapped with
    | true => exact Or.inl rfl
    | false => exact Or.inr ⟨rfl, rfl⟩

/-- **A step is an exception and its trap, or an instruction and perhaps an interrupt.** -/
lemma step_cases (b : Board) :
    (∃ e b₁, executeNext b = .error e b₁ ∧
      b.step.2.hart = ticked (b.hart.trap (.exception e)) b.step.2.lines) ∨
    (∃ i b₁, executeNext b = .ok i b₁ ∧
      (b.step.2.hart = retire b₁.hart ∨
        b.step.2.hart = ticked (retire b₁.hart) b.step.2.lines ∨
        ∃ j, (ticked (retire b₁.hart) b.step.2.lines).csrs.pendingInterrupt? b₁.hart.privilege =
            some j ∧
          b.step.2.hart = (ticked (retire b₁.hart) b.step.2.lines).trap (.interrupt j))) := by
  cases hx : executeNext b with
  | error e b₁ =>
      left
      refine ⟨e, b₁, rfl, ?_⟩
      have hstep : b.step = finishStep true (b₁.updateHart fun h => h.trap (.exception e)) := by
        simp only [step, hx]
      rw [hstep, ← executeNext_error hx]
      rcases finishStep_hart true (b₁.updateHart fun h => h.trap (.exception e)) with
        hhart | ⟨hfalse, _⟩
      · exact hhart
      · cases hfalse
  | ok i b₁ =>
      right
      refine ⟨i, b₁, rfl, ?_⟩
      have hstep : b.step =
          if stuck i b.hart.pc (retire b₁.hart) then
            (.halted 0, (b₁.updateHart retire).note (.stuck b.hart.pc))
          else finishStep false (b₁.updateHart retire) := by
        simp only [step, hx]
        rfl
      rw [hstep]
      split
      · -- a jump to itself ends the run before the cycle is counted
        exact Or.inl rfl
      · right
        rcases finishStep_hart false (b₁.updateHart retire) with hhart | ⟨_, hhart⟩
        · exact Or.inl hhart
        · rw [hhart, interrupt, ticked_privilege]
          rw [show (b₁.updateHart retire).hart = retire b₁.hart from rfl, retire_privilege]
          split
          · next j hj => exact Or.inr ⟨j, hj, rfl⟩
          · exact Or.inl rfl

/-- No instruction leads to a higher level. -/
lemma executeNext_privilege {b b₁ : Board} {i : Instruction} (hx : executeNext b = .ok i b₁) :
    ¬b.hart.privilege < b₁.hart.privilege := by
  obtain ⟨raw, len, b₀, hhart, hexec⟩ := executeNext_ok hx
  rw [← hhart]
  cases hlevel : b₀.hart.privilege with
  | user =>
      rw [(execute_user hexec hlevel).privilege, hlevel]
      decide
  | supervisor =>
      rcases (execute_supervisor hexec hlevel).1 with h | h <;> rw [h] <;> decide
  | machine => cases b₁.hart.privilege <;> decide

/-! ## Confinement -/

/-- **Privilege confinement.**  An instruction of the user changes neither the CSR file nor the
    level.  One of the supervisor stays at that level or returns to the user, and what it does to
    the file is confined.  If a step leads to a higher level, then it has entered the handler of a
    trap there: of the exception that the instruction raised, or of an interrupt that was pending
    after it. -/
theorem privilege_confinement (b : Board) :
    (∀ i raw len b', execute i raw len b = .ok () b' →
      (b.hart.privilege = .user → b'.hart.csrs = b.hart.csrs ∧ b'.hart.privilege = .user) ∧
      (b.hart.privilege = .supervisor →
        (b'.hart.privilege = .supervisor ∨ b'.hart.privilege = .user) ∧
          CsrFile.Confined b.hart.csrs b'.hart.csrs)) ∧
    (b.hart.privilege < b.step.2.hart.privilege →
      ∃ t epc, b.step.2.hart.Entered t epc ∧
        ((∃ e b₁, executeNext b = .error e b₁ ∧ t = .exception e ∧ epc = b.hart.pc) ∨
        (∃ i b₁ j, executeNext b = .ok i b₁ ∧ t = .interrupt j ∧ epc = b₁.hart.pc ∧
          (ticked (retire b₁.hart) b.step.2.lines).csrs.pendingInterrupt? b₁.hart.privilege =
            some j))) := by
  refine ⟨fun i raw len b' hx => ⟨fun huser => ?_, execute_supervisor hx⟩, fun hhigher => ?_⟩
  · have hsame := execute_user hx huser
    exact ⟨hsame.csrs, hsame.privilege.trans huser⟩
  · rcases step_cases b with ⟨e, b₁, hx, hhart⟩ | ⟨i, b₁, hx, hhart | hhart | ⟨j, hj, hhart⟩⟩
    · refine ⟨.exception e, b.hart.pc, ?_, Or.inl ⟨e, b₁, hx, rfl, rfl⟩⟩
      rw [hhart]
      exact entered_ticked (b.hart.entered_trap _) _
    · rw [hhart, retire_privilege] at hhigher
      exact absurd hhigher (executeNext_privilege hx)
    · rw [hhart, ticked_privilege, retire_privilege] at hhigher
      exact absurd hhigher (executeNext_privilege hx)
    · refine ⟨.interrupt j, b₁.hart.pc, ?_, Or.inr ⟨i, b₁, j, hx, rfl, rfl, hj⟩⟩
      have hentered := (ticked (retire b₁.hart) b.step.2.lines).entered_trap (.interrupt j)
      rw [ticked_pc, retire_pc] at hentered
      rw [hhart]
      exact hentered

/-- A board at user level, about to execute an environment call. -/
def calling : Board where
  hart := { Hart.atReset 0x80000000 with
    privilege := .user
    csrs := { CsrFile.atReset with mtvec := 0x80000100 } }
  bus := Bus.ofMemory ((Memory.zeroed 0x80000000 0x1000).store 0x80000000 .word 0x73)
  cycles := 0
  lines := Lines.idle

/-- The call leads to machine level, and so it has entered a handler. -/
theorem calling_enters_handler :
    calling.step.2.hart.privilege = .machine ∧ calling.step.2.hart.pc = 0x80000100 ∧
      ∃ t epc, calling.step.2.hart.Entered t epc := by
  have hmachine : calling.step.2.hart.privilege = .machine := rfl
  obtain ⟨t, epc, hentered, _⟩ := (privilege_confinement calling).2 (by rw [hmachine]; decide)
  exact ⟨hmachine, rfl, t, epc, hentered⟩

end Board

end Rv64Board
