import Rv64Board.Proofs.InstructionRows
import Rv64Board.Proofs.InterruptSelection

/-!
# Jumps to themselves

A board halts when an instruction has jumped to itself and no interrupt could be taken.  The rule
looks at one execution.  Whether the program would have stayed there is a question about all the
executions that would have followed.

* `Board.HaltsBySelfJump` — the board halts by this rule.
* `CsrFile.pendingInterrupt?_eq_none` — no interrupt will ever be taken, whatever becomes pending.
* `Instruction.KeepsTarget` — the instruction does not overwrite the register it jumps by, or what
  it writes there leads to the same address again.
* `Board.HaltsBySelfJump.fixed` — **an instruction that keeps its target leaves the board as it
  is,** so it does so any number of times.
* `Machine.forward_moves_on` — an instruction that does not keep its target: the board halts,
  although the program would have gone on.
-/

namespace Rv64Board

/-! ## Interrupts that cannot be taken -/

/-- **Where no interrupt is possible, none is ever taken.**  What devices drive does not matter. -/
lemma CsrFile.pendingInterrupt?_eq_none {f : CsrFile} {level : Privilege}
    (h : f.interruptsPossible level = false) (mip time stimecmp : UInt64) :
    CsrFile.pendingInterrupt? { f with hardwareMip := mip, time := time, stimecmp := stimecmp }
      level = none :=
  pendingInterrupt?_signalled h mip f.mip time stimecmp

/-! ## The same jump again -/

/-- A jump at `pc` does not overwrite the register it jumps by, or what it writes there leads to the
    same address again. -/
def Instruction.KeepsTarget (pc len : UInt64) : Instruction → Prop
  | .jalr rd rs1 offset =>
    rs1 = rd → rd ≠ Reg.zero → (pc + len + UInt64.ofInt offset) &&& ~~~1 = pc
  | _ => True

lemma Registers.set_get (rs : Registers) {r : Reg} {value : UInt64}
    (h : r ≠ Reg.zero → rs.get r = value) : rs.set r value = rs := by
  rw [set]
  split
  · rfl
  · next hr =>
    have hvalue := h hr
    rw [get, if_neg hr] at hvalue
    rw [← hvalue]
    simp

namespace Board

variable {b b' : Board} {f : Hart.Fetched}

/-- The step of a board halts because the instruction `f` has jumped to itself, and leaves `b'`. -/
def HaltsBySelfJump (b : Board) (f : Hart.Fetched) (b' : Board) : Prop :=
  ∃ bus b₁, b.hart.fetch b.bus = .ok f bus ∧
    execute f.instruction f.raw f.len { b with bus := bus } = .ok () b₁ ∧
    stuck f.instruction b.hart.pc (retire b₁.hart) = true ∧
    b' = (b₁.updateHart retire).note (.stuck b.hart.pc)

namespace HaltsBySelfJump

lemma step_eq (h : HaltsBySelfJump b f b') : b.step = (.halted 0, b') := by
  obtain ⟨bus, b₁, hfetch, hexec, hstuck, rfl⟩ := h
  have hfetched : onBus b.hart.fetch b = .ok f { b with bus := bus } :=
    onBus_eq_ok.mpr ⟨hfetch, rfl⟩
  have hnext : executeNext b = .ok f.instruction b₁ := by
    unfold executeNext
    rw [getHart_bind, bind_run_ok hfetched, bind_run_ok hexec]
    rfl
  have hhart : (b₁.updateHart retire).hart = retire b₁.hart := rfl
  simp only [step, hnext, hhart, hstuck, if_true]

lemma transfer (h : HaltsBySelfJump b f b') : f.instruction.isControlTransfer = true := by
  obtain ⟨_, _, _, _, hstuck, _⟩ := h
  simp only [stuck, Bool.and_eq_true] at hstuck
  exact hstuck.1.1

lemma interruptsPossible (h : HaltsBySelfJump b f b') :
    b'.hart.csrs.interruptsPossible b'.hart.privilege = false := by
  obtain ⟨_, _, _, _, hstuck, rfl⟩ := h
  simp only [stuck, Bool.and_eq_true, Bool.not_eq_true'] at hstuck
  exact hstuck.2

/-- The jump has led to itself, and has left its return address. -/
lemma registers (h : HaltsBySelfJump b f b') :
    f.instruction.successor b.hart f.len = b.hart.pc ∧
      b'.hart.registers =
        (b.proceed f.instruction.link (b.hart.pc + f.len) b.hart.pc).hart.registers := by
  have hi := h.transfer
  obtain ⟨bus, b₁, _, hexec, hstuck, rfl⟩ := h
  rw [execute_transfer _ _ _ hi] at hexec
  cases hexec
  simp only [stuck, Bool.and_eq_true, beq_iff_eq, retire_pc, pc_proceed] at hstuck
  have hhere : f.instruction.successor b.hart f.len = b.hart.pc := hstuck.1.2
  have hretired (h : Hart) : (retire h).registers = h.registers := by rw [retire_eq]
  refine ⟨hhere, (hretired _).trans ?_⟩
  exact congrArg (fun target =>
    (b.proceed f.instruction.link (b.hart.pc + f.len) target).hart.registers) hhere

lemma pc (h : HaltsBySelfJump b f b') : b'.hart.pc = b.hart.pc := by
  rw [Hart.pc, h.registers.2]
  rfl

lemma get (h : HaltsBySelfJump b f b') (r : Reg) : b'.hart.get r =
    if r = f.instruction.link ∧ f.instruction.link ≠ Reg.zero then b.hart.pc + f.len
    else b.hart.get r := by
  rw [← get_proceed _ _ b.hart.pc]
  exact congrArg (fun rs => rs.get r) h.registers.2

/-- **The next execution leads to the same address exactly if the instruction keeps its target.** -/
lemma successor_iff (h : HaltsBySelfJump b f b') :
    f.instruction.successor b'.hart f.len = b.hart.pc ↔
      f.instruction.KeepsTarget b.hart.pc f.len := by
  have hhere := h.registers.1
  have hi := h.transfer
  have hpc := h.pc
  have hget := h.get
  cases hf : f.instruction with
  | jal rd offset =>
      rw [hf] at hhere
      simp only [Instruction.successor, Instruction.KeepsTarget, hpc] at hhere ⊢
      exact iff_true_intro hhere
  | branch cond rs1 rs2 offset =>
      -- a branch leaves no return address, so every register is as it was
      have hsame (r : Reg) : b'.hart.get r = b.hart.get r := by
        rw [hget, hf, if_neg fun hzero => hzero.2 rfl]
      rw [hf] at hhere
      simp only [Instruction.successor, Instruction.KeepsTarget, hpc, hsame] at hhere ⊢
      exact iff_true_intro hhere
  | jalr rd rs1 offset =>
      rw [hf] at hhere
      simp only [Instruction.successor, Instruction.KeepsTarget, hget, hf, Instruction.link]
        at hhere ⊢
      by_cases hbase : rs1 = rd ∧ rd ≠ Reg.zero
      · rw [if_pos hbase]
        exact ⟨fun hagain _ _ => hagain, fun hkeeps => hkeeps hbase.1 hbase.2⟩
      · rw [if_neg hbase]
        exact iff_of_true hhere fun hsame hzero => absurd ⟨hsame, hzero⟩ hbase
  | _ =>
      rw [hf] at hi
      cases hi

/-- **An instruction that keeps its target leaves the board as it is.** -/
lemma fixed (h : HaltsBySelfJump b f b') (hkeeps : f.instruction.KeepsTarget b.hart.pc f.len) :
    execute f.instruction f.raw f.len b' = .ok () b' := by
  have hlink : f.instruction.link ≠ Reg.zero →
      b'.hart.registers.get f.instruction.link = b'.hart.pc + f.len := by
    intro hlink
    rw [h.pc]
    exact (h.get _).trans (if_pos ⟨rfl, hlink⟩)
  have htarget : f.instruction.successor b'.hart f.len = b'.hart.registers.pc :=
    (h.successor_iff.mpr hkeeps).trans h.pc.symm
  rw [execute_transfer _ _ _ h.transfer, htarget, proceed]
  simp only [updateHart, Hart.set, Hart.jump, Registers.set_get _ hlink]

end HaltsBySelfJump

/-- **When a board halts by the rule,** told from the board before the step. -/
lemma exists_haltsBySelfJump_iff : (∃ b', HaltsBySelfJump b f b') ↔
    (∃ bus, b.hart.fetch b.bus = .ok f bus) ∧ f.instruction.isControlTransfer = true ∧
      f.instruction.successor b.hart f.len = b.hart.pc ∧ b.hart.interruptsPossible = false := by
  constructor
  · rintro ⟨b', h⟩
    obtain ⟨bus, b₁, hfetch, hexec, hstuck, _⟩ := id h
    refine ⟨⟨bus, hfetch⟩, h.transfer, h.registers.1, ?_⟩
    rw [execute_transfer _ _ _ h.transfer] at hexec
    cases hexec
    simp only [stuck, Bool.and_eq_true, Bool.not_eq_true'] at hstuck
    rw [retire_eq] at hstuck
    exact hstuck.2
  · rintro ⟨⟨bus, hfetch⟩, hi, hhere, hquiet⟩
    refine ⟨_, bus, _, hfetch, execute_transfer _ _ _ hi, ?_, rfl⟩
    rw [stuck, hi, retire_pc, pc_proceed, retire_eq]
    simp only [Bool.true_and, Bool.and_eq_true, beq_iff_eq, Bool.not_eq_true']
    exact ⟨hhere, hquiet⟩

/-- The rule can be evaluated on a given board. -/
lemma exists_haltsBySelfJump
    (hfetch : ((b.hart.fetch.run' b.bus).map fun f => (f.instruction, f.raw, f.len)) =
      some (f.instruction, f.raw, f.len))
    (hrule : (f.instruction.isControlTransfer &&
      f.instruction.successor b.hart f.len == b.hart.pc && !b.hart.interruptsPossible) = true) :
    ∃ b', HaltsBySelfJump b f b' := by
  obtain ⟨⟨i, raw, len⟩, hrun, hf⟩ := Option.map_eq_some_iff.mp hfetch
  cases hf
  simp only [Bool.and_eq_true, beq_iff_eq, Bool.not_eq_true'] at hrule
  exact exists_haltsBySelfJump_iff.mpr ⟨run'_eq_some hrun, hrule.1.1, hrule.1.2, hrule.2⟩

/-! ## Any number of jumps -/

lemma executeRow_replicate (h : execute f.instruction f.raw f.len b = .ok () b) (n : Nat) :
    executeRow (List.replicate n f) b = .ok () b := by
  induction n with
  | zero => rfl
  | succ n ih => rw [List.replicate_succ, executeRow_cons _ h, ih]

/-- A jump or branch can be executed any number of times, and leaves the level and its registers
    alone. -/
lemma executeRow_transfer (hi : f.instruction.isControlTransfer = true) (n : Nat) (b : Board) :
    ∃ bₙ, executeRow (List.replicate n f) b = .ok () bₙ ∧ bₙ.hart.csrs = b.hart.csrs ∧
      bₙ.hart.privilege = b.hart.privilege := by
  induction n generalizing b with
  | zero => exact ⟨b, rfl, rfl, rfl⟩
  | succ n ih =>
      rw [List.replicate_succ, executeRow_cons _ (execute_transfer _ _ b hi)]
      exact ih _

/-- **What a jump to itself amounts to.**  When a board halts by the rule, the same instruction
    could be executed any number of times more, and no interrupt would be taken, whatever the lines
    of the devices, the timer and its comparator come to.  The program counter stays where it is
    exactly if the instruction keeps its target, and then nothing else changes either. -/
theorem self_jump_stays_iff (h : HaltsBySelfJump b f b') :
    b.step = (.halted 0, b') ∧ b'.hart.pc = b.hart.pc ∧
    (∀ n, ∃ bₙ, executeRow (List.replicate n f) b' = .ok () bₙ ∧
      ∀ mip time stimecmp, CsrFile.pendingInterrupt?
        { bₙ.hart.csrs with hardwareMip := mip, time := time, stimecmp := stimecmp }
        bₙ.hart.privilege = none) ∧
    ((∀ n bₙ, executeRow (List.replicate n f) b' = .ok () bₙ → bₙ.hart.pc = b.hart.pc) ↔
      f.instruction.KeepsTarget b.hart.pc f.len) ∧
    (f.instruction.KeepsTarget b.hart.pc f.len →
      ∀ n, executeRow (List.replicate n f) b' = .ok () b') := by
  have hstays (hkeeps : f.instruction.KeepsTarget b.hart.pc f.len) (n : Nat) :
      executeRow (List.replicate n f) b' = .ok () b' := executeRow_replicate (h.fixed hkeeps) n
  refine ⟨h.step_eq, h.pc, fun n => ?_, ⟨fun hall => ?_, fun hkeeps n bₙ hrun => ?_⟩, hstays⟩
  · obtain ⟨bₙ, hrun, hcsrs, hlevel⟩ := executeRow_transfer h.transfer n b'
    refine ⟨bₙ, hrun, fun mip time stimecmp => ?_⟩
    rw [hcsrs, hlevel]
    exact CsrFile.pendingInterrupt?_eq_none h.interruptsPossible mip time stimecmp
  · have honce := executeRow_cons [] (execute_transfer f.raw f.len b' h.transfer)
    exact h.successor_iff.mp (hall 1 _ honce)
  · rw [hstays hkeeps n] at hrun
    cases hrun
    exact h.pc

end Board

/-! ## Jumps by a register -/

namespace Machine

open Board

/-- A machine with a page of memory, about to execute the third of three instructions. -/
def aboutToJump (second third : Nat) : Machine :=
  (ofConfig { MachineConfig.default with ramSize := 0x1000 }).after
    [.load ([0x00000097, second, third].flatMap (LittleEndian.toBytes 4)), .runFor 2]

/-- A jump by a register to the address right behind it, less four.  It overwrites the register with
    what is already there. -/
def backward : Hart.Fetched := ⟨.jalr Reg.ra Reg.ra (-4), 0xFFC080E7, 4⟩

/-- The jump back stays where it is for ever. -/
theorem backward_stays : ∃ b',
    (aboutToJump 0x00C08093 0xFFC080E7).board.HaltsBySelfJump backward b' ∧
    ∀ n, executeRow (List.replicate n backward) b' = .ok () b' := by
  obtain ⟨b', h⟩ : ∃ b', (aboutToJump 0x00C08093 0xFFC080E7).board.HaltsBySelfJump backward b' :=
    exists_haltsBySelfJump (by decide +kernel) (by decide +kernel)
  have hpc : (aboutToJump 0x00C08093 0xFFC080E7).board.hart.pc = 0x80000008 := by decide +kernel
  refine ⟨b', h, (self_jump_stays_iff h).2.2.2.2 ?_⟩
  rw [hpc]
  intro _ _
  decide

/-- A jump by a register to the address in it. -/
def forward : Hart.Fetched := ⟨.jalr Reg.ra Reg.ra 0, 0x000080E7, 4⟩

/-- **A board may halt in a program that would have gone on.**  The jump has overwritten the address
    it jumped to with the next one, so it would not lead to itself a second time. -/
theorem forward_moves_on : ∃ b' b'',
    (aboutToJump 0x00808093 0x000080E7).board.HaltsBySelfJump forward b' ∧
    (aboutToJump 0x00808093 0x000080E7).board.step = (.halted 0, b') ∧
    b'.hart.pc = 0x80000008 ∧ executeRow [forward] b' = .ok () b'' ∧ b''.hart.pc = 0x8000000C := by
  obtain ⟨b', h⟩ : ∃ b', (aboutToJump 0x00808093 0x000080E7).board.HaltsBySelfJump forward b' :=
    exists_haltsBySelfJump (by decide +kernel) (by decide +kernel)
  have hpc : (aboutToJump 0x00808093 0x000080E7).board.hart.pc = 0x80000008 := by decide +kernel
  have hagain := executeRow_cons [] (execute_transfer forward.raw forward.len b' h.transfer)
  refine ⟨b', _, h, h.step_eq, h.pc.trans hpc, hagain, ?_⟩
  have hbase : b'.hart.get Reg.ra = 0x8000000C := by
    rw [h.get, hpc]
    rfl
  rw [pc_proceed, forward, Instruction.successor, hbase]
  decide

end Machine

end Rv64Board
