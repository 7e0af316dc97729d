import Rv64Board.Proofs.EvenPc

/-!
# Rows of instructions

Instructions executed one after the other, without fetching them.  Many instructions do no more than
write a register and move the program counter, and a row of such instructions is a computation on
the registers.

* `Board.executeRow` — the execution of a row.
* `Board.proceed` — a register written and the program counter moved, nothing else.
* `execute_lui`, `execute_opImm`, `execute_transfer` — **the instructions that proceed,** among them
  every jump and branch, whether taken or not.
-/

namespace Rv64Board

/-- An instruction as it is fetched from its own encoding. -/
def Instruction.whole (i : Instruction) : Hart.Fetched := ⟨i, i.encode, 4⟩

/-- The register that an instruction leaves its return address in; register zero if it leaves
    none. -/
def Instruction.link : Instruction → Reg
  | .jal rd _ | .jalr rd _ _ => rd
  | _ => Reg.zero

namespace Board

/-- Executes a row of instructions up to the first one that raises an exception. -/
def executeRow : List Hart.Fetched → EStateM Exception Board Unit
  | [] => pure ()
  | f :: row => do
    execute f.instruction f.raw f.len
    executeRow row

/-- The board with a register written and the program counter moved. -/
def proceed (rd : Reg) (value target : UInt64) (b : Board) : Board :=
  b.updateHart fun h => (h.set rd value).jump target

section Rows

variable {b b' : Board}

lemma executeRow_cons {f : Hart.Fetched} (row : List Hart.Fetched)
    (hf : execute f.instruction f.raw f.len b = .ok () b') :
    executeRow (f :: row) b = executeRow row b' := bind_run_ok hf _

/-- **A row goes on where its first part has ended.** -/
lemma executeRow_append {p : List Hart.Fetched} (hp : executeRow p b = .ok () b')
    (q : List Hart.Fetched) : executeRow (p ++ q) b = executeRow q b' := by
  induction p generalizing b with
  | nil =>
      cases hp
      rfl
  | cons f p ih =>
      obtain ⟨_, t, hf, hp⟩ := bind_eq_ok hp
      rw [List.cons_append, executeRow_cons _ hf]
      exact ih hp

end Rows

section Proceed

variable (rd : Reg) (value target : UInt64) (b : Board)

@[simp] lemma pc_proceed : (b.proceed rd value target).hart.pc = target := rfl

lemma get_proceed (r : Reg) : (b.proceed rd value target).hart.get r =
    if r = rd ∧ rd ≠ Reg.zero then value else b.hart.get r :=
  Registers.get_set b.hart.registers rd r value

/-- Without a register to write, the hart only jumps. -/
lemma proceed_zero :
    b.proceed Reg.zero value target = b.updateHart fun h => h.jump target := by
  simp only [proceed, Hart.set, Registers.set_zero]

/-- Of two values in one register the later one stays. -/
lemma proceed_proceed (value' target' : UInt64) :
    (b.proceed rd value target).proceed rd value' target' = b.proceed rd value' target' := by
  simp only [proceed, updateHart, Hart.set, Hart.jump, Registers.set]
  split
  · rfl
  · simp only [Vector.set_set]

end Proceed

/-! ## Instructions that proceed -/

section Instructions

variable (rd rs1 : Reg) (raw : UInt32) (len : UInt64) (b : Board)

lemma execute_lui (imm : UInt32) : execute (.lui rd imm) raw len b =
    .ok () (b.proceed rd (signExtend32 (imm <<< 12)) (b.hart.pc + len)) := rfl

lemma execute_opImm (op : ImmOp) (imm : Int) : execute (.opImm op rd rs1 imm) raw len b =
    .ok () (b.proceed rd (op.toRegOp.eval (b.hart.get rs1) (UInt64.ofInt imm))
      (b.hart.pc + len)) := rfl

/-- **A jump or branch leaves its return address and goes to its successor.**  It never raises an
    exception. -/
lemma execute_transfer {i : Instruction} (hi : i.isControlTransfer = true) :
    execute i raw len b =
      .ok () (b.proceed i.link (b.hart.pc + len) (i.successor b.hart len)) := by
  cases i with
  | jal | jalr => rfl
  | branch cond rs1 rs2 offset =>
      simp only [Instruction.link, Instruction.successor, proceed_zero]
      unfold execute
      rw [getHart_bind]
      dsimp only
      split <;> rfl
  | _ => cases hi

end Instructions

end Board

end Rv64Board
