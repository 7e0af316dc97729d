import Rv64Board.Proofs.LegalCsrs
import Rv64Board.Proofs.Oblivious

/-!
# What devices drive is not latched

Some of the pending interrupts are driven from outside: by the lines of devices, and by the timer
comparator of the supervisor.  They show in two registers, `mip` and `sip`, and an instruction that
sets or clears bits there reads them only to write them back.  Nothing of what is driven must stay
in the file that way, whatever instructions follow each other.

* `CsrFile.undriven` — the file without what drives pending bits.
* `CsrFile.check_undriven`, `CsrFile.undriven_write` — **access to a register, and what becomes of
  the undriven file, are up to the undriven file.**
* `CsrRequest` — a CSR instruction with the value of its operand, and `CsrRequest.perform_spec`,
  what it does to the file.
* `CsrRequest.mip_within` — what setting and clearing bits leaves of the pending bits.
* `driven_bits_not_latched` — rows of such instructions on two boards.
-/

namespace Rv64Board

/-! ## The undriven file -/

namespace CsrFile

/-- The file without what is sampled from devices and without the comparator: all that drives
    pending bits, and nothing else, is left out. -/
def undriven (f : CsrFile) : CsrFile :=
  { f with hardwareMip := 0, time := 0, stimecmp := 0 }

variable (f : CsrFile)

/-- **Whether an access is allowed is up to the undriven file.** -/
lemma check_undriven (c : Csr) (level : Privilege) (write : Bool) :
    f.undriven.check c level write = f.check c level write := rfl

lemma readRegister_undriven {r : Csr.Register} (hmip : r ≠ .mip) (hsip : r ≠ .sip)
    (htime : r ≠ .time) (hcomparator : r ≠ .stimecmp) :
    f.undriven.readRegister r = f.readRegister r := by
  cases r with
  | mip => exact absurd rfl hmip
  | sip => exact absurd rfl hsip
  | time => exact absurd rfl htime
  | stimecmp => exact absurd rfl hcomparator
  | member family i => cases family <;> rfl
  | _ => rfl

/-- A write to an existing register does the same to the undriven file. -/
lemma undriven_writeRegister (r : Csr.Register) (value : UInt64) :
    (f.undriven.writeRegister r value).undriven = (f.writeRegister r value).undriven := by
  cases r with
  | satp =>
      simp only [writeRegister]
      split <;> rfl
  | member family i => cases family <;> rfl
  | _ => rfl

/-- Bits are set and cleared in what software has written, except in the registers that only show
    what drives pending bits. -/
lemma modifiable_undriven {r : Csr.Register} (hr : r.csr.register? = some r) (htime : r ≠ .time)
    (hcomparator : r ≠ .stimecmp) : f.undriven.modifiable r.csr = f.modifiable r.csr := by
  simp only [modifiable, read, hr]
  split
  · rfl
  next hpending =>
    refine readRegister_undriven f ?_ ?_ htime hcomparator
    · rintro rfl
      exact hpending (Or.inl rfl)
    · rintro rfl
      exact hpending (Or.inr rfl)

/-- **What an instruction makes of the undriven file is up to the undriven file.** -/
lemma undriven_write (c : Csr) (op : CsrOp) (operand : UInt64) :
    (f.undriven.write c (csrValue op (f.undriven.modifiable c) operand)).undriven =
      (f.write c (csrValue op (f.modifiable c) operand)).undriven := by
  cases hr : c.register? with
  | none =>
      simp only [write, hr]
      rfl
  | some r =>
      obtain rfl := Csr.eq_csr_of_register? hr
      simp only [write, hr]
      by_cases hdriving : r = .time ∨ r = .stimecmp
      · -- these may be written differently, but the one keeps nothing and the other is left out
        rcases hdriving with rfl | rfl <;> rfl
      · rw [not_or] at hdriving
        rw [modifiable_undriven f hr hdriving.1 hdriving.2]
        exact undriven_writeRegister f r _

end CsrFile

/-! ## One instruction -/

/-- The operand of a CSR instruction: a register with the value in it, or a number. -/
inductive CsrOperand
  | register (rs1 : Reg) (value : UInt64)
  | immediate (uimm : UInt32)

namespace CsrOperand

/-- The value of an operand.  There is none but zero in register zero. -/
def value : CsrOperand → UInt64
  | .register rs1 value => if rs1 = Reg.zero then 0 else value
  | .immediate uimm => uimm.toUInt64

/-- The operand counts as naming bits to set or to clear. -/
def named : CsrOperand → Bool
  | .register rs1 _ => rs1 ≠ Reg.zero
  | .immediate uimm => uimm ≠ 0

/-- Puts the value into its register. -/
def place : CsrOperand → EStateM Exception Board Unit
  | .register rs1 value => Board.setRegister rs1 value
  | .immediate _ => pure ()

end CsrOperand

/-- A CSR instruction, with the value of its operand and the bits that it is decoded from. -/
structure CsrRequest where
  op : CsrOp
  rd : Reg
  csr : Csr
  operand : CsrOperand
  raw : UInt32

namespace CsrRequest

def instruction (r : CsrRequest) : Instruction :=
  match r.operand with
  | .register rs1 _ => .csrReg r.op r.rd r.csr rs1
  | .immediate uimm => .csrImm r.op r.rd r.csr uimm

/-- Executes the instruction with its operand in place. -/
def perform (r : CsrRequest) : EStateM Exception Board Unit := do
  r.operand.place
  Board.execute r.instruction r.raw 4

/-- The instruction writes its register. -/
def writes (r : CsrRequest) : Bool := r.op = .write || r.operand.named

/-- The answer of an instruction at a level, and the file that it leaves. -/
def effect (r : CsrRequest) (level : Privilege) (f : CsrFile) : Except Exception Unit × CsrFile :=
  match f.check r.csr level r.writes with
  | .error fault => (.error (fault.exception r.raw), f)
  | .ok _ =>
    (.ok (), if r.writes then
      f.write r.csr (csrValue r.op (f.modifiable r.csr) r.operand.value) else f)

variable (r : CsrRequest) (b : Board)

/-- With the operand in place, an instruction accesses its register and goes on. -/
lemma perform_eq : ∃ t : Board, t.hart.csrs = b.hart.csrs ∧ t.hart.privilege = b.hart.privilege ∧
    r.perform b = (Board.accessCsr r.op r.rd r.csr r.operand.value r.operand.named r.raw >>=
      fun _ => Board.jump (t.hart.pc + 4)) t := by
  obtain ⟨op, rd, csr, operand, raw⟩ := r
  cases operand with
  | immediate uimm => exact ⟨b, rfl, rfl, rfl⟩
  | register rs1 value =>
      refine ⟨b.updateHart fun h => h.set rs1 value, rfl, rfl, ?_⟩
      have hget : (b.hart.set rs1 value).get rs1 = (CsrOperand.register rs1 value).value := by
        refine (Registers.get_set b.hart.registers rs1 rs1 value).trans ?_
        by_cases hzero : rs1 = Reg.zero
        · rw [hzero, CsrOperand.value, if_pos rfl, if_neg (by simp), Registers.get_zero]
        · rw [CsrOperand.value, if_neg hzero, if_pos ⟨rfl, hzero⟩]
      dsimp only
      rw [← hget]
      rfl

/-- **What a CSR instruction does, as far as the file is concerned.** -/
lemma perform_spec :
    outcome (r.perform b) = (r.effect b.hart.privilege b.hart.csrs).1 ∧
    (finalState (r.perform b)).hart.csrs = (r.effect b.hart.privilege b.hart.csrs).2 ∧
    (finalState (r.perform b)).hart.privilege = b.hart.privilege := by
  obtain ⟨t, hcsrs, hlevel, hperform⟩ := perform_eq r b
  rw [hperform, ← hcsrs, ← hlevel, effect, writes]
  cases hcheck : t.hart.csrs.check r.csr t.hart.privilege
      (decide (r.op = .write) || r.operand.named) with
  | error fault =>
      rw [bind_run_error (Board.accessCsr_refused r.rd r.operand.value r.raw hcheck)]
      exact ⟨rfl, rfl, rfl⟩
  | ok _ =>
      rw [bind_run_ok (Board.accessCsr_allowed r.rd r.operand.value r.raw hcheck)]
      exact ⟨rfl, rfl, rfl⟩

/-- **The answer of an instruction, and what it makes of the undriven file, do not depend on what
    drives pending bits.** -/
lemma effect_undriven (level : Privilege) (f : CsrFile) :
    (r.effect level f.undriven).1 = (r.effect level f).1 ∧
      (r.effect level f.undriven).2.undriven = (r.effect level f).2.undriven := by
  simp only [effect, CsrFile.check_undriven]
  cases f.check r.csr level r.writes with
  | error fault => exact ⟨rfl, rfl⟩
  | ok _ =>
      refine ⟨rfl, ?_⟩
      dsimp only
      split
      · exact CsrFile.undriven_write f r.csr r.op r.operand.value
      · rfl

/-- The bits that an instruction sets. -/
def raised (r : CsrRequest) : UInt64 :=
  match r.op with
  | .set => r.operand.value
  | _ => 0

variable {r}

/-- **Setting and clearing pending bits keeps bits that software has set, and adds only those that
    the operand names.** -/
lemma mip_within (hop : r.op ≠ .write)
    (hcsr : r.csr = Csr.Register.mip.csr ∨ r.csr = Csr.Register.sip.csr) (level : Privilege)
    (f : CsrFile) : Within (f.mip ||| r.raised) (r.effect level f).2.mip := by
  have hkept : Within (f.mip ||| r.raised) f.mip := by
    rw [Within.iff_bits]
    intro i hi
    simp +contextual
  have hvalue : Within (f.mip ||| r.raised) (csrValue r.op f.mip r.operand.value) := by
    rw [Within.iff_bits]
    intro i hi
    cases hr : r.op with
    | write => exact absurd hr hop
    | set => simp [csrValue, raised, hr]
    | clear => simp +contextual [csrValue, raised, hr]
  have hmerged (mask : UInt64) : Within (f.mip ||| r.raised)
      (CsrFile.merged f.mip mask (csrValue r.op f.mip r.operand.value)) := by
    rw [Within.iff_bits] at hkept hvalue ⊢
    intro i hi hout
    simp [CsrFile.merged, hkept i hi hout, hvalue i hi hout]
  have hmodifiable : f.modifiable r.csr = f.mip := by rw [CsrFile.modifiable, if_pos hcsr]
  rw [effect]
  split
  · exact hkept
  · dsimp only
    split
    · rw [hmodifiable]
      rcases hcsr with hmip | hsip
      · rw [hmip]
        exact hmerged _
      · rw [hsip]
        exact hmerged _
    · exact hkept

end CsrRequest

/-! ## Rows of instructions -/

namespace Board

/-- Performs instructions one after the other, refused ones among them, and collects their
    answers. -/
def performRow : List CsrRequest → Board → List (Except Exception Unit) × Board
  | [], b => ([], b)
  | r :: row, b =>
    let (answers, b') := performRow row (finalState (r.perform b))
    (outcome (r.perform b) :: answers, b')

/-- Boards at one level whose files are the same but for what drives pending bits. -/
structure SameUndriven (b₁ b₂ : Board) : Prop where
  level : b₁.hart.privilege = b₂.hart.privilege
  csrs : b₁.hart.csrs.undriven = b₂.hart.csrs.undriven

variable {b₁ b₂ : Board}

/-- One instruction on two boards. -/
lemma SameUndriven.perform (h : SameUndriven b₁ b₂) (r : CsrRequest) :
    outcome (r.perform b₁) = outcome (r.perform b₂) ∧
      SameUndriven (finalState (r.perform b₁)) (finalState (r.perform b₂)) := by
  obtain ⟨hanswer₁, hcsrs₁, hlevel₁⟩ := r.perform_spec b₁
  obtain ⟨hanswer₂, hcsrs₂, hlevel₂⟩ := r.perform_spec b₂
  obtain ⟨hverdict₁, hfile₁⟩ := r.effect_undriven b₁.hart.privilege b₁.hart.csrs
  obtain ⟨hverdict₂, hfile₂⟩ := r.effect_undriven b₂.hart.privilege b₂.hart.csrs
  refine ⟨?_, ⟨?_, ?_⟩⟩
  · rw [hanswer₁, hanswer₂, ← hverdict₁, ← hverdict₂, h.level, h.csrs]
  · rw [hlevel₁, hlevel₂, h.level]
  · rw [hcsrs₁, hcsrs₂, ← hfile₁, ← hfile₂, h.level, h.csrs]

/-- **Instructions one after the other answer alike on two boards,** and leave them alike. -/
lemma SameUndriven.performRow (h : SameUndriven b₁ b₂) (row : List CsrRequest) :
    (performRow row b₁).1 = (performRow row b₂).1 ∧
      SameUndriven (performRow row b₁).2 (performRow row b₂).2 := by
  induction row generalizing b₁ b₂ with
  | nil => exact ⟨rfl, h⟩
  | cons r row ih =>
      obtain ⟨hanswer, hnext⟩ := h.perform r
      obtain ⟨hanswers, hlast⟩ := ih hnext
      refine ⟨?_, hlast⟩
      simp only [Board.performRow, hanswer, hanswers]

/-- **Bits that devices drive are never latched.**  Let two boards be at the same level, with files
    that differ at most in what drives pending bits.  Of any CSR instructions, with any operands,
    each is allowed on both or refused on both with the same exception, and in the end the files
    still differ in no more than that.  And an instruction that sets or clears bits of `mip` or
    `sip` leaves no pending bit to software that software had not set before or sets by its
    operand. -/
theorem driven_bits_not_latched :
    (∀ b₁ b₂ : Board, SameUndriven b₁ b₂ → ∀ row : List CsrRequest,
      (performRow row b₁).1 = (performRow row b₂).1 ∧
        SameUndriven (performRow row b₁).2 (performRow row b₂).2) ∧
    ∀ (r : CsrRequest) (b : Board), r.op ≠ .write →
      r.csr = Csr.Register.mip.csr ∨ r.csr = Csr.Register.sip.csr →
      Within (b.hart.csrs.mip ||| r.raised) (finalState (r.perform b)).hart.csrs.mip := by
  refine ⟨fun b₁ b₂ h row => h.performRow row, fun r b hop hcsr => ?_⟩
  rw [(r.perform_spec b).2.1]
  exact CsrRequest.mip_within hop hcsr _ _

/-- A board at supervisor level on which devices drive the given lines, with the comparator set to a
    time. -/
def sampling (lines time comparator : UInt64) : Board where
  hart := { Hart.atReset 0x80000000 with
    privilege := .supervisor
    csrs := { CsrFile.atReset with
      menvcfg := CsrFile.timerEnable
      mideleg := CsrFile.softwareInterrupts
      hardwareMip := lines
      time := time
      stimecmp := comparator } }
  bus := Bus.ofMemory (Memory.zeroed 0x80000000 0x1000)
  cycles := 0
  lines := Lines.idle

/-- Raises the software interrupt of the supervisor, and keeps what was pending in `rd`. -/
def raising (rd : Reg) : CsrRequest :=
  ⟨.set, rd, Csr.Register.sip.csr, .immediate 2, 0⟩

/-- Raises the interrupt, puts off the comparator, asks for a register of machine level, and raises
    the interrupt again. -/
def attempts : List CsrRequest :=
  [raising Reg.a0,
    ⟨.set, Reg.zero, Csr.Register.stimecmp.csr, .register Reg.a1 8, 0⟩,
    ⟨.write, Reg.zero, Csr.Register.mip.csr, .register Reg.a1 0x222, 0⟩,
    raising Reg.ra]

/-- The supervisor sees what is driven, first with the comparator and then without, but only what it
    has raised itself stays. -/
theorem sampled_bits_not_latched :
    SameUndriven (sampling 0x200 5 4) (sampling 0 0 6) ∧
    (performRow attempts (sampling 0x200 5 4)).1 = (performRow attempts (sampling 0 0 6)).1 ∧
    SameUndriven (performRow attempts (sampling 0x200 5 4)).2
      (performRow attempts (sampling 0 0 6)).2 ∧
    (performRow attempts (sampling 0x200 5 4)).2.hart.get Reg.a0 = 0x220 ∧
    (performRow attempts (sampling 0x200 5 4)).2.hart.get Reg.ra = 0x202 ∧
    ((raising Reg.a0).op ≠ .write ∧ (raising Reg.a0).csr = Csr.Register.sip.csr) ∧
    Within 2 (finalState ((raising Reg.a0).perform (sampling 0x200 5 4))).hart.csrs.mip := by
  have hsame : SameUndriven (sampling 0x200 5 4) (sampling 0 0 6) := ⟨rfl, rfl⟩
  obtain ⟨hanswers, hlast⟩ := driven_bits_not_latched.1 _ _ hsame attempts
  have hset : (raising Reg.a0).op ≠ .write := by decide
  refine ⟨hsame, hanswers, hlast, by decide +kernel, by decide +kernel, ⟨hset, rfl⟩, ?_⟩
  exact driven_bits_not_latched.2 (raising Reg.a0) (sampling 0x200 5 4) hset (Or.inr rfl)

end Board

end Rv64Board
