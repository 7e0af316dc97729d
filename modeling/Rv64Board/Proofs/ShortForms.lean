import Rv64Board.Proofs.InstructionRows

/-!
# Short forms do what they stand for

A short form is another spelling of an instruction, two bytes long instead of four.  The length of
an instruction decides the address of the one behind it, and nothing else: this address is where
most instructions lead, and what a jump leaves in its link register.  The bits of an instruction
show up only in the exceptions of a few privileged instructions, and none of these has a short form.

* `Instruction.ending` — what is left to do once the length is known.
* `execute_eq_ending` — **up to there, an instruction does the same for all lengths and bits.**
* `reportsBits_of_decodeCompressed` — no short form tells its bits to anyone.
* `short_form_executes` — every parcel, either as the instruction that it stands for or as an
  exception.
-/

namespace Rv64Board

/-! ## The length of an instruction -/

namespace Instruction

/-- Some exceptions of the instruction carry the bits that it was decoded from. -/
def reportsBits : Instruction → Bool
  | .mret | .sret | .wfi | .sfenceVma _ _ | .csrReg _ _ _ _ | .csrImm _ _ _ _ => true
  | _ => false

/-- The instruction, if it completes, leads to the one behind it. -/
def fallsThrough (h : Hart) : Instruction → Bool
  | .jal _ _ | .jalr _ _ _ | .mret | .sret => false
  | .branch cond rs1 rs2 _ => !cond.holds (h.get rs1) (h.get rs2)
  | _ => true

/-- What is left of an instruction once it is known to take `len` bytes.  A jump leaves the address
    behind it in its link register, and an instruction that falls through goes on there. -/
def ending (i : Instruction) (h : Hart) (len : UInt64) :
    EStateM.Result Exception Board Unit → EStateM.Result Exception Board Unit
  | .ok _ b =>
    .ok () (b.proceed i.link (h.pc + len) (if i.fallsThrough h then h.pc + len else b.hart.pc))
  | .error e b => .error e b

end Instruction

namespace Board

variable {i : Instruction} {b : Board}

/-- Where the hart was about to go before does not matter. -/
@[simp] lemma proceed_jump (rd : Reg) (value target before : UInt64) (b : Board) :
    (b.updateHart fun h => h.jump before).proceed rd value target = b.proceed rd value target := by
  simp only [proceed, updateHart, Hart.set, Hart.jump, Registers.set]
  split <;> rfl

@[simp] lemma pc_jump (target : UInt64) (b : Board) :
    (b.updateHart fun h => h.jump target).hart.pc = target := rfl

/-- An instruction without link that ends by going on to the next one. -/
lemma bind_jump_eq_ending (x : EStateM Exception Board Unit) (len : UInt64)
    (hlink : i.link = Reg.zero) (hfalls : i.fallsThrough b.hart = true) :
    (x >>= fun _ => jump (b.hart.pc + len)) b = i.ending b.hart len (x b) := by
  cases hx : x b with
  | ok _ t =>
      rw [bind_run_ok hx, Instruction.ending, hlink, hfalls, if_pos rfl, proceed_zero]
      rfl
  | error e t => exact bind_run_error hx _

/-- Jumps and branches end on the address where they go, unless they fall through. -/
lemma transfer_eq_ending (hi : i.isControlTransfer = true) (raw : UInt32) (len : UInt64) :
    execute i raw len b =
      i.ending b.hart len (.ok () (b.updateHart fun h => h.jump (i.successor b.hart 0))) := by
  rw [execute_transfer raw len b hi]
  cases i with
  | jal | jalr => simp [Instruction.ending, Instruction.fallsThrough, Instruction.successor]
  | branch cond rs1 rs2 offset =>
      cases hcond : cond.holds (b.hart.get rs1) (b.hart.get rs2) <;>
        simp [Instruction.ending, Instruction.successor, Instruction.fallsThrough, hcond]
  | _ => cases hi

/-- **Length and bits come last.**  There is one run that an instruction makes whatever its length
    and bits, and only its ending is a matter of the length. -/
lemma execute_eq_ending (hi : i.reportsBits = false) (b : Board) :
    ∃ r, ∀ raw len, execute i raw len b = i.ending b.hart len r := by
  cases i with
  | jal | jalr | branch => exact ⟨_, fun raw len => transfer_eq_ending rfl raw len⟩
  | lui | auipc | opImm | opReg | store | loadReserved | storeConditional | amo =>
      simp only [execute, getHart_bind]
      exact ⟨_, fun _ len => bind_jump_eq_ending _ len rfl rfl⟩
  | load kind rd rs1 offset =>
      -- The loaded value is still bound when the hart goes on.
      simp only [execute, getHart_bind, ← bind_assoc]
      exact ⟨_, fun _ len => bind_jump_eq_ending _ len rfl rfl⟩
  | fence | fenceI => exact ⟨_, fun _ len => bind_jump_eq_ending (pure ()) len rfl rfl⟩
  | ecall | ebreak => exact ⟨.error _ b, fun _ _ => rfl⟩
  | mret | sret | wfi | sfenceVma | csrReg | csrImm => cases hi

end Board

/-! ## Short forms -/

namespace Instruction

variable {n : Nat} {i : Instruction}

lemma reportsBits_quadrant0 (h : decodeQuadrant0? n = some i) : i.reportsBits = false := by
  unfold decodeQuadrant0? at h
  repeat' split at h
  all_goals cases h <;> rfl

lemma reportsBits_arithmetic (h : decodeArithmetic? n = some i) : i.reportsBits = false := by
  unfold decodeArithmetic? at h
  simp only at h
  split at h
  · cases h
    rfl
  · cases h
    rfl
  · cases h
    rfl
  · obtain ⟨op, _, rfl⟩ := Option.map_eq_some_iff.mp h
    rfl

lemma reportsBits_quadrant1 (h : decodeQuadrant1? n = some i) : i.reportsBits = false := by
  unfold decodeQuadrant1? at h
  simp only at h
  repeat' split at h
  case h_5 => exact reportsBits_arithmetic h
  all_goals cases h <;> rfl

lemma reportsBits_move (h : decodeMove? n = some i) : i.reportsBits = false := by
  unfold decodeMove? at h
  simp only at h
  repeat' split at h
  all_goals cases h <;> rfl

lemma reportsBits_quadrant2 (h : decodeQuadrant2? n = some i) : i.reportsBits = false := by
  unfold decodeQuadrant2? at h
  simp only at h
  repeat' split at h
  case h_4 => exact reportsBits_move h
  all_goals cases h <;> rfl

/-- **A short form never reports its bits.** -/
lemma reportsBits_of_decodeCompressed {parcel : UInt16} (h : decodeCompressed parcel = .ok i) :
    i.reportsBits = false := by
  rw [decodeCompressed] at h
  split at h <;> cases h
  next hi =>
  unfold decodeCompressed? at hi
  simp only at hi
  split at hi
  · exact reportsBits_quadrant0 hi
  · exact reportsBits_quadrant1 hi
  · exact reportsBits_quadrant2 hi
  · cases hi

end Instruction

namespace Board

open Instruction

/-- **A parcel does what it stands for.**  The instruction of a parcel is also the one that its long
    form decodes to.  From any board both make the same run, with the same exceptions, up to the
    address behind them, which is two bytes on for the parcel and four for the long form.  A parcel
    that stands for nothing raises an exception, with its bits. -/
theorem short_form_executes (parcel : UInt16) :
    (∀ i, decodeCompressed parcel = .ok i → decode i.encode = .ok i ∧
      ∀ b, ∃ r, execute i parcel.toUInt32 2 b = i.ending b.hart 2 r ∧
        execute i i.encode 4 b = i.ending b.hart 4 r) ∧
    ((¬∃ i, decodeCompressed parcel = .ok i) →
      decodeCompressed parcel = .error (.illegalInstruction parcel.toUInt32)) := by
  refine ⟨fun i hi => ⟨?_, fun b => ?_⟩, fun hnone => ?_⟩
  · exact decode_eq_ok_iff.mpr (decode?_of_encode_eq (canonical_of_decodeCompressed hi) rfl)
  · obtain ⟨r, hr⟩ := execute_eq_ending (reportsBits_of_decodeCompressed hi) b
    exact ⟨r, hr _ _, hr _ _⟩
  · rw [decodeCompressed] at hnone ⊢
    split
    next i hi => exact absurd ⟨i, by rw [hi]⟩ hnone
    · rfl

/-- A hart about to jump through the register that it links to. -/
def atOwnLink : Board where
  hart := (Hart.atReset 0x80000000).set Reg.ra 0x80000101
  bus := Bus.ofMemory (Memory.zeroed 0x80000000 0x1000)
  cycles := 0
  lines := Lines.idle

/-- Both spellings of the jump go where the register led before, and leave different addresses in
    it.  The parcel of zeros is none. -/
theorem own_link_short_form :
    decodeCompressed 0x9082 = .ok (.jalr Reg.ra Reg.ra 0) ∧
    decode (encode (.jalr Reg.ra Reg.ra 0)) = .ok (.jalr Reg.ra Reg.ra 0) ∧
    (∃ r t₂ t₄,
      (execute (.jalr Reg.ra Reg.ra 0) 0x9082 2 atOwnLink = .ok () t₂ ∧
        ending (.jalr Reg.ra Reg.ra 0) atOwnLink.hart 2 r = .ok () t₂ ∧
        t₂.hart.get Reg.ra = 0x80000002 ∧ t₂.hart.pc = 0x80000100) ∧
      execute (.jalr Reg.ra Reg.ra 0) (encode (.jalr Reg.ra Reg.ra 0)) 4 atOwnLink =
          .ok () t₄ ∧
        ending (.jalr Reg.ra Reg.ra 0) atOwnLink.hart 4 r = .ok () t₄ ∧
        t₄.hart.get Reg.ra = 0x80000004 ∧ t₄.hart.pc = 0x80000100) ∧
    decodeCompressed 0 = .error (.illegalInstruction 0) := by
  obtain ⟨hdecode, hruns⟩ := (short_form_executes 0x9082).1 (.jalr Reg.ra Reg.ra 0) rfl
  obtain ⟨r, h₂, h₄⟩ := hruns atOwnLink
  refine ⟨rfl, hdecode, ⟨r, _, _, ⟨rfl, h₂.symm, ?_, ?_⟩, rfl, h₄.symm, ?_, ?_⟩,
    (short_form_executes 0).2 ?_⟩
  · decide
  · decide
  · decide
  · decide
  · rintro ⟨i, hi⟩
    cases hi

end Board

end Rv64Board
