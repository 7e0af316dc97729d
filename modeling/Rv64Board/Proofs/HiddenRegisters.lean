import Rv64Board.Proofs.Oblivious
import Rv64Board.Proofs.SystemState

/-!
# Registers that a level cannot learn

Below machine level, most control and status registers are out of reach.  Here out of reach means
more than that they cannot be read: no instruction behaves in any way that depends on them.

* `CsrFile.disguise` — a file with the registers that are hidden from a level replaced by others.
* `CsrFile.check_disguise`, `CsrFile.read_disguise`, `CsrFile.write_disguise` — what a level may do
  with a register, and what comes of it, is the same in disguise.
* `Board.execute_disguise` — so it is with every instruction.
* `Board.hidden_registers_unobservable` — **two boards that differ in hidden registers only behave
  alike,** differ in these only afterwards, and keep them.
-/

namespace Rv64Board

namespace CsrFile

/-- The file with the registers that are hidden from a level taken from another file. -/
def disguise (f : CsrFile) (level : Privilege) (other : CsrFile) : CsrFile :=
  match level with
  | .user =>
    { f with
      mscratch := other.mscratch
      sscratch := other.sscratch
      mepc := other.mepc
      sepc := other.sepc
      mcause := other.mcause
      scause := other.scause
      mtval := other.mtval
      stval := other.stval
      mtvec := other.mtvec
      stvec := other.stvec
      medeleg := other.medeleg
      mideleg := other.mideleg
      mie := other.mie
      mip := other.mip
      hardwareMip := other.hardwareMip
      menvcfg := other.menvcfg
      senvcfg := other.senvcfg
      stimecmp := other.stimecmp
      mcountinhibit := other.mcountinhibit
      pmpcfg := other.pmpcfg
      pmpaddr := other.pmpaddr }
  | .supervisor =>
    { f with
      mscratch := other.mscratch
      mepc := other.mepc
      mcause := other.mcause
      mtval := other.mtval
      mtvec := other.mtvec
      medeleg := other.medeleg
      mcountinhibit := other.mcountinhibit
      pmpcfg := other.pmpcfg
      pmpaddr := other.pmpaddr }
  | .machine => f

section Disguise

variable (level : Privilege) (other f : CsrFile)

@[simp] lemma disguise_self : f.disguise level f = f := by
  cases level <;> rfl

@[simp] lemma disguise_disguise (g : CsrFile) :
    f.disguise level (g.disguise level other) = f.disguise level other := by
  cases level <;> rfl

variable {level f} {c : Csr}

lemma switchedOff_disguise (hlevel : ¬level < c.privilege) :
    (f.disguise level other).switchedOff c level = f.switchedOff c level := by
  cases level with
  | machine => rfl
  | supervisor => rfl
  | user =>
      -- the switch of the comparator is hidden from the user, and so is the comparator
      have hnot : c ≠ Csr.Register.stimecmp.csr := by
        rintro rfl
        exact hlevel (by decide)
      simp only [switchedOff, if_neg hnot]
      rfl

/-- **Access is granted or refused for reasons that a level may know.** -/
lemma check_disguise (c : Csr) (write : Bool) :
    (f.disguise level other).check c level write = f.check c level write := by
  by_cases hlevel : level < c.privilege
  · simp only [check, if_pos hlevel]
  · simp only [check, switchedOff_disguise other hlevel]

lemma exists_register_of_check {write : Bool} (h : f.check c level write = .ok ()) :
    ∃ r, c.register? = some r ∧ c = r.csr ∧ ¬level < r.csr.privilege := by
  rw [check] at h
  split at h
  · cases h
  · next hnone =>
    obtain ⟨r, hr⟩ := Option.ne_none_iff_exists'.mp (by simpa using hnone)
    obtain rfl := Csr.eq_csr_of_register? hr
    refine ⟨r, hr, rfl, fun hlevel => ?_⟩
    rw [if_pos hlevel] at h
    cases h

/-- **What a level may read is not hidden from it.** -/
lemma readRegister_disguise {r : Csr.Register} (hlevel : ¬level < r.csr.privilege) :
    (f.disguise level other).readRegister r = f.readRegister r := by
  cases level with
  | machine => rfl
  | user =>
      cases r with
      | cycle | time | instret => rfl
      | member family i =>
          cases family with
          | hpmcounter => rfl
          | _ => exact absurd hlevel (by revert i; decide)
      | _ => exact absurd hlevel (by decide)
  | supervisor =>
      cases r with
      | sstatus | sie | stvec | scounteren | senvcfg | sscratch | sepc | scause | stval | sip
      | stimecmp | satp | cycle | time | instret => rfl
      | member family i =>
          cases family with
          | hpmcounter => rfl
          | _ => exact absurd hlevel (by revert i; decide)
      | _ => exact absurd hlevel (by decide)

/-- A write of the supervisor does the same to every other register. -/
lemma writeRegister_disguise {r : Csr.Register} (hr : r ∈ Csr.supervisorRegisters)
    (value : UInt64) :
    (f.disguise .supervisor other).writeRegister r value =
      (f.writeRegister r value).disguise .supervisor other := by
  cases r with
  | sstatus | sie | stvec | scounteren | senvcfg | sscratch | sepc | scause | stval | sip
  | stimecmp => rfl
  | satp =>
      simp only [writeRegister]
      split <;> rfl
  | _ => exact absurd hr (by simp [Csr.supervisorRegisters])

variable {write : Bool}

lemma read_disguise (h : f.check c level write = .ok ()) :
    (f.disguise level other).read c = f.read c := by
  obtain ⟨r, hr, rfl, hlevel⟩ := exists_register_of_check h
  simp only [read, hr, readRegister_disguise other hlevel]

/-- **What a level may write, it writes without regard to what is hidden from it.** -/
lemma write_disguise (hbelow : level ≠ .machine) (h : f.check c level true = .ok ()) (op : CsrOp)
    (operand : UInt64) :
    (f.disguise level other).write c
        (csrValue op ((f.disguise level other).modifiable c) operand) =
      (f.write c (csrValue op (f.modifiable c) operand)).disguise level other := by
  cases level with
  | machine => exact absurd rfl hbelow
  | user => exact absurd h (check_user_ne_ok f c)  -- the user has no register to write
  | supervisor =>
      have hread := read_disguise other h
      obtain ⟨r, hr, rfl, hlevel, hwritable, _⟩ := check_eq_ok h
      have hmodifiable : (f.disguise .supervisor other).modifiable r.csr = f.modifiable r.csr := by
        rw [modifiable, hread]
        rfl
      have hmem := Csr.mem_supervisorRegisters hlevel hwritable
      rw [hmodifiable]
      simp only [write, hr, writeRegister_disguise other hmem]

end Disguise

end CsrFile

/-! ## Accesses to memory -/

namespace Hart

/-- The hart with the registers that are hidden from a level taken from elsewhere. -/
def disguise (h : Hart) (level : Privilege) (other : CsrFile) : Hart :=
  { h with csrs := h.csrs.disguise level other }

variable {h h' : Hart}

section SameTranslation

variable (ht : h'.translate = h.translate)
include ht

lemma translateAll_congr (access : Access) (row : List UInt64) :
    h'.translateAll access row = h.translateAll access row := by
  induction row with
  | nil => rfl
  | cons a row ih => rw [translateAll, translateAll, ih, ht]

lemma load_congr (address : UInt64) (w : Width) : h'.load address w = h.load address w := by
  simp only [load, ht, translateAll_congr ht]

lemma store_congr (address : UInt64) (w : Width) (value : UInt64) :
    h'.store address w value = h.store address w value := by
  simp only [store, ht, translateAll_congr ht]

lemma atomicAddress_congr (address : UInt64) (w : Width) :
    h'.atomicAddress address w = h.atomicAddress address w := by
  simp only [atomicAddress, ht]

end SameTranslation

@[simp] lemma get_disguise (h : Hart) (level : Privilege) (other : CsrFile) (r : Reg) :
    (h.disguise level other).get r = h.get r := rfl

lemma forbidden_disguise (h : Hart) (level : Privilege) (other : CsrFile) (trapBit : UInt64) :
    (h.disguise level other).forbidden trapBit = h.forbidden trapBit := by
  cases level <;> rfl

/-- **Translation looks at the status register and at the root of the tables only,** and neither is
    hidden. -/
lemma translate_disguise (h : Hart) (level : Privilege) (other : CsrFile) :
    (h.disguise level other).translate = h.translate := by
  cases level <;> rfl

end Hart

/-! ## Instructions -/

namespace Board

/-- The board with the registers that are hidden from a level taken from elsewhere. -/
def disguise (level : Privilege) (other : CsrFile) (b : Board) : Board :=
  b.updateHart fun h => h.disguise level other

section Instructions

variable {level : Privilege} {other : CsrFile}

lemma oblivious_modifyHart_disguise {g : Hart → Hart}
    (hg : ∀ h, g (h.disguise level other) = (g h).disguise level other) :
    Oblivious (disguise level other) (modifyHart g) := by
  intro b
  simp only [modifyHart, disguise, updateHart, hg]
  rfl

lemma oblivious_setRegister_disguise (rd : Reg) (value : UInt64) :
    Oblivious (disguise level other) (setRegister rd value) :=
  oblivious_modifyHart_disguise fun _ => rfl

lemma oblivious_jump_disguise (target : UInt64) : Oblivious (disguise level other) (jump target) :=
  oblivious_modifyHart_disguise fun _ => rfl

lemma oblivious_reserve_disguise (reservation : Option UInt64) :
    Oblivious (disguise level other) (modifyHart fun h => { h with reservation }) :=
  oblivious_modifyHart_disguise fun _ => rfl

lemma oblivious_onBus_disguise {α : Type} (x : EStateM Exception Bus α) :
    Oblivious (disguise level other) (onBus x) := by
  intro b
  simp only [onBus, disguise, updateHart]
  cases x b.bus <;> rfl

/-- Looking at the hart tells nothing, if what follows makes nothing of a disguise. -/
lemma oblivious_getHart_disguise {α : Type} {k : Hart → EStateM Exception Board α}
    (hsame : ∀ h, k (h.disguise level other) = k h)
    (hk : ∀ h, Oblivious (disguise level other) (k h)) :
    Oblivious (disguise level other) (getHart >>= k) := by
  intro b
  rw [getHart_bind, getHart_bind]
  exact (congrFun (hsame b.hart) _).trans (hk b.hart b)

lemma oblivious_loadReserved_disguise (w : Width) (rd rs1 : Reg) :
    Oblivious (disguise level other) (loadReserved w rd rs1) := by
  refine oblivious_getHart_disguise (fun h => ?_) fun h => ?_
  · simp only [Hart.translate_disguise, Hart.get_disguise]
  · dsimp only
    split
    · refine Oblivious.bind (oblivious_onBus_disguise _) fun pa => ?_
      refine Oblivious.bind (oblivious_onBus_disguise _) fun v => ?_
      exact Oblivious.bind (oblivious_reserve_disguise _)
        fun _ => oblivious_setRegister_disguise _ _
    · exact Oblivious.throw _

lemma oblivious_storeConditional_disguise (w : Width) (rd rs1 rs2 : Reg) :
    Oblivious (disguise level other) (storeConditional w rd rs1 rs2) := by
  refine oblivious_getHart_disguise (fun h => ?_) fun h => ?_
  · simp only [Hart.atomicAddress_congr (h.translate_disguise level other)]
    rfl
  · refine Oblivious.bind (oblivious_onBus_disguise _) fun pa => ?_
    have hrest (value : UInt64) : Oblivious (disguise level other) (do
        modifyHart fun h => { h with reservation := none }
        setRegister rd value) :=
      Oblivious.bind (oblivious_reserve_disguise none) fun _ => oblivious_setRegister_disguise _ _
    dsimp only
    split
    · exact Oblivious.bind (oblivious_onBus_disguise _) fun _ => hrest _
    · exact hrest _

lemma oblivious_atomicUpdate_disguise (op : AmoOp) (kind : AmoKind) (rd rs1 rs2 : Reg) :
    Oblivious (disguise level other) (atomicUpdate op kind rd rs1 rs2) := by
  refine oblivious_getHart_disguise (fun h => ?_) fun h => ?_
  · simp only [Hart.atomicAddress_congr (h.translate_disguise level other), Hart.get_disguise]
  · refine Oblivious.bind (oblivious_onBus_disguise _) fun pa => ?_
    refine Oblivious.bind (oblivious_onBus_disguise _) fun v => ?_
    refine Oblivious.bind (oblivious_onBus_disguise _) fun _ => ?_
    exact oblivious_setRegister_disguise _ _

variable {b : Board}

/-- **A CSR instruction makes nothing of what is hidden from its level.** -/
lemma accessCsr_disguise (hbelow : level ≠ .machine) (hlevel : b.hart.privilege = level)
    (op : CsrOp) (rd : Reg) (csr : Csr) (operand : UInt64) (named : Bool) (raw : UInt32) :
    accessCsr op rd csr operand named raw (b.disguise level other) =
      mapState (disguise level other) (accessCsr op rd csr operand named raw b) := by
  have hhart : (b.disguise level other).hart = b.hart.disguise level other := rfl
  have hcsrs : (b.hart.disguise level other).csrs = b.hart.csrs.disguise level other := rfl
  have hsame : (b.hart.disguise level other).privilege = level := hlevel
  simp only [accessCsr]
  rw [getHart_bind, getHart_bind, hhart, hcsrs, hsame, hlevel, CsrFile.check_disguise]
  cases hcheck : b.hart.csrs.check csr level (decide (op = .write) || named) with
  | error fault => rfl
  | ok _ =>
      dsimp only
      rw [CsrFile.read_disguise other hcheck]
      by_cases hwrites : (decide (op = .write) || named) = true
      · rw [if_pos hwrites]
        rw [hwrites] at hcheck
        refine Oblivious.bind_at ?_ fun _ t _ => oblivious_setRegister_disguise _ _ t
        have hwrite := CsrFile.write_disguise other hbelow hcheck op operand
        simp only [modifyHart, updateHart, disguise, Hart.disguise, mapState, hwrite]
      · rw [if_neg hwrites]
        exact oblivious_setRegister_disguise _ _ b

/-- **No instruction makes anything of what is hidden from its level.** -/
lemma execute_disguise (other : CsrFile) (hbelow : level ≠ .machine)
    (hlevel : b.hart.privilege = level) (i : Instruction) (raw : UInt32) (len : UInt64) :
    execute i raw len (b.disguise level other) =
      mapState (disguise level other) (execute i raw len b) := by
  have hhart : (b.disguise level other).hart = b.hart.disguise level other := rfl
  have ht := b.hart.translate_disguise level other
  rw [execute, getHart_bind, getHart_bind, hhart]
  simp only [Hart.forbidden_disguise, Hart.load_congr ht, Hart.store_congr ht]
  cases i with
  | lui | auipc | jal | jalr | opImm | opReg =>
      exact Oblivious.bind (oblivious_setRegister_disguise _ _)
        (fun _ => oblivious_jump_disguise _) b
  | fence | fenceI => exact oblivious_jump_disguise _ b
  | ecall | ebreak => rfl
  | branch cond rs1 rs2 offset =>
      have hbranch : Oblivious (disguise level other)
          (if cond.holds (b.hart.get rs1) (b.hart.get rs2) then
            jump (b.hart.pc + UInt64.ofInt offset) else jump (b.hart.pc + len)) := by
        split <;> exact oblivious_jump_disguise _
      exact hbranch b
  | mret =>
      have hlt : b.hart.privilege < .machine := by
        rw [hlevel]
        cases level with
        | user | supervisor => decide
        | machine => exact absurd rfl hbelow
      have hthrow : Oblivious (disguise level other)
          (if b.hart.privilege < .machine then throw (.privilegedInstruction raw) else
            modifyHart Hart.mret) := by
        rw [if_pos hlt]
        exact Oblivious.throw _
      exact hthrow b
  | sret =>
      dsimp only
      split
      · rfl
      · next hallowed =>
        -- the return takes its address from the supervisor, from whom that is not hidden
        cases level with
        | user => exact absurd (by simp [Hart.forbidden, hlevel]) hallowed
        | supervisor => rfl
        | machine => exact absurd rfl hbelow
  | wfi | sfenceVma =>
      dsimp only
      split
      · rfl
      · exact oblivious_jump_disguise _ b
  | csrReg op rd csr rs1 =>
      exact Oblivious.bind_at (accessCsr_disguise hbelow hlevel ..) fun _ t _ =>
        oblivious_jump_disguise _ t
  | csrImm op rd csr uimm =>
      exact Oblivious.bind_at (accessCsr_disguise hbelow hlevel ..) fun _ t _ =>
        oblivious_jump_disguise _ t
  | load kind rd rs1 offset =>
      refine Oblivious.bind (oblivious_onBus_disguise _) (fun v => ?_) b
      exact Oblivious.bind (oblivious_setRegister_disguise _ _) fun _ => oblivious_jump_disguise _
  | store kind rs1 rs2 offset =>
      exact Oblivious.bind (oblivious_onBus_disguise _) (fun _ => oblivious_jump_disguise _) b
  | loadReserved =>
      exact Oblivious.bind (oblivious_loadReserved_disguise _ _ _)
        (fun _ => oblivious_jump_disguise _) b
  | storeConditional =>
      exact Oblivious.bind (oblivious_storeConditional_disguise _ _ _ _)
        (fun _ => oblivious_jump_disguise _) b
  | amo =>
      exact Oblivious.bind (oblivious_atomicUpdate_disguise _ _ _ _ _)
        (fun _ => oblivious_jump_disguise _) b

end Instructions

/-! ## Two boards -/

/-- Boards that agree on everything but the registers that are hidden from a level. -/
def AgreeBut (level : Privilege) (b₁ b₂ : Board) : Prop :=
  b₁.disguise level b₂.hart.csrs = b₂

/-- Boards with the same registers hidden from a level. -/
def SameHidden (level : Privilege) (b₁ b₂ : Board) : Prop :=
  b₂.disguise level b₁.hart.csrs = b₂

lemma agreeBut_disguise (level : Privilege) (other : CsrFile) (b : Board) :
    AgreeBut level b (b.disguise level other) := by
  have hcsrs : (b.disguise level other).hart.csrs = b.hart.csrs.disguise level other := rfl
  rw [AgreeBut, hcsrs]
  simp only [disguise, updateHart, Hart.disguise, CsrFile.disguise_disguise]

lemma disguise_self (level : Privilege) (b : Board) : b.disguise level b.hart.csrs = b := by
  simp only [disguise, updateHart, Hart.disguise, CsrFile.disguise_self]

variable {level : Privilege} {b : Board}

/-- **An instruction below machine level leaves what is hidden from the level alone:** it would not
    even notice it written back. -/
lemma sameHidden_execute (hbelow : level ≠ .machine) (hlevel : b.hart.privilege = level)
    (i : Instruction) (raw : UInt32) (len : UInt64) :
    SameHidden level b (finalState (execute i raw len b)) := by
  have hrun := execute_disguise b.hart.csrs hbelow hlevel i raw len
  rw [disguise_self] at hrun
  have hfinal := congrArg finalState hrun
  rw [finalState_mapState] at hfinal
  exact hfinal.symm

/-- **Below machine level nothing can be learnt of the registers that are hidden from a level.**  On
    two boards that differ in them only, an instruction of that level answers alike or raises the
    same exception; the boards then differ in them only, and have kept what was hidden. -/
theorem hidden_registers_unobservable {b₁ b₂ : Board} (hbelow : level ≠ .machine)
    (hlevel : b₁.hart.privilege = level) (hagree : AgreeBut level b₁ b₂) (i : Instruction)
    (raw : UInt32) (len : UInt64) :
    outcome (execute i raw len b₂) = outcome (execute i raw len b₁) ∧
      AgreeBut level (finalState (execute i raw len b₁)) (finalState (execute i raw len b₂)) ∧
      SameHidden level b₁ (finalState (execute i raw len b₁)) ∧
      SameHidden level b₂ (finalState (execute i raw len b₂)) := by
  have hlevel₂ : b₂.hart.privilege = level := by
    rw [← hagree]
    exact hlevel
  have hrun := execute_disguise b₂.hart.csrs hbelow hlevel i raw len
  rw [hagree] at hrun
  refine ⟨?_, ?_, sameHidden_execute hbelow hlevel i raw len,
    sameHidden_execute hbelow hlevel₂ i raw len⟩
  · rw [hrun, outcome_mapState]
  · rw [hrun, finalState_mapState]
    exact agreeBut_disguise level _ _

/-- A board at supervisor level with a secret in registers of machine level. -/
def keeping (secret : UInt64) : Board where
  hart := { Hart.atReset 0x80000000 with
    privilege := .supervisor
    csrs := { CsrFile.atReset with mscratch := secret, mepc := secret, sscratch := 7 } }
  bus := Bus.ofMemory (Memory.zeroed 0x80000000 0x1000)
  cycles := 0
  lines := Lines.idle

/-- An exchange of the scratch register for that level shows nothing of the one above. -/
theorem keeping_unobservable : ∃ b₁ b₂,
    execute (.csrReg .write Reg.a0 Csr.Register.sscratch.csr Reg.a1) 0 4 (keeping 1) = .ok () b₁ ∧
    execute (.csrReg .write Reg.a0 Csr.Register.sscratch.csr Reg.a1) 0 4 (keeping 2) = .ok () b₂ ∧
    b₁.hart.get Reg.a0 = 7 ∧ b₁.hart.csrs.mscratch = 1 ∧ b₂.hart.csrs.mscratch = 2 ∧
    AgreeBut .supervisor b₁ b₂ :=
  have hbelow : Privilege.supervisor ≠ .machine := by decide
  have hagree : AgreeBut .supervisor (keeping 1) (keeping 2) := rfl
  ⟨_, _, rfl, rfl, rfl, rfl, rfl,
    (hidden_registers_unobservable hbelow rfl hagree
      (.csrReg .write Reg.a0 Csr.Register.sscratch.csr Reg.a1) 0 4).2.1⟩

end Board

end Rv64Board
