import Rv64Board.Proofs.FaultAtomicity

/-!
# What instructions do to the CSR file and the level

Most instructions do nothing to them.  The others write a register that their level may write, or
return from a handler.

* `SameOutside` — two words that differ at most within a mask.
* `Confined` — a CSR file before and after something that the supervisor did.
* `confined_write`, `confined_sret` — the two ways in which an instruction of the supervisor changes
  the file are confined.
* `execute_ok_cases` — **these and the return from machine level are the only ways at all.**
  `execute_user` and `execute_supervisor` are what it comes to at the two lower levels.
-/

namespace Rv64Board

/-! ## Words that differ within a mask -/

/-- Two words that have the same bits outside of a mask. -/
def SameOutside (mask x y : UInt64) : Prop := y &&& ~~~mask = x &&& ~~~mask

namespace SameOutside

lemma refl (mask x : UInt64) : SameOutside mask x x := rfl

lemma trans {mask x y z : UInt64} (hxy : SameOutside mask x y) (hyz : SameOutside mask y z) :
    SameOutside mask x z := Eq.trans hyz hxy

lemma iff_bits {mask x y : UInt64} :
    SameOutside mask x y ↔ ∀ i (_ : i < 64), mask.toBitVec[i] = false →
      y.toBitVec[i] = x.toBitVec[i] := by
  rw [SameOutside, ← UInt64.toBitVec_inj, UInt64.toBitVec_and, UInt64.toBitVec_and,
    UInt64.toBitVec_not]
  constructor
  · intro h i hi hmask
    have hbit := congrArg (fun v => v[i]) h
    simpa [hmask] using hbit
  · intro h
    refine BitVec.eq_of_getElem_eq fun i hi => ?_
    cases hmask : mask.toBitVec[i] with
    | false => simp [hmask, h i hi hmask]
    | true => simp [hmask]

/-- A flag outside of the mask is the same in both words. -/
lemma and_eq {mask x y : UInt64} (h : SameOutside mask x y) {flag : UInt64}
    (hflag : mask &&& flag = 0) : y &&& flag = x &&& flag := by
  rw [iff_bits] at h
  rw [← UInt64.toBitVec_inj, UInt64.toBitVec_and] at hflag ⊢
  rw [UInt64.toBitVec_and]
  refine BitVec.eq_of_getElem_eq fun i hi => ?_
  have hbit := congrArg (fun v => v[i]) hflag
  cases hmask : mask.toBitVec[i] with
  | false => simp [h i hi hmask]
  | true =>
      have hoff : flag.toBitVec[i] = false := by simpa [hmask] using hbit
      simp [hoff]

lemma test_eq {mask : UInt64} {s s' : Mstatus} (h : SameOutside mask s.bits s'.bits)
    {flag : UInt64} (hflag : mask &&& flag = 0) : s'.test flag = s.test flag := by
  rw [Mstatus.test, Mstatus.test, h.and_eq hflag]

lemma bit_of_subset {mask bits : UInt64} (hbits : bits ||| mask = mask) {i : Nat} (hi : i < 64)
    (hmask : mask.toBitVec[i] = false) : bits.toBitVec[i] = false := by
  rw [← UInt64.toBitVec_inj, UInt64.toBitVec_or] at hbits
  have hbit := congrArg (fun v => v[i]) hbits
  simpa [hmask] using hbit

/-- Taking bits from a value changes a word within any mask that has these bits. -/
lemma merged {mask bits : UInt64} (hbits : bits ||| mask = mask) (x value : UInt64) :
    SameOutside mask x ((x &&& ~~~bits) ||| (value &&& bits)) := by
  rw [iff_bits]
  intro i hi hmask
  simp [bit_of_subset hbits hi hmask]

/-- So does setting or clearing them. -/
lemma assign {mask bits : UInt64} (hbits : bits ||| mask = mask) (s : Mstatus) (on : Bool) :
    SameOutside mask s.bits (s.assign bits on).bits := by
  rw [iff_bits]
  intro i hi hmask
  cases on <;> simp [Mstatus.assign, bit_of_subset hbits hi hmask]

end SameOutside

/-! ## Who may write what -/

namespace Csr

/-- A number leads to a register of that number. -/
lemma eq_csr_of_register? {c : Csr} {r : Register} (h : c.register? = some r) : c = r.csr := by
  suffices hn : r.number = c.number by
    rw [Register.csr, hn]
  rw [register?, Option.orElse_eq_some] at h
  rcases h with h | ⟨_, h⟩
  · simpa using List.find?_some h
  · obtain ⟨family, _, hf⟩ := List.exists_of_findSome?_eq_some h
    rw [Family.withNumber?] at hf
    split at hf
    · next hle =>
      rw [Family.member?] at hf
      split at hf
      · cases hf
        simp only [Register.number, UInt16.ofNat_toNat]
        rw [UInt16.add_comm, UInt16.sub_add_cancel]
      · cases hf
    · cases hf

/-- The registers that the supervisor can write. -/
def supervisorRegisters : List Register :=
  [.sstatus, .sie, .stvec, .scounteren, .senvcfg, .sscratch, .sepc, .scause, .stval, .sip,
    .stimecmp, .satp]

lemma mem_supervisorRegisters {r : Register} (hlevel : ¬Privilege.supervisor < r.csr.privilege)
    (hwritable : r.csr.isReadOnly = false) : r ∈ supervisorRegisters := by
  cases r with
  | member family i =>
      cases family <;> revert i hlevel hwritable <;> decide
  | _ =>
      revert hlevel hwritable
      decide

/-- No register can be written at user level. -/
lemma isReadOnly_of_user {r : Register} (hlevel : ¬Privilege.user < r.csr.privilege) :
    r.csr.isReadOnly = true := by
  cases r with
  | member family i =>
      cases family <;> revert i hlevel <;> decide
  | _ =>
      revert hlevel
      decide

end Csr

namespace CsrFile

/-- A write that is allowed goes to a register that exists, that the level reaches, that can be
    written and that is not switched off. -/
lemma check_eq_ok {f : CsrFile} {c : Csr} {level : Privilege} (h : f.check c level true = .ok ()) :
    ∃ r : Csr.Register, c.register? = some r ∧ c = r.csr ∧ ¬level < r.csr.privilege ∧
      r.csr.isReadOnly = false ∧ f.switchedOff r.csr level = false := by
  rw [check] at h
  split at h
  · cases h
  split at h
  · cases h
  split at h
  · cases h
  split at h
  · cases h
  · next hnone hlevel hreadOnly hoff =>
    obtain ⟨r, hr⟩ := Option.ne_none_iff_exists'.mp (by simpa using hnone)
    obtain rfl := Csr.eq_csr_of_register? hr
    exact ⟨r, hr, rfl, hlevel, by simpa using hreadOnly, by simpa using hoff⟩

lemma switchedOff_stimecmp (f : CsrFile) :
    f.switchedOff Csr.Register.stimecmp.csr .supervisor = (f.menvcfg &&& timerEnable == 0) := rfl

lemma switchedOff_satp (f : CsrFile) :
    f.switchedOff Csr.Register.satp.csr .supervisor = f.mstatus.test Mstatus.tvm := rfl

/-! ## What the supervisor cannot do -/

/-- The part of the file that belongs to machine level alone. -/
def machineOwned (f : CsrFile) :=
  (f.medeleg, f.mideleg, f.mtvec, f.mepc, f.mcause, f.mtval, f.mscratch, f.mcounteren,
    f.mcountinhibit, f.menvcfg, f.mcycle, f.minstret, f.time, f.hardwareMip, f.pmpcfg, f.pmpaddr)

/-- A CSR file before and after something that the supervisor was allowed to do. -/
structure Confined (f f' : CsrFile) : Prop where
  machineOwned : f'.machineOwned = f.machineOwned
  /-- Interrupts can be enabled and disabled if they are delegated. -/
  mie : SameOutside f.mideleg f.mie f'.mie
  /-- Of the pending bits there is only that of the software interrupt, if it is delegated. -/
  mip : SameOutside (f.mideleg &&& Interrupt.supervisorSoftware.mask) f.mip f'.mip
  stimecmp : f'.stimecmp ≠ f.stimecmp → f.menvcfg &&& timerEnable ≠ 0
  satp : f'.satp ≠ f.satp → f.mstatus.test Mstatus.tvm = false
  mstatus : SameOutside (Mstatus.supervisorWritable ||| Mstatus.mprv) f.mstatus.bits f'.mstatus.bits
  /-- That switch can be turned off, but not on. -/
  mprv : f'.mstatus.test Mstatus.mprv = true → f.mstatus.test Mstatus.mprv = true

/-- Nothing has happened that would have to be confined. -/
lemma Confined.of_eq {f f' : CsrFile} (howned : f'.machineOwned = f.machineOwned)
    (hmie : f'.mie = f.mie) (hmip : f'.mip = f.mip) (hstimecmp : f'.stimecmp = f.stimecmp)
    (hsatp : f'.satp = f.satp) (hmstatus : f'.mstatus = f.mstatus) : Confined f f' where
  machineOwned := howned
  mie := by rw [hmie]; exact SameOutside.refl _ _
  mip := by rw [hmip]; exact SameOutside.refl _ _
  stimecmp h := absurd hstimecmp h
  satp h := absurd hsatp h
  mstatus := by rw [hmstatus]; exact SameOutside.refl _ _
  mprv h := by rwa [hmstatus] at h

lemma Confined.refl (f : CsrFile) : Confined f f := of_eq rfl rfl rfl rfl rfl rfl

/-- **What the supervisor writes is confined.** -/
lemma confined_write {f : CsrFile} {c : Csr} (h : f.check c .supervisor true = .ok ())
    (value : UInt64) : Confined f (f.write c value) := by
  obtain ⟨r, hr, rfl, hlevel, hwritable, hon⟩ := check_eq_ok h
  have hmem := Csr.mem_supervisorRegisters hlevel hwritable
  simp only [write, hr]
  cases r with
  | stvec | scounteren | senvcfg | sscratch | sepc | scause | stval =>
      -- these belong to the supervisor
      exact Confined.of_eq rfl rfl rfl rfl rfl rfl
  | sstatus =>
      have hkept : SameOutside Mstatus.supervisorWritable f.mstatus.bits
          (f.mstatus.merge Mstatus.supervisorWritable value).bits :=
        SameOutside.merged (by decide) _ _
      exact { Confined.refl f with
        machineOwned := rfl
        mstatus := SameOutside.merged (by decide) _ _
        mprv := fun hon => by rwa [← hkept.test_eq (by decide)] }
  | sie =>
      exact { Confined.refl f with
        machineOwned := rfl
        mie := SameOutside.merged UInt64.or_self _ _ }
  | sip =>
      exact { Confined.refl f with
        machineOwned := rfl
        mip := SameOutside.merged UInt64.or_self _ _ }
  | stimecmp =>
      exact { Confined.refl f with
        machineOwned := rfl
        stimecmp := fun _ => by
          rw [switchedOff_stimecmp] at hon
          simpa using hon }
  | satp =>
      simp only [writeRegister]
      split
      · exact { Confined.refl f with
          machineOwned := rfl
          satp := fun _ => by rwa [switchedOff_satp] at hon }
      · exact Confined.refl f
  | _ => exact absurd hmem (by simp [Csr.supervisorRegisters])

/-- At user level nothing can be written. -/
lemma check_user_ne_ok (f : CsrFile) (c : Csr) : f.check c .user true ≠ .ok () := by
  intro h
  obtain ⟨r, _, _, hlevel, hwritable, _⟩ := check_eq_ok h
  rw [Csr.isReadOnly_of_user hlevel] at hwritable
  cases hwritable

end CsrFile

namespace Mstatus

lemma test_assign_false (s : Mstatus) {mask : UInt64} (hmask : mask ≠ 0) :
    (s.assign mask false).test mask = false := by
  have hcleared : s.bits &&& ~~~mask &&& mask = 0 := by
    rw [UInt64.and_assoc, UInt64.and_comm (~~~mask), UInt64.and_not_self, UInt64.and_zero]
  rw [test, assign, if_neg Bool.false_ne_true, hcleared]
  simpa using hmask.symm

end Mstatus

namespace Hart

/-- **So is what a return from a handler of the supervisor does.** -/
lemma confined_sret (h : Hart) : CsrFile.Confined h.csrs h.sret.csrs := by
  have hclears : h.sret.csrs.mstatus.test Mstatus.mprv = false :=
    Mstatus.test_assign_false _ (by decide)
  refine { CsrFile.Confined.refl h.csrs with
    machineOwned := rfl
    mstatus := ?_
    mprv := fun hon => absurd hon (by rw [hclears]; exact Bool.false_ne_true) }
  exact (((SameOutside.assign (by decide) _ _).trans (SameOutside.assign (by decide) _ _)).trans
    (SameOutside.assign (by decide) _ _)).trans (SameOutside.assign (by decide) _ _)

lemma sret_privilege (h : Hart) : h.sret.privilege = .supervisor ∨ h.sret.privilege = .user := by
  simp only [sret]
  split
  · exact Or.inl rfl
  · exact Or.inr rfl

end Hart

/-! ## What an instruction does to the file and the level -/

namespace Board

/-- Two boards with the same CSR file, at the same level. -/
structure SameSystem (b b' : Board) : Prop where
  csrs : b'.hart.csrs = b.hart.csrs
  privilege : b'.hart.privilege = b.hart.privilege

instance : IsPreorder Board SameSystem where
  refl _ := ⟨rfl, rfl⟩
  trans _ _ _ hab hbc := ⟨hbc.csrs.trans hab.csrs, hbc.privilege.trans hab.privilege⟩

lemma leaves_sameSystem_getHart : Leaves SameSystem getHart := fun _ => ⟨rfl, rfl⟩

lemma leaves_sameSystem_onBus {α : Type} (x : EStateM Exception Bus α) :
    Leaves SameSystem (onBus x) := by
  intro b
  rw [onBus]
  cases x b.bus <;> exact ⟨rfl, rfl⟩

lemma leaves_sameSystem_setRegister (rd : Reg) (value : UInt64) :
    Leaves SameSystem (setRegister rd value) := fun _ => ⟨rfl, rfl⟩

lemma leaves_sameSystem_jump (target : UInt64) : Leaves SameSystem (jump target) :=
  fun _ => ⟨rfl, rfl⟩

/-- Most instructions do one thing and go on to the next instruction. -/
lemma leaves_sameSystem_then_jump {x : EStateM Exception Board Unit} (hx : Leaves SameSystem x)
    (target : UInt64) : Leaves SameSystem (do x; jump target) :=
  Leaves.bind hx fun _ => leaves_sameSystem_jump target

lemma leaves_sameSystem_reserve (reservation : Option UInt64) :
    Leaves SameSystem (modifyHart fun h => { h with reservation }) := fun _ => ⟨rfl, rfl⟩

lemma leaves_sameSystem_loadReserved (w : Width) (rd rs1 : Reg) :
    Leaves SameSystem (loadReserved w rd rs1) := by
  refine Leaves.bind leaves_sameSystem_getHart fun h => ?_
  simp only
  split
  · refine Leaves.bind (leaves_sameSystem_onBus _) fun pa => ?_
    refine Leaves.bind (leaves_sameSystem_onBus _) fun v => ?_
    exact Leaves.bind (leaves_sameSystem_reserve _) fun _ => leaves_sameSystem_setRegister _ _
  · exact Leaves.throw _

lemma leaves_sameSystem_storeConditional (w : Width) (rd rs1 rs2 : Reg) :
    Leaves SameSystem (storeConditional w rd rs1 rs2) := by
  refine Leaves.bind leaves_sameSystem_getHart fun h => ?_
  refine Leaves.bind (leaves_sameSystem_onBus _) fun pa => ?_
  have hrest (value : UInt64) : Leaves SameSystem (do
      modifyHart fun h => { h with reservation := none }
      setRegister rd value) :=
    Leaves.bind (leaves_sameSystem_reserve none) fun _ => leaves_sameSystem_setRegister _ _
  simp only
  split
  · exact Leaves.bind (leaves_sameSystem_onBus _) fun _ => hrest _
  · exact hrest _

lemma leaves_sameSystem_atomicUpdate (op : AmoOp) (kind : AmoKind) (rd rs1 rs2 : Reg) :
    Leaves SameSystem (atomicUpdate op kind rd rs1 rs2) := by
  refine Leaves.bind leaves_sameSystem_getHart fun h => ?_
  refine Leaves.bind (leaves_sameSystem_onBus _) fun pa => ?_
  refine Leaves.bind (leaves_sameSystem_onBus _) fun v => ?_
  refine Leaves.bind (leaves_sameSystem_onBus _) fun _ => ?_
  exact leaves_sameSystem_setRegister _ _

/-- A write to a register that the level of the hart may write. -/
def WroteCsr (b b' : Board) : Prop :=
  ∃ csr value, b.hart.csrs.check csr b.hart.privilege true = .ok () ∧
    b'.hart.csrs = b.hart.csrs.write csr value ∧ b'.hart.privilege = b.hart.privilege

lemma accessCsr_ok {op : CsrOp} {rd : Reg} {csr : Csr} {operand : UInt64} {named : Bool}
    {raw : UInt32} {b b' : Board} (hx : accessCsr op rd csr operand named raw b = .ok () b') :
    SameSystem b b' ∨ WroteCsr b b' := by
  rcases accessCsr_cases op rd csr operand named raw b rfl with ⟨fault, hr⟩ | ⟨hcheck, hr⟩
  · rw [hr] at hx
    cases hx
  · rw [hr] at hx
    cases hx
    cases hwrites : decide (op = .write) || named with
    | false => exact Or.inl ⟨rfl, rfl⟩
    | true =>
        rw [hwrites] at hcheck
        exact Or.inr ⟨csr, _, hcheck, rfl, rfl⟩

/-- **The ways in which an instruction can change the CSR file or the level:** by a return from a
    handler, or by a write that is allowed. -/
lemma execute_ok_cases {i : Instruction} {raw : UInt32} {len : UInt64} {b b' : Board}
    (hx : execute i raw len b = .ok () b') :
    SameSystem b b' ∨ (b.hart.privilege = .machine ∧ b'.hart = b.hart.mret) ∨
    (b.hart.privilege ≠ .user ∧ b'.hart = b.hart.sret) ∨ WroteCsr b b' := by
  unfold execute at hx
  rw [getHart_bind] at hx
  have hcsr {op : CsrOp} {rd : Reg} {csr : Csr} {operand : UInt64} {named : Bool} {target : UInt64}
      (hx : (do accessCsr op rd csr operand named raw; jump target) b = .ok () b') :
      SameSystem b b' ∨ WroteCsr b b' := by
    obtain ⟨_, t, haccess, hjump⟩ := bind_eq_ok hx
    cases hjump
    rcases accessCsr_ok haccess with hsame | ⟨csr, value, hcheck, hwrite, hlevel⟩
    · exact Or.inl ⟨hsame.csrs, hsame.privilege⟩
    · exact Or.inr ⟨csr, value, hcheck, hwrite, hlevel⟩
  cases i with
  | lui | auipc | jal | jalr | opImm | opReg =>
      exact Or.inl ((leaves_sameSystem_then_jump (leaves_sameSystem_setRegister _ _) _).of_ok hx)
  | branch cond rs1 rs2 offset =>
      simp only at hx
      split at hx <;> exact Or.inl ((leaves_sameSystem_jump _).of_ok hx)
  | fence | fenceI => exact Or.inl ((leaves_sameSystem_jump _).of_ok hx)
  | ecall | ebreak => cases hx
  | load kind rd rs1 offset =>
      exact Or.inl ((Leaves.bind (leaves_sameSystem_onBus _) fun _ =>
        leaves_sameSystem_then_jump (leaves_sameSystem_setRegister _ _) _).of_ok hx)
  | store kind rs1 rs2 offset =>
      exact Or.inl ((leaves_sameSystem_then_jump (leaves_sameSystem_onBus _) _).of_ok hx)
  | loadReserved kind rd rs1 =>
      have hleaves := leaves_sameSystem_loadReserved kind.width rd rs1
      exact Or.inl ((leaves_sameSystem_then_jump hleaves _).of_ok hx)
  | storeConditional kind rd rs1 rs2 =>
      have hleaves := leaves_sameSystem_storeConditional kind.width rd rs1 rs2
      exact Or.inl ((leaves_sameSystem_then_jump hleaves _).of_ok hx)
  | amo op kind rd rs1 rs2 =>
      have hleaves := leaves_sameSystem_atomicUpdate op kind rd rs1 rs2
      exact Or.inl ((leaves_sameSystem_then_jump hleaves _).of_ok hx)
  | wfi | sfenceVma =>
      simp only at hx
      split at hx
      · cases hx
      · exact Or.inl ((leaves_sameSystem_jump _).of_ok hx)
  | mret =>
      simp only at hx
      split at hx
      · cases hx
      · next hlevel =>
        cases hx
        refine Or.inr (Or.inl ⟨?_, rfl⟩)
        revert hlevel
        cases b.hart.privilege <;> decide
  | sret =>
      simp only at hx
      split at hx
      · cases hx
      · next hallowed =>
        cases hx
        refine Or.inr (Or.inr (Or.inl ⟨fun huser => hallowed ?_, rfl⟩))
        simp [Hart.forbidden, huser]
  | csrReg op rd csr rs1 => exact (hcsr hx).imp_right fun h => Or.inr (Or.inr h)
  | csrImm op rd csr uimm => exact (hcsr hx).imp_right fun h => Or.inr (Or.inr h)

/-- What an instruction of the user leaves alone. -/
lemma execute_user {i : Instruction} {raw : UInt32} {len : UInt64} {b b' : Board}
    (hx : execute i raw len b = .ok () b') (huser : b.hart.privilege = .user) :
    SameSystem b b' := by
  rcases execute_ok_cases hx with hsame | ⟨hm, _⟩ | ⟨hnot, _⟩ | ⟨csr, value, hcheck, _⟩
  · exact hsame
  · rw [huser] at hm
    cases hm
  · exact absurd huser hnot
  · rw [huser] at hcheck
    exact absurd hcheck (CsrFile.check_user_ne_ok _ _)

/-- What an instruction of the supervisor can do. -/
lemma execute_supervisor {i : Instruction} {raw : UInt32} {len : UInt64} {b b' : Board}
    (hx : execute i raw len b = .ok () b') (hs : b.hart.privilege = .supervisor) :
    (b'.hart.privilege = .supervisor ∨ b'.hart.privilege = .user) ∧
      CsrFile.Confined b.hart.csrs b'.hart.csrs := by
  rcases execute_ok_cases hx with hsame | ⟨hm, _⟩ | ⟨_, hret⟩ | ⟨csr, value, hcheck, hwrite, hlevel⟩
  · rw [hsame.csrs, hsame.privilege]
    exact ⟨Or.inl hs, CsrFile.Confined.refl _⟩
  · rw [hs] at hm
    cases hm
  · rw [hret]
    exact ⟨b.hart.sret_privilege, b.hart.confined_sret⟩
  · rw [hs] at hcheck hlevel
    rw [hwrite]
    exact ⟨Or.inl hlevel, CsrFile.confined_write hcheck value⟩

end Board

end Rv64Board
