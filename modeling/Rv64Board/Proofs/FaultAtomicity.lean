import Rv64Board.Proofs.DataAccess

/-!
# Faulting instructions are atomic

An instruction changes the board in place, and nothing is rolled back when it raises an exception.
Still the handler of the exception finds the board as it was before the instruction: every
instruction asks for all that can fail before it changes anything.

The one exception is the page tables, where the translations of a failed access may have left marks.
`FaultTrace` says how far these go, and `execute_error` finds it after every instruction that
faults.  The argument is the same for all stores: the only accesses that come after a first write
are to addresses that were seen to be backed, so they do not fault (`writeEach_of_backed`,
`write_after_read`).
-/

namespace Rv64Board

namespace Hart

/-- The traces that a faulting instruction may leave on the bus. -/
structure FaultTrace (h : Hart) (i : Instruction) (b b' : Bus) : Prop where
  marked : Memory.Marked b.ram b'.ram
  /-- A byte that has changed is the lowest byte of a leaf that a translation ended at. -/
  changed : ∀ j, b'.ram.byte j ≠ b.ram.byte j → ∃ access address w,
    i.access? h = some (access, address, w) ∧ h.MarkedBy access (byteAddresses address w) b j
  /-- Of a store there is nothing but its translations. -/
  stored : ∀ address w, i.access? h = some (.store, address, w) → h.TranslatedOnly address w b b'

namespace FaultTrace

variable {h : Hart} {i : Instruction} {b b' : Bus} {address : UInt64} {w : Width}

lemma refl (h : Hart) (i : Instruction) (b : Bus) : h.FaultTrace i b b where
  marked := Memory.Marked.refl _
  changed _ hj := absurd rfl hj
  stored address w _ := TranslatedOnly.refl h address w b

lemma of_load (hi : i.access? h = some (.load, address, w)) {e : Exception}
    (hl : h.load address w b = .error e b') : h.FaultTrace i b b' where
  marked := (leaves_ramMarked_load h address w).of_error hl
  changed j hj := by
    refine ⟨.load, address, w, hi, changed_load ?_⟩
    rw [hl]
    exact hj
  stored address' w' hi' := by
    rw [hi] at hi'
    cases hi'

lemma of_store (hi : i.access? h = some (.store, address, w))
    (ht : h.TranslatedOnly address w b b') : h.FaultTrace i b b' where
  marked := ht.marked
  changed j hj := ⟨.store, address, w, hi, ht.changed hj⟩
  stored address' w' hi' := by
    rw [hi] at hi'
    cases hi'
    exact ht

end FaultTrace

end Hart

namespace Board

variable {b b' : Board} {e : Exception}

/-- A board of which only the bus differs, and that by the traces of a faulting instruction. -/
def Faulted (i : Instruction) (b b' : Board) : Prop :=
  b' = { b with bus := b'.bus } ∧ b.hart.FaultTrace i b.bus b'.bus

lemma Faulted.refl (i : Instruction) (b : Board) : Faulted i b b :=
  ⟨rfl, Hart.FaultTrace.refl b.hart i b.bus⟩

/-! ## One instruction after the other -/

section Csrs

variable {op : CsrOp} {csr : Csr} {named : Bool} (rd : Reg) (operand : UInt64) (raw : UInt32)

lemma accessCsr_refused {fault : CsrFault}
    (hcheck : b.hart.csrs.check csr b.hart.privilege (decide (op = .write) || named) =
      .error fault) :
    accessCsr op rd csr operand named raw b = .error (fault.exception raw) b := by
  simp only [accessCsr]
  rw [getHart_bind, hcheck]
  rfl

lemma accessCsr_allowed
    (hcheck : b.hart.csrs.check csr b.hart.privilege (decide (op = .write) || named) = .ok ()) :
    accessCsr op rd csr operand named raw b = .ok () (b.updateHart fun h =>
      { h with
        csrs := if decide (op = CsrOp.write) || named then
            h.csrs.write csr (csrValue op (h.csrs.modifiable csr) operand)
          else h.csrs }.set rd (h.csrs.read csr)) := by
  simp only [accessCsr]
  rw [getHart_bind, hcheck]
  cases decide (op = .write) || named <;> rfl

end Csrs

/-- The two outcomes of a CSR instruction. -/
lemma accessCsr_cases (op : CsrOp) (rd : Reg) (csr : Csr) (operand : UInt64) (named : Bool)
    (raw : UInt32) (b : Board) {writes : Bool}
    (hwrites : writes = (decide (op = .write) || named)) :
    (∃ fault : CsrFault,
      accessCsr op rd csr operand named raw b = .error (fault.exception raw) b) ∨
    (b.hart.csrs.check csr b.hart.privilege writes = .ok () ∧
      accessCsr op rd csr operand named raw b = .ok () (b.updateHart fun h =>
        { h with
          csrs := if writes then
              h.csrs.write csr (csrValue op (h.csrs.modifiable csr) operand)
            else h.csrs }.set rd (h.csrs.read csr))) := by
  subst hwrites
  cases hcheck : b.hart.csrs.check csr b.hart.privilege (decide (op = .write) || named) with
  | error fault => exact Or.inl ⟨fault, accessCsr_refused rd operand raw hcheck⟩
  | ok u => exact Or.inr ⟨rfl, accessCsr_allowed rd operand raw hcheck⟩

lemma loadReserved_error {w : Width} {rd rs1 : Reg}
    (hx : loadReserved w rd rs1 b = .error e b') :
    b' = { b with bus := b'.bus } ∧
      (b'.bus = b.bus ∨ b.hart.load (b.hart.get rs1) w b.bus = .error e b'.bus) := by
  simp only [loadReserved] at hx
  rw [getHart_bind] at hx
  split at hx
  · next ha =>
    rw [Hart.load_of_aligned ha]
    obtain ht | ⟨pa, t, ht, hx⟩ := bind_eq_error hx
    · obtain ⟨ht, hb⟩ := onBus_eq_error.mp ht
      exact ⟨hb, Or.inr (bind_run_error ht _)⟩
    · obtain ⟨ht, hb⟩ := onBus_eq_ok.mp ht
      obtain hr | ⟨v, u, hr, hx⟩ := bind_eq_error hx
      · obtain ⟨hr, hb'⟩ := onBus_eq_error.mp hr
        rw [hb] at hb'
        exact ⟨hb', Or.inr (by rw [bind_run_ok ht]; exact hr)⟩
      · cases hx
  · cases hx
    exact ⟨rfl, Or.inl rfl⟩

lemma storeConditional_error {w : Width} {rd rs1 rs2 : Reg}
    (hx : storeConditional w rd rs1 rs2 b = .error e b') :
    b' = { b with bus := b'.bus } ∧
      b.hart.TranslatedOnly (b.hart.get rs1) w b.bus b'.bus := by
  simp only [storeConditional] at hx
  rw [getHart_bind] at hx
  obtain ha | ⟨pa, t, ha, hx⟩ := bind_eq_error hx
  · obtain ⟨ha, hb⟩ := onBus_eq_error.mp ha
    exact ⟨hb, Hart.atomicAddress_error ha⟩
  · obtain ⟨ha, hb⟩ := onBus_eq_ok.mp ha
    have htr := Hart.TranslatedOnly.of_translate_ok w (Hart.atomicAddress_ok ha).2
    split at hx
    · obtain hw | ⟨_, u, _, hx⟩ := bind_eq_error hx
      · obtain ⟨hw, hb'⟩ := onBus_eq_error.mp hw
        obtain ⟨f, _, hw⟩ := adaptExcept_eq_error.mp hw
        rw [hb] at hb'
        rw [Bus.eq_of_write_error hw]
        exact ⟨by rw [← Bus.eq_of_write_error hw]; exact hb', htr⟩
      · cases hx
    · cases hx

/-- What has been read can be written, so an atomic update that faults has not come to its write. -/
lemma atomicUpdate_error {op : AmoOp} {kind : AmoKind} {rd rs1 rs2 : Reg}
    (hx : atomicUpdate op kind rd rs1 rs2 b = .error e b') :
    b' = { b with bus := b'.bus } ∧
      b.hart.TranslatedOnly (b.hart.get rs1) kind.width b.bus b'.bus := by
  simp only [atomicUpdate] at hx
  rw [getHart_bind] at hx
  obtain ha | ⟨pa, t, ha, hx⟩ := bind_eq_error hx
  · obtain ⟨ha, hb⟩ := onBus_eq_error.mp ha
    exact ⟨hb, Hart.atomicAddress_error ha⟩
  · obtain ⟨ha, hb⟩ := onBus_eq_ok.mp ha
    have htr := Hart.TranslatedOnly.of_translate_ok kind.width (Hart.atomicAddress_ok ha).2
    obtain hr | ⟨v, u, hr, hx⟩ := bind_eq_error hx
    · obtain ⟨hr, hb'⟩ := onBus_eq_error.mp hr
      obtain ⟨f, _, hr⟩ := adaptExcept_eq_error.mp hr
      rw [hb] at hb'
      rw [Bus.eq_of_read_error hr]
      exact ⟨by rw [← Bus.eq_of_read_error hr]; exact hb', htr⟩
    · obtain ⟨hr, _⟩ := onBus_eq_ok.mp hr
      rw [adaptExcept_eq_ok] at hr
      obtain hw | ⟨_, _, _, hx⟩ := bind_eq_error hx
      · -- this is the fault that cannot be
        obtain ⟨hw, _⟩ := onBus_eq_error.mp hw
        obtain ⟨f, _, hw⟩ := adaptExcept_eq_error.mp hw
        obtain ⟨c, hw'⟩ := Bus.write_after_read hr (op.eval kind (signExtend kind.width v)
          (b.hart.get rs2))
        rw [hw'] at hw
        cases hw
      · cases hx

/-- **What is left of an instruction that faults.** -/
lemma execute_error {i : Instruction} {raw : UInt32} {len : UInt64}
    (hx : execute i raw len b = .error e b') : Faulted i b b' := by
  unfold execute at hx
  rw [getHart_bind] at hx
  cases i with
  | lui | auipc | jal | jalr | opImm | opReg | fence | fenceI => cases hx
  | branch cond rs1 rs2 offset =>
      simp only at hx
      split at hx <;> cases hx
  | ecall | ebreak =>
      cases hx
      exact Faulted.refl _ b
  | mret | sret | wfi | sfenceVma =>
      -- these refuse before they change anything
      simp only at hx
      split at hx <;> cases hx
      exact Faulted.refl _ b
  | load kind rd rs1 offset =>
      obtain hl | ⟨v, t, _, hx⟩ := bind_eq_error hx
      · obtain ⟨hl, hb⟩ := onBus_eq_error.mp hl
        exact ⟨hb, Hart.FaultTrace.of_load rfl hl⟩
      · cases hx
  | store kind rs1 rs2 offset =>
      obtain hs | ⟨_, t, _, hx⟩ := bind_eq_error hx
      · obtain ⟨hs, hb⟩ := onBus_eq_error.mp hs
        exact ⟨hb, Hart.FaultTrace.of_store rfl (Hart.store_error hs)⟩
      · cases hx
  | csrReg op rd csr rs1 =>
      obtain hc | ⟨_, t, _, hx⟩ := bind_eq_error hx
      · rcases accessCsr_cases op rd csr _ _ raw b rfl with ⟨fault, hr⟩ | ⟨_, hr⟩ <;>
          rw [hr] at hc <;> cases hc
        exact Faulted.refl _ b
      · cases hx
  | csrImm op rd csr uimm =>
      obtain hc | ⟨_, t, _, hx⟩ := bind_eq_error hx
      · rcases accessCsr_cases op rd csr _ _ raw b rfl with ⟨fault, hr⟩ | ⟨_, hr⟩ <;>
          rw [hr] at hc <;> cases hc
        exact Faulted.refl _ b
      · cases hx
  | loadReserved kind rd rs1 =>
      obtain hl | ⟨_, t, _, hx⟩ := bind_eq_error hx
      · obtain ⟨hb, hbus | hload⟩ := loadReserved_error hl
        · rw [hb, hbus]
          exact Faulted.refl _ b
        · exact ⟨hb, Hart.FaultTrace.of_load rfl hload⟩
      · cases hx
  | storeConditional kind rd rs1 rs2 =>
      obtain hs | ⟨_, t, _, hx⟩ := bind_eq_error hx
      · obtain ⟨hb, ht⟩ := storeConditional_error hs
        exact ⟨hb, Hart.FaultTrace.of_store rfl ht⟩
      · cases hx
  | amo op kind rd rs1 rs2 =>
      obtain hs | ⟨_, t, _, hx⟩ := bind_eq_error hx
      · obtain ⟨hb, ht⟩ := atomicUpdate_error hs
        exact ⟨hb, Hart.FaultTrace.of_store rfl ht⟩
      · cases hx

/-! ## The board that a handler finds -/

/-- **Faulting instructions are atomic.**  After an exception the hart, the cycle count and the
    lines are what they were, and so is memory, except that the lowest bytes of leaf entries which
    translations ended at may have gained accessed and dirty bits.  Of a store, whether plain,
    conditional or part of an update, there is nothing but its translations, in memory or in a
    device.  The last two parts say why: neither the writes of a row that is backed nor the write
    that follows a read can fault. -/
theorem faulting_instruction_atomic {i : Instruction} {raw : UInt32} {len : UInt64} {b b' : Board}
    {e : Exception} (hx : execute i raw len b = .error e b') :
    (b'.hart = b.hart ∧ b'.cycles = b.cycles ∧ b'.lines = b.lines) ∧
    (b'.bus.ram.base = b.bus.ram.base ∧ b'.bus.ram.size = b.bus.ram.size ∧
      ∀ j, b'.bus.ram.byte j = b.bus.ram.byte j ∨
        Gains (b.bus.ram.byte j) (b'.bus.ram.byte j) ∧ ∃ access address w,
          i.access? b.hart = some (access, address, w) ∧
            b.hart.MarkedBy access (Hart.byteAddresses address w) b.bus j) ∧
    (∀ address w, i.access? b.hart = some (.store, address, w) →
      b.hart.TranslatedOnly address w b.bus b'.bus) ∧
    (∀ fault row c, (∀ p ∈ row, Bus.contains c p.1 1 = true) →
      ∃ c', Hart.writeEach fault row c = .ok () c') ∧
    (∀ address w value v c c', Bus.read address w c = .ok v c' →
      ∃ c'', Bus.write address w value c' = .ok () c'') := by
  obtain ⟨hb, htrace⟩ := execute_error hx
  refine ⟨?_, ⟨htrace.marked.base, htrace.marked.size, fun j => ?_⟩, htrace.stored, ?_, ?_⟩
  · rw [hb]
    exact ⟨rfl, rfl, rfl⟩
  · by_cases hj : b'.bus.ram.byte j = b.bus.ram.byte j
    · exact Or.inl hj
    · exact Or.inr ⟨htrace.marked.gains j, htrace.changed j hj⟩
  · exact fun fault row c hbacked => Hart.writeEach_of_backed fault row c hbacked
  · exact fun address w value v c c' hread => Bus.write_after_read hread value

/-- A board at supervisor level with one leaf entry in its root table, which maps the lowest
    gigabyte onto itself, and an address four bytes below the end of it. -/
def crossing : Board where
  hart := { Hart.atReset 0 with
    privilege := .supervisor
    csrs := { CsrFile.atReset with satp := 0x8000000000080000 } }.set Reg.a0 0x3FFFFFFC
  bus := Bus.ofMemory ((Memory.zeroed 0x80000000 0x1000).store 0x80000000 .double 0x7)
  cycles := 0
  lines := Lines.idle

/-- A store across the end of what is mapped faults at its fifth byte.  The first four have marked
    the entry of their page, and that is all. -/
theorem crossing_store_atomic : ∃ b',
    execute (.store .d Reg.a0 Reg.a1 0) 0 4 crossing = .error (.storePageFault 0x40000000) b' ∧
    b'.hart = crossing.hart ∧ crossing.bus.ram.byte 0 = 0x07 ∧ b'.bus.ram.byte 0 = 0xC7 ∧
    crossing.hart.TranslatedOnly 0x3FFFFFFC .double crossing.bus b'.bus := by
  have hx : execute (.store .d Reg.a0 Reg.a1 0) 0 4 crossing =
      .error (.storePageFault 0x40000000)
        (finalState (execute (.store .d Reg.a0 Reg.a1 0) 0 4 crossing)) := rfl
  have hatomic := faulting_instruction_atomic hx
  exact ⟨_, hx, hatomic.1.1, rfl, rfl, hatomic.2.2.1 _ _ rfl⟩

end Board

end Rv64Board
