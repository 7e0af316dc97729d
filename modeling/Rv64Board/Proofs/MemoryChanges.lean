import Rv64Board.Proofs.FaultAtomicity

/-!
# What an instruction changes in memory

Whether an instruction completes or faults, a byte of memory that it changes is one that a
translation marked, or one that a store was translated to.

* `Hart.Wrote` — a byte that the translation of a store leads to.
* `Hart.StoreTrace` — the two reasons for a change, after an instruction that stores.
* `store_trace`, `storeConditional_trace`, `atomicUpdate_trace` — the three kinds of stores leave
  such traces.
* `execute_changes` — **so does every instruction.**
-/

namespace Rv64Board

namespace Hart

/-- A store of some bytes leads to this byte of memory.  One of its addresses, once those before it
    have been translated, is translated to the address of the byte, or, if the store is aligned, its
    first address is translated to that of a byte as far below as it takes. -/
def Wrote (h : Hart) (address : UInt64) (w : Width) (b : Bus) (j : Nat) : Prop :=
  ∃ earlier va later, byteAddresses address w = earlier ++ va :: later ∧
    ∃ found c pa c' k, h.translateAll .store earlier b = .ok found c ∧
      h.translate .store va c = .ok pa c' ∧ b.ram.base.toNat + j = pa.toNat + k ∧
      (k = 0 ∨ va = address ∧ w.aligned address = true ∧ k < w.bytes)

/-- The changes that a store may leave. -/
def StoreTrace (h : Hart) (address : UInt64) (w : Width) (b b' : Bus) : Prop :=
  ∀ j, b'.ram.byte j ≠ b.ram.byte j →
    h.Wrote address w b j ∨
      h.MarkedBy .store (byteAddresses address w) b j ∧ Gains (b.ram.byte j) (b'.ram.byte j)

/-- The changes that a load may leave. -/
def LoadTrace (h : Hart) (address : UInt64) (w : Width) (b b' : Bus) : Prop :=
  ∀ j, b'.ram.byte j ≠ b.ram.byte j →
    h.MarkedBy .load (byteAddresses address w) b j ∧ Gains (b.ram.byte j) (b'.ram.byte j)

variable {h : Hart} {address : UInt64} {w : Width} {b b' c : Bus}

/-! ## Stores that have only been translated -/

lemma TranslatedOnly.trace (ht : h.TranslatedOnly address w b c) {j : Nat}
    (hj : c.ram.byte j ≠ b.ram.byte j) :
    h.MarkedBy .store (byteAddresses address w) b j ∧ Gains (b.ram.byte j) (c.ram.byte j) :=
  ⟨ht.changed hj, ht.marked.gains j⟩

lemma TranslatedOnly.storeTrace (ht : h.TranslatedOnly address w b c) (hram : b'.ram = c.ram) :
    h.StoreTrace address w b b' := by
  intro j hj
  rw [hram] at hj ⊢
  exact Or.inr (ht.trace hj)

/-! ## Aligned stores -/

/-- The write of an aligned store, once its address has been translated. -/
lemma storeTrace_write (ha : w.aligned address = true) {pa : UInt64}
    (ht : h.translate .store address b = .ok pa c) {d : Bus} (hram : d.ram = c.ram)
    (value : UInt64) : h.StoreTrace address w b (finalState (Bus.write pa w value d)) := by
  have htranslated := TranslatedOnly.of_translate_ok w ht
  rcases Bus.write_cases pa w value d with
    ⟨hin, hw⟩ | ⟨_, _, b', hw, hsame, _⟩ | ⟨_, hw⟩ <;> rw [hw]
  · intro j hj
    rw [finalState_ok] at hj ⊢
    simp only at hj ⊢
    rw [Memory.byte_store hin, hram] at hj
    rw [Memory.byte_store hin, hram]
    split at hj
    · next hrange =>
      left
      obtain ⟨later, hrow⟩ := byteAddresses_eq_cons address w
      have hbase : c.ram.base = b.ram.base := htranslated.marked.base
      rw [hram] at hin
      have hpa := Memory.base_add_offset hin
      rw [hbase] at hpa
      exact ⟨[], address, later, hrow, [], b, pa, c, j - c.ram.offset pa, rfl, ht, by omega,
        Or.inr ⟨rfl, ha, by omega⟩⟩
    · next hrange =>
      rw [if_neg hrange]
      exact Or.inr (htranslated.trace hj)
  · exact htranslated.storeTrace (hsame.trans hram)
  · exact htranslated.storeTrace hram

/-! ## Misaligned stores -/

lemma translateAll_mem {access : Access} {row found : List UInt64} {pa : UInt64}
    (ht : h.translateAll access row b = .ok found c) (hpa : pa ∈ found) :
    ∃ earlier va later, row = earlier ++ va :: later ∧
      ∃ before t t', h.translateAll access earlier b = .ok before t ∧
        h.translate access va t = .ok pa t' := by
  induction row generalizing b found with
  | nil =>
      cases ht
      cases hpa
  | cons a row ih =>
      simp only [translateAll] at ht
      obtain ⟨pa₀, t, hone, ht⟩ := bind_eq_ok ht
      obtain ⟨rest, t', hrest, ht⟩ := bind_eq_ok ht
      cases ht
      rcases List.mem_cons.mp hpa with rfl | hpa
      · exact ⟨[], a, row, rfl, [], b, t, rfl, hone⟩
      · obtain ⟨earlier, va, later, rfl, before, u, u', hrun, hva⟩ := ih hrest hpa
        refine ⟨a :: earlier, va, later, rfl, pa₀ :: before, u, u', ?_, hva⟩
        simp only [translateAll]
        rw [bind_run_ok hone, bind_run_ok hrun]
        rfl

lemma changed_writeEach {fault : Exception} {row : List (UInt64 × UInt8)} {j : Nat}
    (hj : (finalState (writeEach fault row b)).ram.byte j ≠ b.ram.byte j) :
    ∃ p ∈ row, b.ram.base.toNat + j = p.1.toNat := by
  induction row generalizing b with
  | nil => exact absurd rfl hj
  | cons p row ih =>
      obtain ⟨a, v⟩ := p
      rw [writeEach] at hj
      -- the byte is changed by this write or by those after it
      rcases Bus.write_cases a .byte v.toUInt64 b with
        ⟨hin, hw⟩ | ⟨_, _, t, hw, hsame, hmap⟩ | ⟨_, hw⟩
      · rw [bind_run_ok (adaptExcept_eq_ok.mpr hw)] at hj
        by_cases hrest : (finalState (writeEach fault row
            { b with ram := b.ram.store a .byte v.toUInt64 })).ram.byte j =
            (b.ram.store a .byte v.toUInt64).byte j
        · rw [hrest, Memory.byte_store hin] at hj
          split at hj
          · next hrange =>
            refine ⟨(a, v), List.mem_cons_self .., ?_⟩
            have ha := Memory.base_add_offset hin
            have hone : Width.byte.bytes = 1 := rfl
            show b.ram.base.toNat + j = a.toNat
            omega
          · exact absurd rfl hj
        · obtain ⟨p, hp, heq⟩ := ih hrest
          exact ⟨p, List.mem_cons_of_mem _ hp, heq⟩
      · rw [bind_run_ok (adaptExcept_eq_ok.mpr hw)] at hj
        obtain ⟨p, hp, heq⟩ := ih (b := t) (by rw [hsame]; exact hj)
        rw [hmap.base] at heq
        exact ⟨p, List.mem_cons_of_mem _ hp, heq⟩
      · rw [bind_run_error (adaptExcept_eq_error.mpr ⟨_, rfl, hw⟩)] at hj
        exact absurd rfl hj

/-- The writes of a misaligned store, once its addresses have been translated. -/
lemma storeTrace_writeEach {row : List UInt64}
    (ht : h.translateAll .store (byteAddresses address w) b = .ok row c) (fault : Exception)
    (bytes : List UInt8) :
    h.StoreTrace address w b (finalState (writeEach fault (row.zip bytes) c)) := by
  have htranslated := TranslatedOnly.all h address w b
  rw [ht, finalState_ok] at htranslated
  intro j hj
  by_cases hwrite : (finalState (writeEach fault (row.zip bytes) c)).ram.byte j = c.ram.byte j
  · rw [hwrite] at hj ⊢
    exact Or.inr (htranslated.trace hj)
  · left
    obtain ⟨p, hp, hbase⟩ := changed_writeEach hwrite
    obtain ⟨earlier, va, later, hrow, found, t, t', hrun, hva⟩ :=
      translateAll_mem ht (List.of_mem_zip hp).1
    rw [htranslated.marked.base] at hbase
    exact ⟨earlier, va, later, hrow, found, t, p.1, t', 0, hrun, hva, hbase, Or.inl rfl⟩

/-- **What a store changes.** -/
lemma store_trace (h : Hart) (address : UInt64) (w : Width) (value : UInt64) (b : Bus) :
    h.StoreTrace address w b (finalState (h.store address w value b)) := by
  rw [store]
  split
  · next ha =>
    cases ht : h.translate .store address b with
    | error e c =>
        have hone := TranslatedOnly.one h address w b
        rw [ht] at hone
        rw [bind_run_error ht]
        exact hone.storeTrace rfl
    | ok pa c =>
        rw [bind_run_ok ht, finalState_adaptExcept]
        exact storeTrace_write ha ht rfl value
  · have hall := TranslatedOnly.all h address w b
    cases ht : h.translateAll .store (byteAddresses address w) b with
    | error e c =>
        rw [ht] at hall
        rw [bind_run_error ht]
        exact hall.storeTrace rfl
    | ok row c =>
        rw [ht] at hall
        rw [bind_run_ok ht, bind_run_ok (show backed row c = .ok _ c from rfl)]
        split
        · exact storeTrace_writeEach ht _ _
        · exact hall.storeTrace rfl

/-- **What a load changes.** -/
lemma load_trace (h : Hart) (address : UInt64) (w : Width) (b : Bus) :
    h.LoadTrace address w b (finalState (h.load address w b)) := fun j hj =>
  ⟨changed_load hj, (leaves_ramMarked_load h address w b).gains j⟩

end Hart

namespace Board

/-! ## Instructions -/

/-- Two boards with the same bus. -/
abbrev SameBus (b b' : Board) : Prop := b'.bus = b.bus

instance : IsPreorder Board SameBus where
  refl _ := rfl
  trans _ _ _ hab hbc := Eq.trans hbc hab

lemma leaves_sameBus_modifyHart (f : Hart → Hart) : Leaves SameBus (modifyHart f) := fun _ => rfl

lemma leaves_sameBus_setRegister (rd : Reg) (value : UInt64) :
    Leaves SameBus (setRegister rd value) := fun _ => rfl

lemma leaves_sameBus_jump (target : UInt64) : Leaves SameBus (jump target) := fun _ => rfl

/-- The bus after a computation whose second part does not touch it. -/
lemma bus_bind {α β : Type} {x : EStateM Exception Board α} {f : α → EStateM Exception Board β}
    (hf : ∀ a, Leaves SameBus (f a)) (b : Board) :
    (finalState ((x >>= f) b)).bus = (finalState (x b)).bus := by
  cases hx : x b with
  | error e t => rw [bind_run_error hx, finalState_error, finalState_error]
  | ok a t =>
      rw [bind_run_ok hx, finalState_ok]
      exact hf a t

lemma bus_onBus {α : Type} (x : EStateM Exception Bus α) (b : Board) :
    (finalState (onBus x b)).bus = finalState (x b.bus) := by
  rw [onBus]
  cases x b.bus <;> rfl

variable {α β : Type} {x : EStateM Exception Bus α} {b : Board} {c : Bus}

lemma onBus_bind_ok {a : α} (hx : x b.bus = .ok a c) (f : α → EStateM Exception Board β) :
    (onBus x >>= f) b = f a { b with bus := c } :=
  bind_run_ok (onBus_eq_ok.mpr ⟨hx, rfl⟩) f

lemma onBus_bind_error {e : Exception} (hx : x b.bus = .error e c)
    (f : α → EStateM Exception Board β) :
    (onBus x >>= f) b = .error e { b with bus := c } :=
  bind_run_error (onBus_eq_error.mpr ⟨hx, rfl⟩) f

lemma loadReserved_trace (w : Width) (rd rs1 : Reg) (b : Board) :
    b.hart.LoadTrace (b.hart.get rs1) w b.bus (finalState (loadReserved w rd rs1 b)).bus := by
  simp only [loadReserved]
  rw [getHart_bind]
  split
  · next ha =>
    have htrace := b.hart.load_trace (b.hart.get rs1) w b.bus
    rw [Hart.load_of_aligned ha] at htrace
    cases ht : b.hart.translate .load (b.hart.get rs1) b.bus with
    | error e c =>
        rw [bind_run_error ht] at htrace
        rw [onBus_bind_error ht]
        exact htrace
    | ok pa c =>
        rw [bind_run_ok ht] at htrace
        rw [onBus_bind_ok ht, bus_bind fun _ => Leaves.bind (leaves_sameBus_modifyHart _) fun _ =>
          leaves_sameBus_setRegister _ _, bus_onBus]
        exact htrace
  · exact fun j hj => absurd rfl hj

/-- After the address of an atomic access has been refused, there is nothing to see but its
    translation. -/
lemma storeTrace_of_atomicAddress {h : Hart} {address : UInt64} {w : Width} {b c : Bus}
    {e : Exception} (ha : h.atomicAddress address w b = .error e c) : h.StoreTrace address w b c :=
  (Hart.atomicAddress_error ha).storeTrace rfl

lemma storeConditional_trace (w : Width) (rd rs1 rs2 : Reg) (b : Board) :
    b.hart.StoreTrace (b.hart.get rs1) w b.bus
      (finalState (storeConditional w rd rs1 rs2 b)).bus := by
  simp only [storeConditional]
  rw [getHart_bind]
  cases ha : b.hart.atomicAddress (b.hart.get rs1) w b.bus with
  | error e c =>
      rw [onBus_bind_error ha]
      exact storeTrace_of_atomicAddress ha
  | ok pa c =>
      obtain ⟨haligned, ht⟩ := Hart.atomicAddress_ok ha
      have hrest (value : UInt64) : Leaves SameBus (do
          modifyHart fun h => { h with reservation := none }
          setRegister rd value) :=
        Leaves.bind (leaves_sameBus_modifyHart _) fun _ => leaves_sameBus_setRegister _ _
      rw [onBus_bind_ok ha]
      split
      · rw [bus_bind fun _ => hrest _, bus_onBus, finalState_adaptExcept]
        exact Hart.storeTrace_write haligned ht rfl _
      · rw [hrest]
        exact (Hart.TranslatedOnly.of_translate_ok w ht).storeTrace rfl

lemma atomicUpdate_trace (op : AmoOp) (kind : AmoKind) (rd rs1 rs2 : Reg) (b : Board) :
    b.hart.StoreTrace (b.hart.get rs1) kind.width b.bus
      (finalState (atomicUpdate op kind rd rs1 rs2 b)).bus := by
  simp only [atomicUpdate]
  rw [getHart_bind]
  cases ha : b.hart.atomicAddress (b.hart.get rs1) kind.width b.bus with
  | error e c =>
      rw [onBus_bind_error ha]
      exact storeTrace_of_atomicAddress ha
  | ok pa c =>
      obtain ⟨haligned, ht⟩ := Hart.atomicAddress_ok ha
      rw [onBus_bind_ok ha]
      cases hr : EStateM.adaptExcept (fun _ => Exception.storeAccessFault (b.hart.get rs1))
          (Bus.read pa kind.width) c with
      | error e d =>
          rw [onBus_bind_error hr]
          have hram := ((Bus.leaves_sameRam_read _ _).adaptExcept).of_error hr
          exact (Hart.TranslatedOnly.of_translate_ok kind.width ht).storeTrace hram
      | ok v d =>
          have hram := ((Bus.leaves_sameRam_read _ _).adaptExcept).of_ok hr
          rw [onBus_bind_ok hr, bus_bind fun _ => leaves_sameBus_setRegister _ _, bus_onBus,
            finalState_adaptExcept]
          exact Hart.storeTrace_write haligned ht hram _

lemma leaves_sameBus_accessCsr (op : CsrOp) (rd : Reg) (csr : Csr) (operand : UInt64) (named : Bool)
    (raw : UInt32) : Leaves SameBus (accessCsr op rd csr operand named raw) := by
  intro b
  rcases accessCsr_cases op rd csr operand named raw b rfl with ⟨fault, hr⟩ | ⟨_, hr⟩ <;>
    rw [hr] <;> rfl

/-- A byte of memory that an instruction changes, and why: a store of it was translated to the byte,
    or the byte was marked on the way. -/
def Touched (i : Instruction) (b b' : Board) (j : Nat) : Prop :=
  ∃ access address w, i.access? b.hart = some (access, address, w) ∧
    (access = .store ∧ b.hart.Wrote address w b.bus j ∨
      b.hart.MarkedBy access (Hart.byteAddresses address w) b.bus j ∧
        Gains (b.bus.ram.byte j) (b'.bus.ram.byte j))

/-- **A byte of memory that an instruction changes is one that it touches,** whether it completes or
    faults. -/
lemma execute_changes {i : Instruction} {raw : UInt32} {len : UInt64} {b : Board} {j : Nat}
    (hj : (finalState (execute i raw len b)).bus.ram.byte j ≠ b.bus.ram.byte j) :
    Touched i b (finalState (execute i raw len b)) j := by
  have hnone (hbus : (finalState (execute i raw len b)).bus = b.bus) :
      Touched i b (finalState (execute i raw len b)) j := by
    rw [hbus] at hj
    exact absurd rfl hj
  have hload {address : UInt64} {w : Width} (hi : i.access? b.hart = some (.load, address, w))
      (htrace : b.hart.LoadTrace address w b.bus (finalState (execute i raw len b)).bus) :
      Touched i b (finalState (execute i raw len b)) j :=
    ⟨.load, address, w, hi, Or.inr (htrace j hj)⟩
  have hstore {address : UInt64} {w : Width} (hi : i.access? b.hart = some (.store, address, w))
      (htrace : b.hart.StoreTrace address w b.bus (finalState (execute i raw len b)).bus) :
      Touched i b (finalState (execute i raw len b)) j :=
    ⟨.store, address, w, hi, (htrace j hj).imp_left fun hw => ⟨rfl, hw⟩⟩
  cases i with
  | lui | auipc | jal | jalr | opImm | opReg | fence | fenceI | ecall | ebreak => exact hnone rfl
  | branch | mret | sret | wfi | sfenceVma =>
      refine hnone ?_
      unfold execute
      rw [getHart_bind]
      simp only
      split <;> rfl
  | csrReg op rd csr rs1 =>
      exact hnone ((Leaves.bind (leaves_sameBus_accessCsr op rd csr _ _ raw) fun _ =>
        leaves_sameBus_jump _) b)
  | csrImm op rd csr uimm =>
      exact hnone ((Leaves.bind (leaves_sameBus_accessCsr op rd csr _ _ raw) fun _ =>
        leaves_sameBus_jump _) b)
  | load kind rd rs1 offset =>
      have hbus : (finalState (execute (.load kind rd rs1 offset) raw len b)).bus =
          finalState (b.hart.load (b.hart.get rs1 + UInt64.ofInt offset) kind.width.1 b.bus) :=
        (bus_bind (fun _ => Leaves.bind (leaves_sameBus_setRegister _ _) fun _ =>
          leaves_sameBus_jump _) b).trans (bus_onBus _ b)
      refine hload rfl ?_
      rw [hbus]
      exact b.hart.load_trace _ _ _
  | store kind rs1 rs2 offset =>
      have hbus : (finalState (execute (.store kind rs1 rs2 offset) raw len b)).bus =
          finalState (b.hart.store (b.hart.get rs1 + UInt64.ofInt offset) kind.width
            (b.hart.get rs2) b.bus) :=
        (bus_bind (fun _ => leaves_sameBus_jump _) b).trans (bus_onBus _ b)
      refine hstore rfl ?_
      rw [hbus]
      exact b.hart.store_trace _ _ _ _
  | loadReserved kind rd rs1 =>
      have hbus : (finalState (execute (.loadReserved kind rd rs1) raw len b)).bus =
          (finalState (loadReserved kind.width rd rs1 b)).bus :=
        bus_bind (fun _ => leaves_sameBus_jump _) b
      refine hload rfl ?_
      rw [hbus]
      exact loadReserved_trace _ _ _ _
  | storeConditional kind rd rs1 rs2 =>
      have hbus : (finalState (execute (.storeConditional kind rd rs1 rs2) raw len b)).bus =
          (finalState (storeConditional kind.width rd rs1 rs2 b)).bus :=
        bus_bind (fun _ => leaves_sameBus_jump _) b
      refine hstore rfl ?_
      rw [hbus]
      exact storeConditional_trace _ _ _ _ _
  | amo op kind rd rs1 rs2 =>
      have hbus : (finalState (execute (.amo op kind rd rs1 rs2) raw len b)).bus =
          (finalState (atomicUpdate op kind rd rs1 rs2 b)).bus :=
        bus_bind (fun _ => leaves_sameBus_jump _) b
      refine hstore rfl ?_
      rw [hbus]
      exact atomicUpdate_trace _ _ _ _ _ _

end Board

end Rv64Board
