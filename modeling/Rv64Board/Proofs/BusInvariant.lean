import Rv64Board.Proofs.MemoryChanges
import Rv64Board.Proofs.Reachable

/-!
# Invariants of the bus

All that a board ever does to its bus is to read, to write, to let the devices take a step and to
make a note.  What these four keep, every step of the board keeps, and every run of the machine.

* `Bus.Kept` — a property of buses that the four keep.
* `Bus.Carries`, `Board.Carries` — from one state to another, such a property is carried over: by
  the accesses of the hart (`leaves_carries_translate`, `leaves_carries_load`,
  `leaves_carries_store`, `leaves_carries_fetch`), by instructions (`leaves_carries_execute`) and by
  steps (`step_kept`).
* `kept_step`, `kept_runFrom`, `kept_runWithin` — **and so do runs of the machine.**
-/

namespace Rv64Board

/-- What reading, writing, a step of the devices and a note keep. -/
structure Bus.Kept (P : Bus → Prop) : Prop where
  read : ∀ a w b, P b → P (finalState (Bus.read a w b))
  write : ∀ a w v b, P b → P (finalState (Bus.write a w v b))
  tick : ∀ lines b, P b → P (b.tick lines).1
  note : ∀ notices b, P b → P (b.note notices)

/-- If the first bus has a property, the second has it too. -/
def Bus.Carries (P : Bus → Prop) (b b' : Bus) : Prop := P b → P b'

instance (P : Bus → Prop) : IsPreorder Bus (Bus.Carries P) where
  refl _ := id
  trans _ _ _ hab hbc := hbc ∘ hab

/-- The same for the buses of two boards. -/
def Board.Carries (P : Bus → Prop) (b b' : Board) : Prop := P b.bus → P b'.bus

instance (P : Bus → Prop) : IsPreorder Board (Board.Carries P) where
  refl _ := id
  trans _ _ _ hab hbc := hbc ∘ hab

variable {P : Bus → Prop}

namespace Hart

variable (hP : Bus.Kept P)
include hP

/-! ## Accesses of the hart -/

lemma leaves_carries_read (address : UInt64) (w : Width) :
    Leaves (Bus.Carries P) (Bus.read address w) :=
  hP.read address w

lemma leaves_carries_settle (status : Mstatus) (level : Privilege) (update : Bool) (access : Access)
    (address : UInt64) (leaf : Paging.Leaf) :
    Leaves (Bus.Carries P) (Paging.settle status level update access address leaf) := by
  rw [Paging.settle]
  split
  · exact Leaves.throw _
  · simp only
    split
    · exact Leaves.bind (Leaves.adaptExcept (hP.write _ _ _)) fun _ => Leaves.pure _
    · exact Leaves.pure _

lemma leaves_carries_translate (h : Hart) (access : Access) (address : UInt64) :
    Leaves (Bus.Carries P) (h.translate access address) := by
  rw [translate]
  by_cases hpaged : h.Paged access
  · rw [physicalAddress_of_paged hpaged]
    split
    · exact Leaves.bind (Paging.leaves_locate (leaves_carries_read hP) _ _ _ _) fun leaf =>
        leaves_carries_settle hP _ _ _ _ _ leaf
    · exact Leaves.throw _
  · intro b
    rw [physicalAddress_of_not_paged hpaged]
    exact id

lemma leaves_carries_writeEach (fault : Exception) (row : List (UInt64 × UInt8)) :
    Leaves (Bus.Carries P) (writeEach fault row) := by
  induction row with
  | nil => exact Leaves.pure _
  | cons p row ih =>
      exact Leaves.bind (Leaves.adaptExcept (hP.write _ _ _)) fun _ => ih

lemma leaves_carries_load (h : Hart) (address : UInt64) (w : Width) :
    Leaves (Bus.Carries P) (h.load address w) := by
  rw [load]
  split
  · exact Leaves.bind (leaves_carries_translate hP h .load address) fun pa =>
      Leaves.adaptExcept (leaves_carries_read hP pa w)
  · refine Leaves.bind (leaves_translateAll (leaves_carries_translate hP h .load) _) fun row => ?_
    exact Leaves.bind (leaves_readEach (leaves_carries_read hP) _ row) fun bytes => Leaves.pure _

lemma leaves_carries_store (h : Hart) (address : UInt64) (w : Width) (value : UInt64) :
    Leaves (Bus.Carries P) (h.store address w value) := by
  rw [store]
  split
  · exact Leaves.bind (leaves_carries_translate hP h .store address) fun pa =>
      Leaves.adaptExcept (hP.write pa w value)
  · refine Leaves.bind (leaves_translateAll (leaves_carries_translate hP h .store) _) fun row => ?_
    refine Leaves.bind (fun b => id) fun all => ?_
    split
    · exact leaves_carries_writeEach hP _ _
    · exact Leaves.throw _

lemma leaves_carries_atomicAddress (h : Hart) (address : UInt64) (w : Width) :
    Leaves (Bus.Carries P) (h.atomicAddress address w) := by
  rw [atomicAddress]
  split
  · exact leaves_carries_translate hP h .store address
  · exact Leaves.throw _

lemma leaves_carries_fetchHalf (h : Hart) (address : UInt64) :
    Leaves (Bus.Carries P) (h.fetchHalf address) := by
  refine Leaves.bind (leaves_carries_translate hP h .fetch address) fun pa => ?_
  exact Leaves.bind (Leaves.adaptExcept (leaves_carries_read hP pa .half)) fun half => Leaves.pure _

lemma leaves_carries_fetch (h : Hart) : Leaves (Bus.Carries P) h.fetch := by
  have hdecoded {α : Type} (x : Except Exception α) : Leaves (Bus.Carries P) (ofExcept x) := by
    cases x with
    | ok a => exact Leaves.pure a
    | error e => exact Leaves.throw e
  refine Leaves.bind (leaves_carries_fetchHalf hP h h.pc) fun low => ?_
  split
  · exact Leaves.bind (hdecoded _) fun i => Leaves.pure _
  · refine Leaves.bind (leaves_carries_fetchHalf hP h (h.pc + 2)) fun high => ?_
    exact Leaves.bind (hdecoded _) fun i => Leaves.pure _

end Hart

namespace Board

/-! ## Instructions -/

lemma leaves_carries_onBus {α : Type} {x : EStateM Exception Bus α}
    (hx : Leaves (Bus.Carries P) x) : Leaves (Carries P) (onBus x) := by
  intro b hb
  rw [bus_onBus]
  exact hx b.bus hb

lemma leaves_carries_of_sameBus {α : Type} {x : EStateM Exception Board α} (hx : Leaves SameBus x) :
    Leaves (Carries P) x := by
  intro b hb
  rw [hx b]
  exact hb

variable (hP : Bus.Kept P)
include hP

lemma leaves_carries_loadReserved (w : Width) (rd rs1 : Reg) :
    Leaves (Carries P) (loadReserved w rd rs1) := by
  refine Leaves.bind (fun b => id) fun h => ?_
  simp only
  split
  · have hwalk := Hart.leaves_carries_translate hP h .load (h.get rs1)
    refine Leaves.bind (leaves_carries_onBus hwalk) fun pa => ?_
    have hread := Hart.leaves_carries_read hP pa w
    refine Leaves.bind (leaves_carries_onBus (Leaves.adaptExcept hread)) fun v => ?_
    exact leaves_carries_of_sameBus (Leaves.bind (leaves_sameBus_modifyHart _) fun _ =>
      leaves_sameBus_setRegister _ _)
  · exact Leaves.throw _

lemma leaves_carries_storeConditional (w : Width) (rd rs1 rs2 : Reg) :
    Leaves (Carries P) (storeConditional w rd rs1 rs2) := by
  refine Leaves.bind (fun b => id) fun h => ?_
  refine Leaves.bind (leaves_carries_onBus (Hart.leaves_carries_atomicAddress hP h _ w))
    fun pa => ?_
  have hrest (value : UInt64) : Leaves (Carries P) (do
      modifyHart fun h => { h with reservation := none }
      setRegister rd value) :=
    leaves_carries_of_sameBus (Leaves.bind (leaves_sameBus_modifyHart _) fun _ =>
      leaves_sameBus_setRegister _ _)
  simp only
  split
  · exact Leaves.bind (leaves_carries_onBus (Leaves.adaptExcept (hP.write pa w _))) fun _ => hrest _
  · exact hrest _

lemma leaves_carries_atomicUpdate (op : AmoOp) (kind : AmoKind) (rd rs1 rs2 : Reg) :
    Leaves (Carries P) (atomicUpdate op kind rd rs1 rs2) := by
  refine Leaves.bind (fun b => id) fun h => ?_
  refine Leaves.bind (leaves_carries_onBus (Hart.leaves_carries_atomicAddress hP h _ _))
    fun pa => ?_
  have hread := Hart.leaves_carries_read hP pa
  refine Leaves.bind (leaves_carries_onBus (Leaves.adaptExcept (hread _))) fun v => ?_
  refine Leaves.bind (leaves_carries_onBus (Leaves.adaptExcept (hP.write pa _ _))) fun _ => ?_
  exact leaves_carries_of_sameBus (leaves_sameBus_setRegister _ _)

lemma leaves_carries_execute (i : Instruction) (raw : UInt32) (len : UInt64) :
    Leaves (Carries P) (execute i raw len) := by
  have hjump (target : UInt64) : Leaves (Carries P) (jump target) :=
    leaves_carries_of_sameBus (leaves_sameBus_jump target)
  have hset (rd : Reg) (value : UInt64) : Leaves (Carries P) (setRegister rd value) :=
    leaves_carries_of_sameBus (leaves_sameBus_setRegister rd value)
  refine Leaves.bind (fun b => id) fun h => ?_
  cases i with
  | lui | auipc | jal | jalr | opImm | opReg => exact Leaves.bind (hset _ _) fun _ => hjump _
  | fence | fenceI => exact hjump _
  | ecall | ebreak => exact Leaves.throw _
  | branch =>
      simp only
      split <;> exact hjump _
  | mret | sret =>
      simp only
      split
      · exact Leaves.throw _
      · exact leaves_carries_of_sameBus (leaves_sameBus_modifyHart _)
  | wfi | sfenceVma =>
      simp only
      split
      · exact Leaves.throw _
      · exact hjump _
  | csrReg | csrImm =>
      refine Leaves.bind (leaves_carries_of_sameBus ?_) fun _ => hjump _
      exact leaves_sameBus_accessCsr _ _ _ _ _ _
  | load kind rd rs1 offset =>
      refine Leaves.bind (leaves_carries_onBus (Hart.leaves_carries_load hP h _ _)) fun v => ?_
      exact Leaves.bind (hset _ _) fun _ => hjump _
  | store kind rs1 rs2 offset =>
      exact Leaves.bind (leaves_carries_onBus (Hart.leaves_carries_store hP h _ _ _))
        fun _ => hjump _
  | loadReserved => exact Leaves.bind (leaves_carries_loadReserved hP _ _ _) fun _ => hjump _
  | storeConditional =>
      exact Leaves.bind (leaves_carries_storeConditional hP _ _ _ _) fun _ => hjump _
  | amo => exact Leaves.bind (leaves_carries_atomicUpdate hP _ _ _ _ _) fun _ => hjump _

lemma leaves_carries_executeNext : Leaves (Carries P) executeNext := by
  refine Leaves.bind (fun b => id) fun h => ?_
  refine Leaves.bind (leaves_carries_onBus (Hart.leaves_carries_fetch hP h)) fun f => ?_
  exact Leaves.bind (leaves_carries_execute hP _ _ _) fun _ => Leaves.pure _

/-! ## Steps -/

lemma finishStep_kept (trapped : Bool) {b : Board} (hb : P b.bus) :
    P (finishStep trapped b).2.bus := by
  have htick := hP.tick b.lines b.bus hb
  simp only [finishStep]
  split <;> exact htick

/-- **A step of the board keeps what its accesses keep.** -/
lemma step_kept {b : Board} (hb : P b.bus) : P b.step.2.bus := by
  have hnext := leaves_carries_executeNext hP b hb
  rw [step]
  cases hx : executeNext b with
  | error e b₁ =>
      rw [hx] at hnext
      exact finishStep_kept hP true (b := b₁.updateHart fun h => h.trap (.exception e)) hnext
  | ok i b₁ =>
      rw [hx] at hnext
      simp only
      split
      · exact hP.note _ _ hnext
      · exact finishStep_kept hP false (b := b₁.updateHart retire) hnext

end Board

namespace Machine

variable (hP : Bus.Kept P)
include hP

lemma kept_step {m : Machine} (hm : P m.board.bus) : P m.step.2.board.bus :=
  board_step (P := fun b => P b.bus) (fun _ => Board.step_kept hP) (fun _ _ => hP.note _ _) hm

lemma kept_runFrom {m : Machine} (steps n : Nat) (hm : P m.board.bus) :
    P (m.runFrom steps n).2.board.bus :=
  board_runFrom (P := fun b => P b.bus) (fun _ => Board.step_kept hP) (fun _ _ => hP.note _ _)
    steps n hm

lemma kept_runWithin {m m' : Machine} {status : ExitStatus} (steps fuel : Nat)
    (hm : P m.board.bus) (hrun : m.runWithin steps fuel = some (status, m')) :
    P m'.board.bus :=
  board_runWithin (P := fun b => P b.bus) (fun _ => Board.step_kept hP) (fun _ _ => hP.note _ _)
    steps fuel hm hrun

end Machine

end Rv64Board
