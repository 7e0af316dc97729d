import Rv64Board.Machine
import Rv64Board.Proofs.Confinement

/-!
# Reachable machines

The machines that the host can come to: built from a description, then loaded, stepped, run,
cancelled and talked to over the serial line in any order.

* `Machine.Reachable` — these machines.
* `board_step`, `board_runFrom`, `board_runWithin` — what a step of the board and a note keep, a run
  keeps.
* `Reachable.hart_induction` — **what holds of the hart at the start of memory, and is kept by every
  step of the board, holds of the hart of every reachable machine.**
* `Board.hart_step` — a step is an instruction, a trap, two counters and the lines sampled from the
  devices; **what these keep, the step keeps.**
* `Hart.OwnRights` — below machine level, accesses are made with the rights of that level.  It is
  kept by returns (`ownRights_mret`, `ownRights_sret`), by traps and by writes, hence by steps
  (`ownRights_step`).
-/

namespace Rv64Board

namespace Machine

/-- The machines that the host can come to. -/
inductive Reachable : Machine → Prop
  | new {c : MachineConfig} {m : Machine} : Machine.new c = .ok m → Reachable m
  | load {m m' : Machine} {image : List UInt8} :
    Reachable m → m.load image = .ok m' → Reachable m'
  | step {m : Machine} : Reachable m → Reachable m.step.2
  | runFor {m : Machine} (n : Nat) : Reachable m → Reachable (m.runFor n).2
  | runWithin {m m' : Machine} {status : ExitStatus} (fuel : Nat) :
    Reachable m → m.runWithin 0 fuel = some (status, m') → Reachable m'
  | cancel {m : Machine} (cancelled : Bool) : Reachable m → Reachable { m with cancelled }
  | feed {m : Machine} (bytes : List UInt8) : Reachable m → Reachable (m.feed bytes)
  | pop {m : Machine} : Reachable m → Reachable m.pop.2
  | drain {m : Machine} : Reachable m → Reachable m.drain.2

section Runs

variable {P : Board → Prop} (hstep : ∀ b : Board, P b → P b.step.2)
  (hnote : ∀ (b : Board) (n : Notice), P b → P (b.note n))
include hstep hnote

/-- One step of the machine is one of the board, or none. -/
lemma board_step {m : Machine} (hm : P m.board) : P m.step.2.board := by
  obtain ⟨board, halted, cancelled⟩ := m
  cases halted with
  | some code => exact hm
  | none =>
      have hb := hstep board hm
      simp only [step]
      split
      · next hrun => rwa [hrun] at hb
      · next hrun =>
        rw [hrun] at hb
        exact hnote _ _ hb

lemma board_runFrom {m : Machine} (steps n : Nat) (hm : P m.board) :
    P (m.runFrom steps n).2.board := by
  fun_induction runFrom steps n m with
  | case1 => exact hm
  | case2 | case3 => exact hnote _ _ hm
  | case4 steps m n _ _ ih => exact ih (board_step hstep hnote hm)

lemma board_runWithin {m m' : Machine} {status : ExitStatus} (steps fuel : Nat) (hm : P m.board)
    (hrun : m.runWithin steps fuel = some (status, m')) : P m'.board := by
  fun_induction runWithin steps fuel m with
  | case1 =>
      cases hrun
      exact hm
  | case2 =>
      cases hrun
      exact hnote _ _ hm
  | case3 => cases hrun
  | case4 steps m n _ _ ih => exact ih (board_step hstep hnote hm) hrun

end Runs

/-- **What holds of the hart at reset and is kept by every step of the board holds of the hart of
    every reachable machine.**  A reset leads to the start of memory, of a machine that has just
    been built or of one that an image is loaded into. -/
lemma Reachable.hart_induction {P : Hart → Prop}
    (hstep : ∀ b : Board, P b.hart → P b.step.2.hart)
    (hnew : ∀ c m, Machine.new c = .ok m → P (Hart.atReset c.ramBase))
    (hload : ∀ m : Machine, m.Reachable → P (Hart.atReset m.board.bus.ram.base))
    {m : Machine} (hm : m.Reachable) : P m.board.hart := by
  have hnote (b : Board) (n : Notice) (hb : P b.hart) : P (b.note n).hart := hb
  induction hm with
  | @new c m hbuilt =>
      have hreset := hnew c m hbuilt
      rw [Machine.new] at hbuilt
      split at hbuilt
      · cases hbuilt
      · split at hbuilt <;> cases hbuilt
        exact hreset
  | load hm hloaded _ =>
      rw [Machine.load] at hloaded
      split at hloaded <;> cases hloaded
      exact hload _ hm
  | step _ ih => exact board_step hstep hnote ih
  | runFor n _ ih => exact board_runFrom hstep hnote 0 n ih
  | runWithin fuel _ hrun ih => exact board_runWithin hstep hnote 0 fuel ih hrun
  | cancel _ _ ih | feed _ _ ih | pop _ ih | drain _ ih => exact ih

end Machine

/-! ## The parts of a step -/

namespace Board

lemma finishStep_lines (trapped : Bool) (b : Board) :
    (finishStep trapped b).2.lines = (b.bus.tick b.lines).2 := by
  simp only [finishStep]
  split <;> rfl

section Step

variable {P : Hart → Prop} (htrap : ∀ h t, P h → P (h.trap t)) (hretire : ∀ h, P h → P (retire h))
  (hticked : ∀ h (bus : Bus) lines, P h → P (ticked h (bus.tick lines).2))
include htrap hticked

lemma hart_finishStep (trapped : Bool) {b : Board} (hb : P b.hart) :
    P (finishStep trapped b).2.hart := by
  have hend := hticked b.hart b.bus b.lines hb
  rw [← finishStep_lines trapped] at hend
  rcases finishStep_hart trapped b with hhart | ⟨_, hhart⟩
  · rwa [hhart]
  · rw [hhart, interrupt]
    split
    · exact htrap _ _ hend
    · exact hend

include hretire

/-- **What the parts of a step keep, the step keeps.**  The lines that are sampled come from a step
    of the devices. -/
lemma hart_step {b : Board} (hnext : ∀ i b₁, executeNext b = .ok i b₁ → P b₁.hart)
    (hb : P b.hart) : P b.step.2.hart := by
  rw [step]
  cases hx : executeNext b with
  | error e b₁ =>
      refine hart_finishStep htrap hticked true (htrap _ _ ?_)
      rwa [executeNext_error hx]
  | ok i b₁ =>
      have hdone := hretire _ (hnext i b₁ hx)
      simp only
      split
      · exact hdone
      · exact hart_finishStep htrap hticked false hdone

end Step

end Board

/-! ## The rights of the own level -/

namespace Hart

/-- Below machine level, loads and stores are made with the rights of the level itself. -/
def OwnRights (h : Hart) : Prop :=
  h.privilege ≠ .machine → h.csrs.mstatus.test Mstatus.mprv = false

lemma ownRights_mret (h : Hart) : h.mret.OwnRights := by
  intro hlevel
  have hlower : h.csrs.mstatus.mpp ≠ .machine := hlevel
  simp only [mret, if_neg hlower]
  exact Mstatus.test_assign_false _ (by decide)

lemma ownRights_sret (h : Hart) : h.sret.OwnRights := fun _ =>
  Mstatus.test_assign_false _ (by decide)

/-- A trap leads to machine level, or it is delegated and comes from a lower one. -/
lemma OwnRights.trap {h : Hart} (hh : h.OwnRights) (t : Trap) : (h.trap t).OwnRights := by
  rw [Hart.trap]
  split
  · next hdelegated =>
    intro _
    have hlower : h.privilege ≠ .machine := by
      intro hm
      simp only [delegated, hm, Bool.and_eq_true] at hdelegated
      exact absurd hdelegated.1 (by decide)
    have hkept : SameOutside Mstatus.supervisorWritable h.csrs.mstatus.bits
        (h.trapToSupervisor t).csrs.mstatus.bits :=
      ((SameOutside.assign (by decide) _ _).trans (SameOutside.assign (by decide) _ _)).trans
        (SameOutside.assign (by decide) _ _)
    rw [hkept.test_eq (by decide)]
    exact hh hlower
  · exact fun hlevel => absurd rfl hlevel

end Hart

namespace Board

lemma ownRights_retire {h : Hart} (hh : h.OwnRights) : (retire h).OwnRights := by
  rw [retire_eq]
  exact hh

lemma ownRights_ticked {h : Hart} (hh : h.OwnRights) (lines : Lines) :
    (ticked h lines).OwnRights := by
  rw [ticked_eq]
  exact hh

/-- **An instruction keeps the rights of the levels apart.**  The supervisor cannot turn the switch
    on, and where machine level has turned it on, leaving that level turns it off. -/
lemma ownRights_execute {i : Instruction} {raw : UInt32} {len : UInt64} {b b' : Board}
    (hx : execute i raw len b = .ok () b') (hb : b.hart.OwnRights) : b'.hart.OwnRights := by
  rcases execute_ok_cases hx with
    hsame | ⟨_, hret⟩ | ⟨_, hret⟩ | ⟨csr, value, hcheck, hwrite, hlevel⟩
  · intro hlower
    rw [hsame.csrs]
    rw [hsame.privilege] at hlower
    exact hb hlower
  · rw [hret]
    exact b.hart.ownRights_mret
  · rw [hret]
    exact b.hart.ownRights_sret
  · intro hlower
    rw [hlevel] at hlower
    rw [hwrite]
    cases hp : b.hart.privilege with
    | user =>
        rw [hp] at hcheck
        exact absurd hcheck (CsrFile.check_user_ne_ok _ _)
    | supervisor =>
        rw [hp] at hcheck
        refine Bool.eq_false_iff.mpr fun hon => ?_
        have hwas := (CsrFile.confined_write hcheck value).mprv hon
        rw [hb hlower] at hwas
        cases hwas
    | machine => exact absurd hp hlower

lemma ownRights_step {b : Board} (hb : b.hart.OwnRights) : b.step.2.hart.OwnRights := by
  refine hart_step (P := Hart.OwnRights) (fun _ t hh => hh.trap t) (fun _ => ownRights_retire)
    (fun _ _ _ hh => ownRights_ticked hh _) (fun i b₁ hx => ?_) hb
  obtain ⟨raw, len, b₀, hsame, hexec⟩ := executeNext_ok hx
  rw [← hsame] at hb
  exact ownRights_execute hexec hb

end Board

lemma Machine.Reachable.ownRights {m : Machine} (hm : m.Reachable) : m.board.hart.OwnRights :=
  hm.hart_induction (fun _ => Board.ownRights_step) (fun _ _ _ hlevel => absurd rfl hlevel)
    fun _ _ hlevel => absurd rfl hlevel

end Rv64Board
