import Rv64Board.Proofs.TrapStack

/-!
# Returns resume what traps interrupt

A trap saves where the hart was, at which level, and whether interrupts of the handler's level were
enabled.  The return from the handler goes by what was saved.

* `Mstatus.Resumed` — the status register before a trap and after the return.
* `Hart.ReturnFrame` — what a return goes by (`interrupted_mret`, `interrupted_sret`).  A handler is
  free in all else.
* `mret_trapToMachine`, `sret_trapToSupervisor` — **a trap and the return from its handler leave the
  hart as it was,** but for what the trap has recorded.
* `Hart.SupervisorContext` — what the supervisor sees of the trap that it handles.  A trap to
  machine level and its return leave it alone (`InMachineHandler.supervisorContext_mret`).
* `Hart.InSupervisorHandler` — the states of a handler of the supervisor, which traps to machine
  level may interrupt any number of times.  **Throughout, the return leads to where the handler was
  entered from** (`InSupervisorHandler.frame`).
-/

namespace Rv64Board

namespace Mstatus

/-! ## The status register after a return -/

/-- The status registers `s` before a trap and `s'` after the return from its handler.  Interrupts
    are enabled as before, and the stack is left as if user level had been interrupted with
    interrupts enabled. -/
structure Resumed (k : Stack) (keepsMprv : Bool) (s s' : Mstatus) : Prop where
  enable : s'.test k.enable = s.test k.enable
  stacked : s'.test k.stacked = true
  level : s'.bits &&& k.level = 0
  mprv : s'.test mprv = (keepsMprv && s.test mprv)
  others : SameOutside (k.frame ||| Mstatus.mprv) s.bits s'.bits

variable (k : Stack) (value : UInt64) (s : Mstatus)

lemma resumed_pop_push : Resumed k true s (k.pop (k.push value s)) where
  enable := by rw [k.test_enable_pop, k.test_stacked_push]
  stacked := k.test_stacked_pop _
  level := k.and_level_pop _
  mprv := (k.pop_push value s).test_eq ((Within.or_right k.enable _).and_eq_zero k.apart_mprv)
  others := (k.pop_push value s).mono (Within.or_left _ _)

/-- A return to a lower level also gives up the rights of another level. -/
lemma Resumed.clearMprv {k : Stack} {keeps : Bool} {s s' : Mstatus} (h : Resumed k keeps s s') :
    Resumed k false s (s'.assign Mstatus.mprv false) := by
  have hclear := sameOutside_assign s' Mstatus.mprv false
  have hapart {field : UInt64} (hfield : Within (k.enable ||| k.frame) field) :
      Mstatus.mprv &&& field = 0 := by
    rw [UInt64.and_comm]
    exact hfield.and_eq_zero k.apart_mprv
  exact
    { enable := (hclear.test_eq (hapart k.within_enable)).trans h.enable
      stacked := (hclear.test_eq (hapart k.within_stacked)).trans h.stacked
      level := (hclear.and_eq (hapart k.within_level)).trans h.level
      mprv := test_assign_false s' (by decide)
      others := h.others.trans (hclear.mono (Within.or_right _ _)) }

lemma mpp_push (p : Privilege) : (Stack.machine.push (p.bits <<< 11) s).mpp = p := by
  have hlevel : (Stack.machine.push (p.bits <<< 11) s).bits &&& mppMask =
      (p.bits <<< 11) &&& mppMask := Stack.machine.and_level_push _ s
  rw [mpp, hlevel]
  cases p <;> rfl

lemma test_spp_push (on : Bool) :
    (Stack.supervisor.push (if on then spp else 0) s).test spp = on := by
  have hlevel : (Stack.supervisor.push (if on then spp else 0) s).bits &&& spp =
      (if on then spp else 0) &&& spp := Stack.supervisor.and_level_push _ s
  rw [test, hlevel]
  cases on <;> rfl

lemma mpp_eq_user {s : Mstatus} (h : s.bits &&& mppMask = 0) : s.mpp = .user := by
  rw [mpp, h]
  rfl

end Mstatus

namespace Hart

open Mstatus (Stack)

variable {h h' : Hart} {t : Trap}

/-! ## What a return goes by -/

/-- What a return goes by: where to, to which level, and whether to enable interrupts. -/
structure ReturnFrame where
  pc : UInt64
  level : Privilege
  enabled : Bool
  deriving DecidableEq

def machineFrame (h : Hart) : ReturnFrame :=
  ⟨h.csrs.mepc, h.csrs.mstatus.mpp, h.csrs.mstatus.test Mstatus.mpie⟩

def supervisorFrame (h : Hart) : ReturnFrame :=
  ⟨h.csrs.sepc, if h.csrs.mstatus.test Mstatus.spp then .supervisor else .user,
    h.csrs.mstatus.test Mstatus.spie⟩

/-- What a trap has to save for the return, where interrupts are enabled by a flag. -/
def interrupted (h : Hart) (enable : UInt64) : ReturnFrame :=
  ⟨h.pc, h.privilege, h.csrs.mstatus.test enable⟩

lemma machineFrame_trapToMachine (h : Hart) (t : Trap) :
    (h.trapToMachine t).machineFrame = h.interrupted Mstatus.mie := by
  simp only [trapToMachine_eq, machineFrame, interrupted, Mstatus.mpp_push, ReturnFrame.mk.injEq,
    true_and]
  exact Stack.machine.test_stacked_push _ _

lemma supervisorFrame_trapToSupervisor (hlevel : h.privilege ≠ .machine) (t : Trap) :
    (h.trapToSupervisor t).supervisorFrame = h.interrupted Mstatus.sie := by
  have hspp := Mstatus.test_spp_push h.csrs.mstatus (decide (h.privilege = .supervisor))
  have hspie := Stack.supervisor.test_stacked_push
    (if h.privilege = .supervisor then Mstatus.spp else 0) h.csrs.mstatus
  simp only [decide_eq_true_eq] at hspp
  rw [trapToSupervisor_eq, supervisorFrame, interrupted, ReturnFrame.mk.injEq]
  refine ⟨rfl, ?_, hspie⟩
  rw [hspp]
  cases hp : h.privilege with
  | machine => exact absurd hp hlevel
  | _ => rfl

/-- **A return goes by its frame,** whatever else the handler has done. -/
lemma interrupted_mret (h : Hart) : h.mret.interrupted Mstatus.mie = h.machineFrame := by
  rw [mret_eq, interrupted, machineFrame, ReturnFrame.mk.injEq]
  refine ⟨rfl, rfl, ?_⟩
  have hpop := Stack.machine.test_enable_pop h.csrs.mstatus
  dsimp only
  split
  · exact hpop
  · exact ((Mstatus.sameOutside_assign _ _ _).test_eq (by decide)).trans hpop

lemma interrupted_sret (h : Hart) : h.sret.interrupted Mstatus.sie = h.supervisorFrame := by
  rw [sret_eq, interrupted, supervisorFrame, ReturnFrame.mk.injEq]
  exact ⟨rfl, rfl, ((Mstatus.sameOutside_assign _ _ _).test_eq (by decide)).trans
    (Stack.supervisor.test_enable_pop h.csrs.mstatus)⟩

/-! ## Straight back -/

/-- **A trap to machine level and the return** leave a record of the trap, and the hart as it was
    otherwise. -/
lemma mret_trapToMachine (h : Hart) (t : Trap) :
    ∃ s, Mstatus.Resumed .machine (h.privilege = .machine) h.csrs.mstatus s ∧
      (h.trapToMachine t).mret =
        { h with
          csrs := { h.csrs with mepc := h.pc, mcause := t.cause, mtval := t.value, mstatus := s }
          reservation := none } := by
  have hresumed := Mstatus.resumed_pop_push .machine (h.privilege.bits <<< 11) h.csrs.mstatus
  rw [trapToMachine_eq, mret_eq]
  simp only [Mstatus.mpp_push]
  by_cases hmachine : h.privilege = .machine
  · refine ⟨_, ?_, rfl⟩
    rw [if_pos hmachine, decide_eq_true hmachine]
    exact hresumed
  · refine ⟨_, ?_, rfl⟩
    rw [if_neg hmachine, decide_eq_false hmachine]
    exact hresumed.clearMprv

/-- So do a trap to the supervisor and its return. -/
lemma sret_trapToSupervisor (hlevel : h.privilege ≠ .machine) (t : Trap) :
    ∃ s, Mstatus.Resumed .supervisor false h.csrs.mstatus s ∧
      (h.trapToSupervisor t).sret =
        { h with
          csrs := { h.csrs with sepc := h.pc, scause := t.cause, stval := t.value, mstatus := s }
          reservation := none } := by
  have hstacked : (if (h.trapToSupervisor t).csrs.mstatus.test Mstatus.spp then Privilege.supervisor
      else .user) = h.privilege :=
    congrArg ReturnFrame.level (supervisorFrame_trapToSupervisor hlevel t)
  refine ⟨_, (Mstatus.resumed_pop_push .supervisor
    (if h.privilege = .supervisor then Mstatus.spp else 0) h.csrs.mstatus).clearMprv, ?_⟩
  rw [sret_eq, hstacked, trapToSupervisor_eq]
  rfl

/-! ## Traps within a handler -/

/-- What the supervisor sees of the trap that it handles. -/
structure SupervisorContext where
  sepc : UInt64
  scause : UInt64
  stval : UInt64
  spp : Bool
  spie : Bool
  sie : Bool
  deriving DecidableEq

def supervisorContext (h : Hart) : SupervisorContext where
  sepc := h.csrs.sepc
  scause := h.csrs.scause
  stval := h.csrs.stval
  spp := h.csrs.mstatus.test Mstatus.spp
  spie := h.csrs.mstatus.test Mstatus.spie
  sie := h.csrs.mstatus.test Mstatus.sie

lemma supervisorFrame_eq (hc : h'.supervisorContext = h.supervisorContext) :
    h'.supervisorFrame = h.supervisorFrame := by
  have hframe (h : Hart) : h.supervisorFrame =
      ⟨h.supervisorContext.sepc, if h.supervisorContext.spp then .supervisor else .user,
        h.supervisorContext.spie⟩ := rfl
  rw [hframe, hframe, hc]

/-- The fields of the status register that a trap to machine level or its return may change. -/
def machineFields : UInt64 := Mstatus.mie ||| Stack.machine.frame ||| Mstatus.mprv

lemma supervisorContext_eq (hs : SameOutside machineFields h.csrs.mstatus.bits h'.csrs.mstatus.bits)
    (hsepc : h'.csrs.sepc = h.csrs.sepc) (hscause : h'.csrs.scause = h.csrs.scause)
    (hstval : h'.csrs.stval = h.csrs.stval) : h'.supervisorContext = h.supervisorContext := by
  rw [supervisorContext, supervisorContext, hsepc, hscause, hstval, hs.test_eq (by decide),
    hs.test_eq (by decide), hs.test_eq (by decide)]

lemma supervisorContext_trapToMachine (h : Hart) (t : Trap) :
    (h.trapToMachine t).supervisorContext = h.supervisorContext := by
  have hpush : SameOutside machineFields h.csrs.mstatus.bits _ :=
    (Stack.machine.sameOutside_push (h.privilege.bits <<< 11) h.csrs.mstatus).mono (by decide)
  rw [trapToMachine_eq]
  exact supervisorContext_eq hpush rfl rfl rfl

lemma supervisorContext_mret (h : Hart) : h.mret.supervisorContext = h.supervisorContext := by
  have hpop : SameOutside machineFields h.csrs.mstatus.bits _ :=
    (Stack.machine.sameOutside_pop h.csrs.mstatus).mono (by decide)
  rw [mret_eq]
  refine supervisorContext_eq ?_ rfl rfl rfl
  dsimp only
  split
  · exact hpop
  · exact hpop.trans ((Mstatus.sameOutside_assign _ _ _).mono (by decide))

/-- `h'` is in a handler of machine level that `t` has entered from `h`, and that has kept what its
    return goes by and what the supervisor sees. -/
structure InMachineHandler (h : Hart) (t : Trap) (h' : Hart) : Prop where
  entered : (h.trap t).privilege = .machine
  frame : h'.machineFrame = (h.trap t).machineFrame
  context : h'.supervisorContext = (h.trap t).supervisorContext

/-- The handler may return at once. -/
lemma InMachineHandler.refl (ht : (h.trap t).privilege = .machine) :
    h.InMachineHandler t (h.trap t) := ⟨ht, rfl, rfl⟩

lemma InMachineHandler.trap_eq (hm : h.InMachineHandler t h') : h.trap t = h.trapToMachine t := by
  rcases h.trap_cases t with ⟨_, _, _, hsupervisor⟩ | ⟨_, htrap, _⟩
  · exact absurd (hsupervisor.symm.trans hm.entered) (by decide)
  · exact htrap

lemma InMachineHandler.interrupted_mret (hm : h.InMachineHandler t h') :
    h'.mret.interrupted Mstatus.mie = h.interrupted Mstatus.mie := by
  rw [Hart.interrupted_mret, hm.frame, hm.trap_eq, machineFrame_trapToMachine]

/-- **A trap to machine level and its return leave the supervisor's context alone.** -/
lemma InMachineHandler.supervisorContext_mret (hm : h.InMachineHandler t h') :
    h'.mret.supervisorContext = h.supervisorContext := by
  rw [Hart.supervisorContext_mret, hm.context, hm.trap_eq, supervisorContext_trapToMachine]

/-- The states of a handler of the supervisor that a trap has entered from `start`: the handler may
    do anything that keeps what its return goes by, and machine level may interrupt it. -/
inductive InSupervisorHandler (start : Hart) : Hart → Prop
  | entered (t : Trap) :
    (start.trap t).privilege = .supervisor → InSupervisorHandler start (start.trap t)
  | worked {h h' : Hart} :
    InSupervisorHandler start h → h'.privilege = h.privilege →
      h'.supervisorFrame = h.supervisorFrame → InSupervisorHandler start h'
  | preempted {h h' : Hart} (t : Trap) :
    InSupervisorHandler start h → h.InMachineHandler t h' → InSupervisorHandler start h'.mret

/-- **The handler is at its level throughout, and its return leads back to where it was entered
    from.** -/
lemma InSupervisorHandler.frame {start : Hart} (hh : InSupervisorHandler start h) :
    h.privilege = .supervisor ∧ h.supervisorFrame = start.interrupted Mstatus.sie := by
  induction hh with
  | entered t ht =>
      rcases start.trap_cases t with ⟨_, hlevel, htrap, _⟩ | ⟨_, _, hmachine⟩
      · exact ⟨ht, htrap ▸ supervisorFrame_trapToSupervisor hlevel t⟩
      · exact absurd (hmachine.symm.trans ht) (by decide)
  | worked _ hprivilege hframe ih => exact ⟨hprivilege.trans ih.1, hframe.trans ih.2⟩
  | preempted t _ hm ih =>
      -- machine level returns by its own frame, which the trap has filled from this handler
      have hback := congrArg ReturnFrame.level hm.interrupted_mret
      exact ⟨hback.trans ih.1, (supervisorFrame_eq hm.supervisorContext_mret).trans ih.2⟩

/-- **Returns resume what traps have interrupted.**  The return from the handler that a trap has
    entered leaves the hart as it was, but that the trap is recorded, the fields of the stack are
    left in their idle state, the rights of another level are given up on the way to a lower level,
    and the reservation is lost.  Machine level may interrupt a handler of the supervisor anywhere:
    the supervisor's context stays the same, so the return leads back all the same. -/
theorem return_resumes_interrupted (h : Hart) (t : Trap) :
    ((h.trap t).privilege = .machine ∨ (h.trap t).privilege = .supervisor) ∧
    ((h.trap t).privilege = .machine →
      ∃ s, Mstatus.Resumed .machine (h.privilege = .machine) h.csrs.mstatus s ∧
        s.mpp = .user ∧
        (h.trap t).mret =
          { h with
            csrs := { h.csrs with mepc := h.pc, mcause := t.cause, mtval := t.value, mstatus := s }
            reservation := none }) ∧
    ((h.trap t).privilege = .supervisor →
      ∃ s, Mstatus.Resumed .supervisor false h.csrs.mstatus s ∧
        (h.trap t).sret =
          { h with
            csrs := { h.csrs with sepc := h.pc, scause := t.cause, stval := t.value, mstatus := s }
            reservation := none }) ∧
    (∀ h', h.InMachineHandler t h' →
      h'.mret.supervisorContext = h.supervisorContext ∧
        h'.mret.interrupted Mstatus.mie = h.interrupted Mstatus.mie) ∧
    (∀ r, InSupervisorHandler h r →
      r.privilege = .supervisor ∧
        r.sret.interrupted Mstatus.sie = h.interrupted Mstatus.sie ∧
        r.sret.registers = { r.registers with pc := h.pc }) := by
  refine ⟨?_, fun ht => ?_, fun ht => ?_, fun h' hm => ⟨hm.supervisorContext_mret,
    hm.interrupted_mret⟩, fun r hr => ?_⟩
  · rcases h.trap_cases t with ⟨_, _, _, hlevel⟩ | ⟨_, _, hlevel⟩
    · exact Or.inr hlevel
    · exact Or.inl hlevel
  · obtain ⟨s, hs, hback⟩ := mret_trapToMachine h t
    refine ⟨s, hs, Mstatus.mpp_eq_user hs.level, ?_⟩
    rw [(InMachineHandler.refl ht).trap_eq, hback]
  · rcases h.trap_cases t with ⟨_, hlevel, htrap, _⟩ | ⟨_, _, hmachine⟩
    · rw [htrap]
      exact sret_trapToSupervisor hlevel t
    · exact absurd (hmachine.symm.trans ht) (by decide)
  · obtain ⟨hlevel, hframe⟩ := hr.frame
    have hback : r.sret.interrupted Mstatus.sie = h.interrupted Mstatus.sie :=
      (interrupted_sret r).trans hframe
    refine ⟨hlevel, hback, ?_⟩
    have hpc : r.sret.pc = h.pc := congrArg ReturnFrame.pc hback
    rw [← hpc]
    rfl

/-- A program of user level that is about to call the supervisor, with all interrupts enabled. -/
def calling : Hart :=
  { atReset 0x80001000 with
    privilege := .user
    csrs := { CsrFile.atReset with
      mstatus := ⟨Mstatus.sie ||| Mstatus.mie⟩
      medeleg := 0x100
      mtvec := 0x80000000
      stvec := 0x80000800 } }

/-- The supervisor handles the call. -/
def called : Hart := calling.trap (.exception (.environmentCall .user))

/-- The timer of machine level interrupts it, and the handler has put something aside. -/
def timed : Hart :=
  { called.trap (.interrupt .machineTimer) with
    csrs := { (called.trap (.interrupt .machineTimer)).csrs with mscratch := 7 } }

lemma inSupervisorHandler_timed : InSupervisorHandler calling timed.mret :=
  .preempted (.interrupt .machineTimer) (.entered (.exception (.environmentCall .user)) (by decide))
    ⟨by decide, rfl, rfl⟩

/-- The call returns to where it was made, although the timer was faster. -/
theorem timed_call_returns :
    calling.privilege = .user ∧ called.privilege = .supervisor ∧ timed.privilege = .machine ∧
      timed.mret.pc = 0x80000800 ∧ InSupervisorHandler calling timed.mret ∧
      timed.mret.sret.interrupted Mstatus.sie = ⟨0x80001000, .user, true⟩ := by
  have hreturns := return_resumes_interrupted calling (.exception (.environmentCall .user))
  obtain ⟨_, _, _, _, hhandler⟩ := hreturns
  refine ⟨rfl, by decide, by decide, by decide, inSupervisorHandler_timed, ?_⟩
  exact (hhandler timed.mret inSupervisorHandler_timed).2.1

end Hart

end Rv64Board
