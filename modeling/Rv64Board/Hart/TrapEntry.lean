import Rv64Board.Hart.Basic

/-!
# Entering and leaving traps

A trap saves where the hart was and at which level, and continues in a handler: of the supervisor if
the trap is delegated and the hart was not at machine level, else of machine level. `Hart.mret` and
`Hart.sret` go back.
-/

namespace Rv64Board.Hart

/-- The address of the handler. In vectored mode each interrupt has its own. -/
def handler (tvec : UInt64) (t : Trap) : UInt64 :=
  let base := tvec &&& ~~~3
  match t with
  | .interrupt i => if tvec &&& 3 = 1 then base + 4 * i.code else base
  | .exception _ => base

/-- The mask that tells which traps of a kind the supervisor handles. -/
def delegation (h : Hart) : Trap → UInt64
  | .exception _ => h.csrs.medeleg
  | .interrupt _ => h.csrs.mideleg

/-- The supervisor handles the trap. -/
def delegated (h : Hart) (t : Trap) : Bool :=
  h.privilege ≤ .supervisor && (h.delegation t >>> t.code) &&& 1 != 0

/-- Enters the handler of the supervisor. -/
def trapToSupervisor (h : Hart) (t : Trap) : Hart :=
  let s := h.csrs.mstatus
  let s := s.assign Mstatus.spie (s.test Mstatus.sie)
  let s := s.assign Mstatus.sie false
  let s := s.assign Mstatus.spp (h.privilege = .supervisor)
  { registers := { h.registers with pc := handler h.csrs.stvec t }
    csrs := { h.csrs with
      sepc := h.pc
      scause := t.cause
      stval := t.value
      mstatus := s }
    privilege := .supervisor
    reservation := none }

/-- Enters the handler of machine level. -/
def trapToMachine (h : Hart) (t : Trap) : Hart :=
  let s := h.csrs.mstatus
  let s := s.assign Mstatus.mpie (s.test Mstatus.mie)
  let s := s.assign Mstatus.mie false
  let s := s.setMpp h.privilege
  { registers := { h.registers with pc := handler h.csrs.mtvec t }
    csrs := { h.csrs with
      mepc := h.pc
      mcause := t.cause
      mtval := t.value
      mstatus := s }
    privilege := .machine
    reservation := none }

/-- Enters the handler of a trap. The reservation is lost. -/
def trap (h : Hart) (t : Trap) : Hart :=
  if h.delegated t then h.trapToSupervisor t else h.trapToMachine t

/-- Returns from a handler of machine level to the stacked level. -/
def mret (h : Hart) : Hart :=
  let s := h.csrs.mstatus
  let level := s.mpp
  let s := s.assign Mstatus.mie (s.test Mstatus.mpie)
  let s := s.assign Mstatus.mpie true
  let s := s.setMpp .user
  let s := if level = .machine then s else s.assign Mstatus.mprv false
  { h with
    registers := { h.registers with pc := h.csrs.mepc }
    csrs := { h.csrs with mstatus := s }
    privilege := level }

/-- Returns from a handler of the supervisor to the stacked level. -/
def sret (h : Hart) : Hart :=
  let s := h.csrs.mstatus
  let level := if s.test Mstatus.spp then Privilege.supervisor else Privilege.user
  let s := s.assign Mstatus.sie (s.test Mstatus.spie)
  let s := s.assign Mstatus.spie true
  let s := s.assign Mstatus.spp false
  let s := s.assign Mstatus.mprv false
  { h with
    registers := { h.registers with pc := h.csrs.sepc }
    csrs := { h.csrs with mstatus := s }
    privilege := level }

end Rv64Board.Hart
