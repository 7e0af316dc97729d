import Rv64Board.Bus
import Rv64Board.Hart.Basic

/-!
# Paging

Below machine level, and with paging switched on, addresses are virtual. A walk through up to
three levels of page tables (Sv39) leads to the physical address, or to a fault.

* `Pte`: a page table entry.
* `permits`: whether an entry allows an access at a level.
* `walk`: the walk itself. It marks the entry it ends at as accessed, and for stores as dirty,
  unless told not to.
* `Hart.translate` and `Hart.inspect`: the walk with and without marking.

Reading a table is an access to the bus, and a table may lie in a device; so the bus is a state
here.
-/

namespace Rv64Board

/-- A page table entry. -/
structure Pte where
  bits : UInt64
  deriving DecidableEq

namespace Pte

def valid (p : Pte) : Bool := p.bits &&& 0x01 != 0
def readable (p : Pte) : Bool := p.bits &&& 0x02 != 0
def writable (p : Pte) : Bool := p.bits &&& 0x04 != 0
def executable (p : Pte) : Bool := p.bits &&& 0x08 != 0
def user (p : Pte) : Bool := p.bits &&& 0x10 != 0

/-- The physical page number. -/
def page (p : Pte) : UInt64 :=
  (p.bits >>> 10) &&& 0xFFFFFFFFFFF

/-- An entry that leads to a page and not to another table. -/
def isLeaf (p : Pte) : Bool :=
  p.readable || p.executable

/-- An entry that is not in use, or that has a reserved form. -/
def malformed (p : Pte) : Bool :=
  !p.valid || (p.writable && !p.readable) || p.bits >>> 54 != 0

/-- An entry marked as accessed, and for a store as dirty. -/
def marked (p : Pte) (access : Access) : Pte :=
  ⟨p.bits ||| (if access = .store then 0xC0 else 0x40)⟩

/-- The page may be accessed in this way. Execution permission counts as read permission when the
status register says so. -/
def allows (p : Pte) (status : Mstatus) : Access → Bool
  | .fetch => p.executable
  | .load => p.readable || (p.executable && status.test Mstatus.mxr)
  | .store => p.writable

/-- The page may be accessed from this level. User pages are closed to the supervisor, unless the
status register opens them for data. -/
def opens (p : Pte) (status : Mstatus) (access : Access) : Privilege → Bool
  | .user => p.user
  | _ => !p.user || (access != .fetch && status.test Mstatus.sum)

/-- The entry permits an access from a level. -/
def permits (p : Pte) (status : Mstatus) (access : Access) (level : Privilege) : Bool :=
  p.allows status access && p.opens status access level

end Pte

namespace Paging

/-- Bits 38 to 63 of an address that paging accepts are all equal. -/
def canonical (address : UInt64) : Bool :=
  address >>> 38 == 0 || address >>> 38 == 0x3FFFFFF

/-- The index into the table of a level that an address selects. -/
def index (address : UInt64) (depth : Nat) : UInt64 :=
  (address >>> UInt64.ofNat (12 + 9 * depth)) &&& 0x1FF

/-- The bits of a page number that the address supplies in a page of a level. -/
def pageMask (depth : Nat) : UInt64 :=
  (1 <<< UInt64.ofNat (9 * depth)) - 1

/-- The physical address of an address within the page of an entry. -/
def physical (p : Pte) (depth : Nat) (address : UInt64) : UInt64 :=
  let mask := pageMask depth
  let page := (p.page &&& ~~~mask) ||| ((address >>> 12) &&& mask)
  (page * 0x1000) ||| (address &&& 0xFFF)

/-- A walk from a table, `depth + 1` levels above the pages, down to a physical address. -/
def walk (status : Mstatus) (level : Privilege) (update : Bool) (access : Access)
    (address : UInt64) : Nat → UInt64 → EStateM Exception Bus UInt64
  | 0, _ => throw (access.pageFault address)
  | depth + 1, table => do
    let entry := table + index address depth * 8
    let bits ← EStateM.adaptExcept (fun _ => access.accessFault address) (Bus.read entry .double)
    let pte : Pte := ⟨bits⟩
    if pte.malformed then throw (access.pageFault address)
    else if !pte.isLeaf then
      walk status level update access address depth (pte.page * 0x1000)
    else if !pte.permits status access level || pte.page &&& pageMask depth != 0 then
      throw (access.pageFault address)
    else
      if update && pte.marked access != pte then
        EStateM.adaptExcept (fun _ => access.accessFault address)
          (Bus.write entry .double (pte.marked access).bits)
      return physical pte depth address

end Paging

namespace Hart

/-- The level that an access is checked against. Loads and stores of machine level may be made with
the rights of the stacked level. -/
def effectiveLevel (h : Hart) (access : Access) : Privilege :=
  if access ≠ .fetch ∧ h.csrs.mstatus.test Mstatus.mprv then h.csrs.mstatus.mpp else h.privilege

/-- The physical address behind an address, marking page table entries or not. -/
def physicalAddress (h : Hart) (update : Bool) (access : Access) (address : UInt64) :
    EStateM Exception Bus UInt64 :=
  let level := h.effectiveLevel access
  if level = .machine ∨ !h.csrs.sv39Enabled then pure address
  else if !Paging.canonical address then throw (access.pageFault address)
  else
    Paging.walk h.csrs.mstatus level update access address 3 (h.csrs.rootPage * 0x1000)

/-- Translates an address for an access of the hart. -/
def translate (h : Hart) (access : Access) (address : UInt64) : EStateM Exception Bus UInt64 :=
  h.physicalAddress true access address

/-- Translates an address as the hart would, without marking page table entries. -/
def inspect (h : Hart) (access : Access) (address : UInt64) : EStateM Exception Bus UInt64 :=
  h.physicalAddress false access address

end Hart

end Rv64Board
