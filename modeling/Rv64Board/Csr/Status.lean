import Rv64Board.Privilege

/-!
# The status register

`mstatus` holds the interrupt enables, the state stacked by traps, and the switches that change what
an access is checked against. Each field is a mask.

* `Mstatus.test`, `Mstatus.assign`: read and change the bits of a mask.
* `Mstatus.mpp`, `Mstatus.setMpp`: the stacked privilege level.
* `Mstatus.supervisorView` and the two masks of writable bits.
-/

namespace Rv64Board

/-- The value of the status register. -/
structure Mstatus where
  bits : UInt64
  deriving DecidableEq, Inhabited

namespace Mstatus

/-! ## Fields -/

def sie : UInt64 := 0x2
def mie : UInt64 := 0x8
def spie : UInt64 := 0x20
def ube : UInt64 := 0x40
def mpie : UInt64 := 0x80
def spp : UInt64 := 0x100
def vs : UInt64 := 0x600
def mppMask : UInt64 := 0x1800
def fs : UInt64 := 0x6000
def xs : UInt64 := 0x18000
def mprv : UInt64 := 0x20000
def sum : UInt64 := 0x40000
def mxr : UInt64 := 0x80000
def tvm : UInt64 := 0x100000
def tw : UInt64 := 0x200000
def tsr : UInt64 := 0x400000
def uxl : UInt64 := 0x300000000
def sd : UInt64 := 0x8000000000000000

/-- The bits that are visible through `sstatus`. -/
def supervisorView : UInt64 :=
  sie ||| spie ||| ube ||| spp ||| vs ||| fs ||| xs ||| sum ||| mxr ||| uxl ||| sd

/-- The bits that software may change through `sstatus`. -/
def supervisorWritable : UInt64 :=
  sie ||| spie ||| spp ||| sum ||| mxr

/-- The bits that software may change through `mstatus`. -/
def writable : UInt64 :=
  supervisorWritable ||| mie ||| mpie ||| mppMask ||| mprv ||| tvm ||| tw ||| tsr

/-- The value at reset: registers are 64 bits wide at every level, and all else is off. -/
def atReset : Mstatus :=
  ⟨0xA00000000⟩

/-! ## Operations -/

/-- All bits of a mask are set. -/
def test (s : Mstatus) (mask : UInt64) : Bool :=
  s.bits &&& mask == mask

/-- Sets or clears the bits of a mask. -/
def assign (s : Mstatus) (mask : UInt64) (on : Bool) : Mstatus :=
  ⟨if on then s.bits ||| mask else s.bits &&& ~~~mask⟩

/-- Takes the bits of a mask from a value and keeps the others. -/
def merge (s : Mstatus) (mask value : UInt64) : Mstatus :=
  ⟨(s.bits &&& ~~~mask) ||| (value &&& mask)⟩

/-- The stacked privilege level. -/
def mpp (s : Mstatus) : Privilege :=
  Privilege.ofBits ((s.bits &&& mppMask) >>> 11)

/-- Stacks a privilege level. -/
def setMpp (s : Mstatus) (p : Privilege) : Mstatus :=
  ⟨(s.bits &&& ~~~mppMask) ||| (p.bits <<< 11)⟩

end Mstatus

end Rv64Board
