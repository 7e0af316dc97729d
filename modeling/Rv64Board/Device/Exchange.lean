import Rv64Board.Notice

/-!
# Between devices and the board

* `Lines`: the signals that devices raise once per step.
* `Reply` and `Effect`: what reading and writing a device register gives back. A device changes when
  it is read, so a reply holds the device as it is afterwards.
* `readPart` and `writePart`: an access to some bytes of a 64-bit register.
-/

namespace Rv64Board

/-- The signals collected from devices. -/
structure Lines where
  /-- The level of each interrupt source, bit `n` for source `n`. -/
  sources : UInt64
  /-- The pending bits that devices drive. -/
  mip : UInt64
  /-- The machine timer. -/
  mtime : UInt64
  /-- The exit code, once software asked for a halt. -/
  halt : Option UInt32
  deriving DecidableEq, Inhabited

/-- No signal at all. -/
def Lines.idle : Lines :=
  ⟨0, 0, 0, none⟩

/-- What a device answers to a read. -/
structure Reply (δ : Type) where
  value : UInt64
  device : δ
  notice : Option Notice

/-- What a write does to a device. -/
structure Effect (δ : Type) where
  device : δ
  notice : Option Notice

/-- The bytes of a register that an access at a distance from its start covers. -/
def readPart (register distance : UInt64) (w : Width) : UInt64 :=
  (register >>> (distance * 8)) &&& w.mask

/-- A register after the bytes at a distance from its start are replaced. -/
def writePart (register distance : UInt64) (w : Width) (value : UInt64) : UInt64 :=
  let shift := distance * 8
  let mask := w.mask <<< shift
  (register &&& ~~~mask) ||| ((value <<< shift) &&& mask)

end Rv64Board
