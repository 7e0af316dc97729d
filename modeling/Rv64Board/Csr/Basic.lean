import Rv64Board.Privilege
import Rv64Board.Text.Blank
import Rv64Board.Text.Digits
import Rv64Board.Text.Numeral
import Rv64Board.Text.Quoted

/-!
# Control and status registers: numbers and names

A control and status register (CSR) is addressed by a number, whose bits also say who may touch it.

* `Csr`: a register number.
* `Csr.Register`: the registers that this hart has, 36 single ones and five numbered families.
* `Csr.register?`: the register behind a number, if there is one.
* `Csr.name` and `Csr.parse?`: the text of a number and back.
-/

namespace Rv64Board

/-- The number of a control and status register. -/
structure Csr where
  number : UInt16
  deriving DecidableEq, Inhabited

namespace Csr

/-- The lowest level that may access a register, held in bits 8 and 9 of its number. -/
def privilege (c : Csr) : Privilege :=
  Privilege.ofBits (c.number >>> 8).toUInt64

/-- Registers whose number has bits 10 and 11 set cannot be written. -/
def isReadOnly (c : Csr) : Bool :=
  (c.number >>> 10) &&& 3 == 3

/-- The families of numbered registers. -/
inductive Family
  | pmpcfg
  | pmpaddr
  | mhpmevent
  | mhpmcounter
  | hpmcounter
  deriving DecidableEq, Inhabited

namespace Family

/-- The families in the order in which a number is looked up. -/
def all : List Family :=
  [.pmpcfg, .pmpaddr, .mhpmevent, .mhpmcounter, .hpmcounter]

/-- The families in the order in which a name is looked up: longer stems first, since one stem may
end another. -/
def byStemLength : List Family :=
  [.mhpmcounter, .hpmcounter, .mhpmevent, .pmpaddr, .pmpcfg]

/-- The text before the index in a member's name. -/
def stem : Family → String
  | .pmpcfg => "pmpcfg"
  | .pmpaddr => "pmpaddr"
  | .mhpmevent => "mhpmevent"
  | .mhpmcounter => "mhpmcounter"
  | .hpmcounter => "hpmcounter"

/-- The number of a family's first member. -/
def base : Family → UInt16
  | .pmpcfg => 0x3A0
  | .pmpaddr => 0x3B0
  | .mhpmevent => 0x323
  | .mhpmcounter => 0xB03
  | .hpmcounter => 0xC03

/-- The index in the name of a family's first member. -/
def firstIndex : Family → Nat
  | .pmpcfg | .pmpaddr => 0
  | .mhpmevent | .mhpmcounter | .hpmcounter => 3

/-- How many members a family has. -/
def count : Family → Nat
  | .pmpcfg => 16
  | .pmpaddr => 64
  | .mhpmevent | .mhpmcounter | .hpmcounter => 29

end Family

/-- The registers that this hart has. -/
inductive Register
  | sstatus | sie | stvec | scounteren | senvcfg | sscratch | sepc | scause | stval | sip
  | stimecmp | satp
  | mstatus | misa | medeleg | mideleg | mie | mtvec | mcounteren | menvcfg | mcountinhibit
  | mscratch | mepc | mcause | mtval | mip
  | mcycle | minstret
  | cycle | time | instret
  | mvendorid | marchid | mimpid | mhartid | mconfigptr
  | member (family : Family) (i : Fin family.count)
  deriving DecidableEq

namespace Register

/-- The registers outside of families, ordered by number. -/
def singles : List Register :=
  [.sstatus, .sie, .stvec, .scounteren, .senvcfg, .sscratch, .sepc, .scause, .stval, .sip,
    .stimecmp, .satp, .mstatus, .misa, .medeleg, .mideleg, .mie, .mtvec, .mcounteren, .menvcfg,
    .mcountinhibit, .mscratch, .mepc, .mcause, .mtval, .mip, .mcycle, .minstret, .cycle, .time,
    .instret, .mvendorid, .marchid, .mimpid, .mhartid, .mconfigptr]

/-- The number of a register. -/
def number : Register → UInt16
  | .sstatus => 0x100
  | .sie => 0x104
  | .stvec => 0x105
  | .scounteren => 0x106
  | .senvcfg => 0x10A
  | .sscratch => 0x140
  | .sepc => 0x141
  | .scause => 0x142
  | .stval => 0x143
  | .sip => 0x144
  | .stimecmp => 0x14D
  | .satp => 0x180
  | .mstatus => 0x300
  | .misa => 0x301
  | .medeleg => 0x302
  | .mideleg => 0x303
  | .mie => 0x304
  | .mtvec => 0x305
  | .mcounteren => 0x306
  | .menvcfg => 0x30A
  | .mcountinhibit => 0x320
  | .mscratch => 0x340
  | .mepc => 0x341
  | .mcause => 0x342
  | .mtval => 0x343
  | .mip => 0x344
  | .mcycle => 0xB00
  | .minstret => 0xB02
  | .cycle => 0xC00
  | .time => 0xC01
  | .instret => 0xC02
  | .mvendorid => 0xF11
  | .marchid => 0xF12
  | .mimpid => 0xF13
  | .mhartid => 0xF14
  | .mconfigptr => 0xF15
  | .member family i => family.base + UInt16.ofNat i.val

/-- The name of a register. -/
def name : Register → String
  | .sstatus => "sstatus"
  | .sie => "sie"
  | .stvec => "stvec"
  | .scounteren => "scounteren"
  | .senvcfg => "senvcfg"
  | .sscratch => "sscratch"
  | .sepc => "sepc"
  | .scause => "scause"
  | .stval => "stval"
  | .sip => "sip"
  | .stimecmp => "stimecmp"
  | .satp => "satp"
  | .mstatus => "mstatus"
  | .misa => "misa"
  | .medeleg => "medeleg"
  | .mideleg => "mideleg"
  | .mie => "mie"
  | .mtvec => "mtvec"
  | .mcounteren => "mcounteren"
  | .menvcfg => "menvcfg"
  | .mcountinhibit => "mcountinhibit"
  | .mscratch => "mscratch"
  | .mepc => "mepc"
  | .mcause => "mcause"
  | .mtval => "mtval"
  | .mip => "mip"
  | .mcycle => "mcycle"
  | .minstret => "minstret"
  | .cycle => "cycle"
  | .time => "time"
  | .instret => "instret"
  | .mvendorid => "mvendorid"
  | .marchid => "marchid"
  | .mimpid => "mimpid"
  | .mhartid => "mhartid"
  | .mconfigptr => "mconfigptr"
  | .member family i => family.stem ++ toString (family.firstIndex + i.val)

/-- The number of a register, as a `Csr`. -/
def csr (r : Register) : Csr :=
  ⟨r.number⟩

end Register

/-- The member of a family at a distance from its first one. -/
def Family.member? (family : Family) (distance : Nat) : Option Register :=
  if h : distance < family.count then some (.member family ⟨distance, h⟩) else none

/-- The member of a family that has a given number. -/
def Family.withNumber? (family : Family) (n : UInt16) : Option Register :=
  if family.base ≤ n then family.member? (n - family.base).toNat else none

/-- The register behind a number, if the hart has it. -/
def register? (c : Csr) : Option Register :=
  Register.singles.find? (fun r => r.number == c.number) <|>
    Family.all.findSome? fun family => family.withNumber? c.number

/-- The single registers, ordered by number. -/
def named : List Csr :=
  Register.singles.map Register.csr

/-- The name of a register, or its number when the hart does not have it. -/
def name (c : Csr) : String :=
  match c.register? with
  | some r => r.name
  | none => Text.hexPadded 3 c.number.toNat

/-- A register number below the size of the number space. -/
def ofNumeral? (radix : Nat) (s : String) : Option Csr :=
  match Text.readUnsigned radix UInt16.size s with
  | .ok n => if n < 0x1000 then some ⟨UInt16.ofNat n⟩ else none
  | .error _ => none

/-- The member of a family whose index is written after the stem. -/
def Family.withIndexText? (family : Family) (index : String) : Option Register :=
  match Text.readUnsigned 10 UInt16.size index with
  | .ok n => if family.firstIndex ≤ n then family.member? (n - family.firstIndex) else none
  | .error _ => none

/-- The rest of a text after a leading part. -/
def afterStem? (stem s : String) : Option String :=
  if stem.toList.isPrefixOf s.toList then some (String.ofList (s.toList.drop stem.length))
  else none

/-- The register that a text names: `0x` and a hexadecimal number, a name, or a decimal number.
Letter case and surrounding blanks do not matter. A text that starts with the stem of a family is
a name of that family or nothing. -/
def parse? (s : String) : Option Csr :=
  let word := Text.lowercase (Text.trim s)
  match afterStem? "0x" word with
  | some digits => ofNumeral? 16 digits
  | none =>
    match Register.singles.find? (fun r => r.name == word) with
    | some r => some r.csr
    | none =>
      let attempt (family : Family) : Option (Option Csr) :=
        (afterStem? family.stem word).map fun index =>
          (family.withIndexText? index).map Register.csr
      match Family.byStemLength.findSome? attempt with
      | some found => found
      | none => ofNumeral? 10 word

/-- The complaint about a text that names no register. -/
def unknownMessage (s : String) : String :=
  "unknown CSR " ++ Text.quoted s

end Csr

end Rv64Board
