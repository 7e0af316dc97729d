import Rv64Board.Text.Blank
import Rv64Board.Text.Digits
import Rv64Board.Text.Numeral
import Rv64Board.Text.Quoted

/-!
# Integer registers

The 32 integer registers, their names, and the register file with the program counter.

* `Reg`: a register, known by its index.
* `Reg.parse?`: a register from its name (`a0`, `fp`) or its index (`x10`).
* `Registers`: the register file. Register zero reads as zero by definition of `get`, and `set`
  leaves the file alone when asked to change it.
-/

namespace Rv64Board

/-- An integer register, known by its index. -/
structure Reg where
  index : Fin 32
  deriving DecidableEq, Inhabited

namespace Reg

/-- The register whose index is held in the low five bits of a number. -/
def ofNat (n : Nat) : Reg :=
  ⟨Fin.ofNat 32 n⟩

def zero : Reg := ⟨0⟩
def ra : Reg := ⟨1⟩
def sp : Reg := ⟨2⟩
def s0 : Reg := ⟨8⟩
def a0 : Reg := ⟨10⟩
def a1 : Reg := ⟨11⟩

/-- Every register, ordered by index. -/
def all : List Reg :=
  (List.finRange 32).map Reg.mk

/-- The name of each register in the calling convention, ordered by index. -/
def names : Vector String 32 := #v[
  "zero", "ra", "sp", "gp", "tp", "t0", "t1", "t2",
  "s0", "s1", "a0", "a1", "a2", "a3", "a4", "a5",
  "a6", "a7", "s2", "s3", "s4", "s5", "s6", "s7",
  "s8", "s9", "s10", "s11", "t3", "t4", "t5", "t6"]

/-- The name of a register in the calling convention. -/
def name (r : Reg) : String :=
  names[r.index]

/-- The register with a given index in the text after an `x`. -/
def ofIndexText? (digits : String) : Option Reg :=
  match Text.readUnsigned 10 UInt32.size digits with
  | .ok n => if n < 32 then some (ofNat n) else none
  | .error _ => none

/-- The register with a given calling-convention name. -/
def ofName? (s : String) : Option Reg :=
  all.find? fun r => r.name == s

/-- The register that a text names: a calling-convention name, `fp` for `s0`, or an index after an
`x`. Letter case and surrounding blanks do not matter. -/
def parse? (s : String) : Option Reg :=
  let word := Text.lowercase (Text.trim s)
  if word = "fp" then some s0
  else
    match word.toList with
    | 'x' :: digits => ofIndexText? (String.ofList digits) <|> ofName? word
    | _ => ofName? word

/-- The complaint about a text that names no register. -/
def unknownMessage (s : String) : String :=
  "unknown register " ++ Text.quoted s

end Reg

/-- The integer register file and the program counter. -/
structure Registers where
  x : Vector UInt64 32
  pc : UInt64
  deriving DecidableEq

namespace Registers

/-- All registers zero. -/
def cleared : Registers :=
  ⟨Vector.replicate 32 0, 0⟩

instance : Inhabited Registers := ⟨cleared⟩

/-- The value of a register; register zero is always zero. -/
def get (rs : Registers) (r : Reg) : UInt64 :=
  if r = Reg.zero then 0 else rs.x[r.index]

/-- Changes a register; register zero cannot be changed. -/
def set (rs : Registers) (r : Reg) (value : UInt64) : Registers :=
  if r = Reg.zero then rs else ⟨rs.x.set r.index value, rs.pc⟩

@[simp] theorem get_zero (rs : Registers) : rs.get Reg.zero = 0 := by
  simp [get]

@[simp] theorem set_zero (rs : Registers) (v : UInt64) : rs.set Reg.zero v = rs := by
  simp [set]

@[simp] theorem pc_set (rs : Registers) (r : Reg) (v : UInt64) : (rs.set r v).pc = rs.pc := by
  unfold set; split <;> rfl

/-- **A written register reads back,** unless it is register zero; every other register keeps its
value. -/
theorem get_set (rs : Registers) (r s : Reg) (v : UInt64) :
    (rs.set r v).get s = if s = r ∧ r ≠ Reg.zero then v else rs.get s := by
  obtain ⟨i⟩ := r
  obtain ⟨j⟩ := s
  by_cases hi : (⟨i⟩ : Reg) = Reg.zero
  · simp [set, hi]
  · by_cases hj : (⟨j⟩ : Reg) = Reg.zero
    · have hne : (⟨j⟩ : Reg) ≠ ⟨i⟩ := fun h => hi (h ▸ hj)
      simp [get, hi, hj]
      intro h; exact absurd (hj.trans h) hne
    · by_cases hji : j = i
      · subst hji; simp [set, get, hi]
      · have : (i : Nat) ≠ (j : Nat) := fun h => hji (Fin.ext h.symm)
        simp [set, get, hi, hj, hji, Vector.getElem_set_ne, this]

/-- One entry of the register table. -/
def entry (label : String) (value : UInt64) : String :=
  Text.padRight 4 label ++ " = " ++ Text.hexPadded 16 value.toNat

/-- The register table: the program counter on a line of its own, then four registers a line. -/
def table (rs : Registers) : String :=
  let cell (r : Reg) : String :=
    (if r.index.val % 4 = 1 then "\n" else " | ") ++ entry r.name (rs.get r)
  entry "pc" rs.pc ++ String.join ((Reg.all.drop 1).map cell)

/-- All values on one line, in decimal. -/
def summary (rs : Registers) : String :=
  let values := Reg.all.map fun r => toString (rs.get r).toNat
  "Registers \x7b x: [" ++ ", ".intercalate values ++ "], pc: " ++ toString rs.pc.toNat ++ " \x7d"

end Registers

end Rv64Board
