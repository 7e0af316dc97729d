/-!
# Privilege levels

The hart runs at one of three levels, ordered by what they may do: user, supervisor and machine.
-/

namespace Rv64Board

/-- A privilege level of the hart. -/
inductive Privilege
  | user
  | supervisor
  | machine
  deriving DecidableEq, Inhabited

namespace Privilege

/-- The two-bit encoding of a level. Encoding 2 is not used. -/
def bits : Privilege → UInt64
  | .user => 0
  | .supervisor => 1
  | .machine => 3

/-- The level of a two-bit field; the unused encoding 2 stands for machine level. -/
def ofBits (b : UInt64) : Privilege :=
  if b &&& 3 = 0 then .user else if b &&& 3 = 1 then .supervisor else .machine

@[simp] theorem ofBits_bits (p : Privilege) : ofBits p.bits = p := by
  cases p <;> rfl

/-- Levels are ordered by their encodings. -/
instance : LT Privilege := ⟨fun a b => a.bits < b.bits⟩

/-- Levels are ordered by their encodings. -/
instance : LE Privilege := ⟨fun a b => a.bits ≤ b.bits⟩

instance (a b : Privilege) : Decidable (a < b) :=
  inferInstanceAs (Decidable (a.bits < b.bits))

instance (a b : Privilege) : Decidable (a ≤ b) :=
  inferInstanceAs (Decidable (a.bits ≤ b.bits))

/-- The letter by which a level is known. -/
def letter : Privilege → String
  | .user => "U"
  | .supervisor => "S"
  | .machine => "M"

end Privilege

end Rv64Board
