import Rv64Board.Instruction.Compressed
import Rv64Board.Instruction.Printer

/-!
# Disassembling

An image as a list of instructions, from its first byte on. What does not decode is listed as
illegal and takes the length that its first bits say; an incomplete instruction at the end is left
out.
-/

namespace Rv64Board

/-- One instruction of an image. -/
structure Line where
  address : UInt64
  raw : UInt32
  instruction : Option Instruction

namespace Line

/-- The instruction that given bits stand for. -/
def ofBits (address : UInt64) (raw : UInt32) : Line :=
  ⟨address, raw, (Instruction.decodeParcel raw).toOption.map Prod.fst⟩

/-- The length of the instruction in bytes. -/
def size (l : Line) : UInt64 :=
  Instruction.lengthOf l.raw

/-- The line as text: address, bits and instruction. -/
def render (l : Line) : String :=
  let digits := if l.size = 2 then 4 else 8
  let bits := String.ofList ((Text.hexDigits l.raw.toNat).leftpad digits '0')
  let text :=
    match l.instruction with
    | some i => i.render
    | none => "<illegal>"
  Text.hexPadded 8 l.address.toNat ++ ":  " ++ Text.padRight 8 bits ++ "  " ++ text

end Line

/-- The 16-bit number with the given bytes. -/
def half (low high : UInt8) : UInt32 :=
  low.toUInt32 ||| high.toUInt32 <<< 8

/-- The instructions of an image whose first byte has a given address, after those that were listed
before, last first. -/
def disassembleOnto : List Line → UInt64 → List UInt8 → List Line
  | listed, address, b0 :: b1 :: rest =>
    if Instruction.lengthOf (half b0 b1) = 4 then
      match rest with
      | b2 :: b3 :: rest =>
        let line := Line.ofBits address (half b0 b1 ||| half b2 b3 <<< 16)
        disassembleOnto (line :: listed) (address + 4) rest
      | _ => listed.reverse
    else disassembleOnto (Line.ofBits address (half b0 b1) :: listed) (address + 2) rest
  | listed, _, _ => listed.reverse

/-- The instructions of an image whose first byte has a given address. -/
def disassemble (address : UInt64) (image : List UInt8) : List Line :=
  disassembleOnto [] address image

/-- **Lines listed before stand in front** and have no influence on the rest. -/
theorem disassembleOnto_eq (listed : List Line) (address : UInt64) :
    ∀ image, disassembleOnto listed address image = listed.reverse ++ disassemble address image
  | [] | [_] => by simp [disassemble, disassembleOnto]
  | b0 :: b1 :: rest => by
    unfold disassemble disassembleOnto
    split
    · match rest with
      | [] | [_] => simp
      | b2 :: b3 :: rest =>
        simp only [disassembleOnto_eq (_ :: listed) _ rest, disassembleOnto_eq [_] _ rest]
        simp
    · simp only [disassembleOnto_eq (_ :: listed) _ rest, disassembleOnto_eq [_] _ rest]
      simp
termination_by image => image.length

/-- A long instruction is followed by the listing of what comes four bytes later. -/
theorem disassemble_long (address : UInt64) {b0 b1 : UInt8} (b2 b3 : UInt8) (rest : List UInt8)
    (h : Instruction.lengthOf (half b0 b1) = 4) :
    disassemble address (b0 :: b1 :: b2 :: b3 :: rest) =
      Line.ofBits address (half b0 b1 ||| half b2 b3 <<< 16) :: disassemble (address + 4) rest := by
  simp [disassemble, disassembleOnto, h, disassembleOnto_eq [_]]

/-- A short instruction is followed by the listing of what comes two bytes later. -/
theorem disassemble_short (address : UInt64) {b0 b1 : UInt8} (rest : List UInt8)
    (h : Instruction.lengthOf (half b0 b1) ≠ 4) :
    disassemble address (b0 :: b1 :: rest) =
      Line.ofBits address (half b0 b1) :: disassemble (address + 2) rest := by
  conv => lhs; unfold disassemble disassembleOnto
  simp [h, disassembleOnto_eq [_]]

end Rv64Board
