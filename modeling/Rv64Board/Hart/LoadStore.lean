import Rv64Board.Hart.Paging
import Rv64Board.Instruction.Compressed

/-!
# Loads, stores and fetches

Accesses of the hart through paging and the bus. An aligned access is one access to the bus. A
misaligned one is made byte by byte, once every byte has been translated, and a store also waits
until every byte is known to lead somewhere; so a store that faults has stored nothing.
-/

namespace Rv64Board.Hart

/-- The addresses of the bytes of an access. -/
def byteAddresses (address : UInt64) (w : Width) : List UInt64 :=
  (List.range w.bytes).map fun i => address + UInt64.ofNat i

/-- Translates a row of addresses, in order. -/
def translateAll (h : Hart) (access : Access) : List UInt64 → EStateM Exception Bus (List UInt64)
  | [] => return []
  | a :: rest => do
    let physical ← h.translate access a
    return physical :: (← translateAll h access rest)

/-- Reads a row of bytes from the bus, in order. -/
def readEach (fault : Exception) : List UInt64 → EStateM Exception Bus (List UInt8)
  | [] => return []
  | a :: rest => do
    let b ← EStateM.adaptExcept (fun _ => fault) (Bus.read a .byte)
    return b.toUInt8 :: (← readEach fault rest)

/-- Writes bytes to a row of addresses on the bus, in order. -/
def writeEach (fault : Exception) : List (UInt64 × UInt8) → EStateM Exception Bus Unit
  | [] => return ()
  | (a, b) :: rest => do
    EStateM.adaptExcept (fun _ => fault) (Bus.write a .byte b.toUInt64)
    writeEach fault rest

/-- Every address of a row leads to memory or a device. -/
def backed (row : List UInt64) : EStateM Exception Bus Bool := fun b =>
  .ok (row.all fun a => b.contains a 1) b

/-- Loads a value. -/
def load (h : Hart) (address : UInt64) (w : Width) : EStateM Exception Bus UInt64 := do
  let fault := Exception.loadAccessFault address
  if w.aligned address then
    let physical ← h.translate .load address
    EStateM.adaptExcept (fun _ => fault) (Bus.read physical w)
  else
    let row ← h.translateAll .load (byteAddresses address w)
    let bytes ← readEach fault row
    return UInt64.ofNat (LittleEndian.ofBytes bytes)

/-- Stores a value. -/
def store (h : Hart) (address : UInt64) (w : Width) (value : UInt64) :
    EStateM Exception Bus Unit := do
  let fault := Exception.storeAccessFault address
  if w.aligned address then
    let physical ← h.translate .store address
    EStateM.adaptExcept (fun _ => fault) (Bus.write physical w value)
  else
    let row ← h.translateAll .store (byteAddresses address w)
    if ← backed row then
      writeEach fault (row.zip (LittleEndian.toBytes w.bytes value.toNat))
    else throw fault

/-- Translates the address of an atomic store, which has to be aligned. -/
def atomicAddress (h : Hart) (address : UInt64) (w : Width) : EStateM Exception Bus UInt64 :=
  if w.aligned address then h.translate .store address
  else throw (.storeMisaligned address)

/-- Fetches the half of an instruction at an address. -/
def fetchHalf (h : Hart) (address : UInt64) : EStateM Exception Bus UInt16 := do
  let physical ← h.translate .fetch address
  let half ←
    EStateM.adaptExcept (fun _ => Exception.instructionAccessFault address)
      (Bus.read physical .half)
  return half.toUInt16

/-- An instruction with the bits it was decoded from and its length. -/
structure Fetched where
  instruction : Instruction
  raw : UInt32
  len : UInt64

/-- Raises the exception of a failed decoding. -/
def ofExcept {α : Type} : Except Exception α → EStateM Exception Bus α
  | .ok a => pure a
  | .error e => throw e

/-- Fetches and decodes the instruction that the program counter points to. -/
def fetch (h : Hart) : EStateM Exception Bus Fetched := do
  let low ← h.fetchHalf h.pc
  if Instruction.lengthOf low.toUInt32 = 2 then
    let instruction ← ofExcept (Instruction.decodeCompressed low)
    return ⟨instruction, low.toUInt32, 2⟩
  else
    let high ← h.fetchHalf (h.pc + 2)
    let raw := low.toUInt32 ||| high.toUInt32 <<< 16
    let instruction ← ofExcept (Instruction.decode raw)
    return ⟨instruction, raw, 4⟩

end Rv64Board.Hart
