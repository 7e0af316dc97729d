import Rv64Board.Text.Digits
import Rv64Board.Width

/-!
# Physical memory

A block of bytes that starts at a base address. It is kept in pages, so that a large memory that is
hardly used stays small; pages are seen only through `byte`.

* `Memory.byte m i`: the byte at distance `i` from the base.
* `Memory.slice` and `Memory.patch`: a row of bytes, read and replaced.
* `Memory.contains m a n`: all `n` bytes from address `a` on belong to the memory.
* `Memory.read`, `write`, `readBytes`, `writeBytes`: the checked accesses. A refused access changes
  nothing and reports the address and length it was asked for.

Main statements: `byte_setByte`, and through it `byte_patch`, say that a write changes exactly the
bytes it covers.
-/

namespace Rv64Board

/-! ## Pages -/

/-- The number of bytes in a page. -/
abbrev pageSize : Nat := 4096

/-- A page of memory. -/
structure Page where
  bytes : ByteArray
  size_bytes : bytes.size = pageSize

namespace Page

/-- A page of zeros. -/
def zero : Page :=
  ⟨⟨Array.replicate pageSize 0⟩, Array.size_replicate⟩

instance : Inhabited Page := ⟨zero⟩

/-- The byte at a position within a page. -/
def get (p : Page) (i : Nat) (h : i < pageSize) : UInt8 :=
  p.bytes.get i (by rw [p.size_bytes]; exact h)

/-- A page with the byte at a position replaced. -/
def set (p : Page) (i : Nat) (h : i < pageSize) (b : UInt8) : Page :=
  ⟨p.bytes.set i b (by rw [p.size_bytes]; exact h), by
    rw [ByteArray.size, ByteArray.data_set, Array.size_set]; exact p.size_bytes⟩

theorem get_zero (i : Nat) (h : i < pageSize) : zero.get i h = 0 :=
  Array.getElem_replicate ..

theorem get_set (p : Page) (i j : Nat) (hi : i < pageSize) (hj : j < pageSize) (b : UInt8) :
    (p.set i hi b).get j hj = if i = j then b else p.get j hj := by
  have hbytes : i < p.bytes.data.size := Nat.lt_of_lt_of_eq hi p.size_bytes.symm
  exact Array.getElem_set hbytes ..

end Page

/-! ## Memory -/

/-- An access that does not fall entirely within memory or a device. -/
structure AccessFault where
  address : UInt64
  width : Nat
  deriving DecidableEq, Inhabited

/-- The wording of an access fault. -/
def AccessFault.message (f : AccessFault) : String :=
  "access fault at " ++ Text.hex f.address.toNat ++ " (" ++ toString f.width ++ " bytes)"

/-- Physical memory: `size` bytes from address `base` on. -/
structure Memory where
  base : UInt64
  size : UInt64
  pages : Array Page
  covered : size.toNat ≤ pages.size * pageSize

namespace Memory

/-- Memory filled with zeros. -/
def zeroed (base size : UInt64) : Memory where
  base := base
  size := size
  pages := Array.replicate ((size.toNat + (pageSize - 1)) / pageSize) Page.zero
  covered := by simp only [Array.size_replicate, pageSize]; omega

instance : Inhabited Memory := ⟨zeroed 0 0⟩

/-- The memory of the same extent with every byte zero. -/
def clear (m : Memory) : Memory :=
  zeroed m.base m.size

/-- The byte at a distance from the base; past the end there are only zeros. -/
def byte (m : Memory) (i : Nat) : UInt8 :=
  if h : i / pageSize < m.pages.size then
    m.pages[i / pageSize].get (i % pageSize) (Nat.mod_lt _ (by decide))
  else 0

/-- Replaces the byte at a distance from the base. -/
def setByte (m : Memory) (i : Nat) (b : UInt8) : Memory where
  base := m.base
  size := m.size
  pages := m.pages.modify (i / pageSize) fun p =>
    p.set (i % pageSize) (Nat.mod_lt _ (by decide)) b
  covered := by simpa using m.covered

/-- The row of `n` bytes at a distance from the base. -/
def slice (m : Memory) (i n : Nat) : List UInt8 :=
  (List.range' i n).map m.byte

/-- Replaces a row of bytes at a distance from the base. -/
def patch (m : Memory) : Nat → List UInt8 → Memory
  | _, [] => m
  | i, b :: bs => (m.setByte i b).patch (i + 1) bs

/-- All bytes of a range of addresses belong to the memory. -/
def contains (m : Memory) (address : UInt64) (len : Nat) : Bool :=
  m.base ≤ address && (address - m.base).toNat + len ≤ m.size.toNat

/-- The distance of an address from the base. -/
def offset (m : Memory) (address : UInt64) : Nat :=
  (address - m.base).toNat

/-- The value at an address, least significant byte first, without a check. -/
def load (m : Memory) (address : UInt64) (w : Width) : UInt64 :=
  UInt64.ofNat (LittleEndian.ofBytes (m.slice (m.offset address) w.bytes))

/-- Replaces the value at an address, without a check. -/
def store (m : Memory) (address : UInt64) (w : Width) (value : UInt64) : Memory :=
  m.patch (m.offset address) (LittleEndian.toBytes w.bytes value.toNat)

/-! ## Checked accesses -/

/-- Reads a value. -/
def read (m : Memory) (address : UInt64) (w : Width) : Except AccessFault UInt64 :=
  if m.contains address w.bytes then .ok (m.load address w) else .error ⟨address, w.bytes⟩

/-- Writes a value. -/
def write (m : Memory) (address : UInt64) (w : Width) (value : UInt64) :
    Except AccessFault Memory :=
  if m.contains address w.bytes then .ok (m.store address w value)
  else .error ⟨address, w.bytes⟩

/-- Reads a row of bytes. -/
def readBytes (m : Memory) (address : UInt64) (len : Nat) : Except AccessFault (List UInt8) :=
  if m.contains address len then .ok (m.slice (m.offset address) len)
  else .error ⟨address, len⟩

/-- Writes a row of bytes. -/
def writeBytes (m : Memory) (address : UInt64) (bytes : List UInt8) : Except AccessFault Memory :=
  if m.contains address bytes.length then .ok (m.patch (m.offset address) bytes)
  else .error ⟨address, bytes.length⟩

/-- The extent of a memory in words, its content left out. -/
def summary (m : Memory) : String :=
  "Memory \x7b base: " ++ Text.hex m.base.toNat ++ ", size: " ++ Text.hex m.size.toNat ++
    ", cells: [...] \x7d"

/-! ## Bytes after an operation -/

@[simp] theorem base_setByte (m : Memory) (i : Nat) (b : UInt8) : (m.setByte i b).base = m.base :=
  rfl

@[simp] theorem size_setByte (m : Memory) (i : Nat) (b : UInt8) : (m.setByte i b).size = m.size :=
  rfl

@[simp] theorem byte_zeroed (base size : UInt64) (i : Nat) : (zeroed base size).byte i = 0 := by
  simp [byte, zeroed, Page.get_zero]

/-- **A byte write changes one byte of the memory and no other.** -/
theorem byte_setByte (m : Memory) (i j : Nat) (b : UInt8) (hi : i < m.size.toNat) :
    (m.setByte i b).byte j = if i = j then b else m.byte j := by
  have hp : i / pageSize < m.pages.size := by
    have := m.covered
    simp only [pageSize] at *
    omega
  by_cases hij : i = j
  · subst hij
    simp [byte, setByte, hp, Array.getElem_modify, Page.get_set]
  · by_cases hq : i / pageSize = j / pageSize
    · have hr : i % pageSize ≠ j % pageSize := by simp only [pageSize] at *; omega
      have hj : j / pageSize < m.pages.size := hq ▸ hp
      simp [byte, setByte, hq, hj, hij, Array.getElem_modify, Page.get_set, hr]
    · simp [byte, setByte, hij, Array.getElem_modify, hq]

@[simp] theorem base_patch (m : Memory) (i : Nat) (bs : List UInt8) :
    (m.patch i bs).base = m.base := by
  induction bs generalizing m i with
  | nil => rfl
  | cons b bs ih => simp [patch, ih]

@[simp] theorem size_patch (m : Memory) (i : Nat) (bs : List UInt8) :
    (m.patch i bs).size = m.size := by
  induction bs generalizing m i with
  | nil => rfl
  | cons b bs ih => simp [patch, ih]

/-- **A write changes exactly the bytes it covers,** and they become what was written. -/
theorem byte_patch (m : Memory) (i j : Nat) (bs : List UInt8)
    (h : i + bs.length ≤ m.size.toNat) :
    (m.patch i bs).byte j =
      if i ≤ j ∧ j < i + bs.length then bs.getD (j - i) 0 else m.byte j := by
  induction bs generalizing m i with
  | nil =>
    have hout : ¬(i ≤ j ∧ j < i + ([] : List UInt8).length) := by
      rw [List.length_nil]
      omega
    rw [if_neg hout]
    rfl
  | cons b bs ih =>
    simp only [List.length_cons] at h
    rw [patch, ih (m.setByte i b) (i + 1) (by rw [size_setByte]; omega),
      byte_setByte m i j b (by omega)]
    by_cases hij : i = j
    · subst hij
      have hlater : ¬(i + 1 ≤ i ∧ i < i + 1 + bs.length) := by omega
      have hhere : i ≤ i ∧ i < i + (b :: bs).length := by
        rw [List.length_cons]
        omega
      rw [if_neg hlater, if_pos rfl, if_pos hhere, Nat.sub_self, List.getD_cons_zero]
    · by_cases hin : i + 1 ≤ j ∧ j < i + 1 + bs.length
      · have h1 : i ≤ j ∧ j < i + (b :: bs).length := by rw [List.length_cons]; omega
        have h2 : j - i = (j - (i + 1)) + 1 := by omega
        rw [if_pos hin, if_pos h1, h2, List.getD_cons_succ]
      · have h1 : ¬(i ≤ j ∧ j < i + (b :: bs).length) := by rw [List.length_cons]; omega
        rw [if_neg hin, if_neg h1, if_neg hij]

end Memory

end Rv64Board
