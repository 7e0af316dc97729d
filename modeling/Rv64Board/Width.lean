/-!
# Access widths and byte order

Memory and devices are accessed one, two, four or eight bytes at a time, least significant byte
first.

* `Width`: the four widths.
* `LittleEndian.ofBytes` and `LittleEndian.toBytes`: a number from its bytes and back.
-/

namespace Rv64Board

/-- The width of a memory access. -/
inductive Width
  | byte
  | half
  | word
  | double
  deriving DecidableEq, Inhabited

namespace Width

/-- The number of bytes that an access of a width covers. -/
def bytes : Width → Nat
  | .byte => 1
  | .half => 2
  | .word => 4
  | .double => 8

theorem bytes_pos (w : Width) : 0 < w.bytes := by cases w <;> decide

theorem bytes_le (w : Width) : w.bytes ≤ 8 := by cases w <;> decide

/-- The width that covers a number of bytes. -/
def ofBytes? : Nat → Option Width
  | 1 => some .byte
  | 2 => some .half
  | 4 => some .word
  | 8 => some .double
  | _ => none

@[simp] theorem ofBytes?_bytes (w : Width) : ofBytes? w.bytes = some w := by
  cases w <;> rfl

/-- The bits of a value that an access of a width carries. -/
def mask : Width → UInt64
  | .byte => 0xFF
  | .half => 0xFFFF
  | .word => 0xFFFFFFFF
  | .double => 0xFFFFFFFFFFFFFFFF

/-- An address is aligned to a width when the width divides it. -/
def aligned (w : Width) (address : UInt64) : Bool :=
  address.toNat % w.bytes == 0

end Width

namespace LittleEndian

/-- The number whose bytes are given, least significant first. -/
def ofBytes : List UInt8 → Nat
  | [] => 0
  | b :: bs => b.toNat + 256 * ofBytes bs

/-- The lowest `count` bytes of a number, least significant first. -/
def toBytes : Nat → Nat → List UInt8
  | 0, _ => []
  | count + 1, n => UInt8.ofNat n :: toBytes count (n / 256)

@[simp] theorem length_toBytes (count n : Nat) : (toBytes count n).length = count := by
  induction count generalizing n with
  | zero => rfl
  | succ count ih => simp [toBytes, ih]

/-- **Bytes carry a number exactly,** up to the size they have room for. -/
theorem ofBytes_toBytes (count n : Nat) : ofBytes (toBytes count n) = n % 1 <<< (8 * count) := by
  induction count generalizing n with
  | zero => simp [toBytes, ofBytes, Nat.mod_one]
  | succ count ih =>
    have h : (UInt8.ofNat n).toNat = n % 256 := by simp
    have hroom : 1 <<< (8 * (count + 1)) = 256 * 1 <<< (8 * count) := by
      simp only [Nat.shiftLeft_eq, Nat.one_mul, Nat.mul_add, Nat.pow_add]
      omega
    rw [toBytes, ofBytes, ih, h, hroom, Nat.mod_mul]

/-- **A number has one row of bytes** of each length. -/
theorem toBytes_ofBytes (bs : List UInt8) : toBytes bs.length (ofBytes bs) = bs := by
  induction bs with
  | nil => rfl
  | cons b bs ih =>
    have hb : b.toNat < 256 := b.toNat_lt
    have h : UInt8.ofNat (b.toNat + 256 * ofBytes bs) = b := by
      apply UInt8.toNat_inj.mp
      simp
    have hd : (b.toNat + 256 * ofBytes bs) / 256 = ofBytes bs := by omega
    rw [List.length_cons, ofBytes, toBytes, h, hd, ih]

end LittleEndian

end Rv64Board
