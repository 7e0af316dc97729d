import Mathlib.Data.Nat.Bitwise
import Rv64Board.Proofs.BusAccess

/-!
# Marks in memory

The walk through page tables writes to memory in one way only: it sets the accessed bit of the entry
it ends at, and for a store the dirty bit too.  Both bits stand in the lowest byte of an entry, and
entries stand at multiples of eight.

* `Gains` — a byte that has gained some of the bits `0xC0` and lost none.
* `Memory.Marked` — memory before and after any number of such writes.
* `byte_store_or` — writing a doubleword back with bits of its lowest byte set changes that byte
  only, which makes such a write a mark (`marked_store_or`).
* `Marked.ofBytes_slice` — an entry read from marked memory is the old entry with some of the two
  bits set, and nothing else about it has changed.
-/

namespace Rv64Board

/-- A byte has gained some of the accessed and dirty bits, and has not changed otherwise. -/
def Gains (old new : UInt8) : Prop :=
  ∃ s : UInt8, s &&& 0xC0 = s ∧ new = old ||| s

namespace Gains

lemma refl (b : UInt8) : Gains b b := ⟨0, by decide, by simp⟩

lemma trans {a b c : UInt8} (hab : Gains a b) (hbc : Gains b c) : Gains a c := by
  obtain ⟨s, hs, rfl⟩ := hab
  obtain ⟨t, ht, rfl⟩ := hbc
  refine ⟨s ||| t, ?_, UInt8.or_assoc a s t⟩
  have hdistrib : (s ||| t) &&& 0xC0 = (s &&& 0xC0) ||| (t &&& 0xC0) := by
    apply UInt8.toNat_inj.mp
    simp only [UInt8.toNat_and, UInt8.toNat_or]
    exact Nat.and_or_distrib_right _ _ _
  rw [hdistrib, hs, ht]

end Gains

namespace Memory

/-- Memory before and after entries of page tables were marked. -/
structure Marked (m m' : Memory) : Prop where
  base : m'.base = m.base
  size : m'.size = m.size
  gains : ∀ j, Gains (m.byte j) (m'.byte j)
  /-- Only the lowest byte of a doubleword can have changed. -/
  aligned : ∀ j, m'.byte j ≠ m.byte j → (m.base.toNat + j) % 8 = 0

namespace Marked

lemma refl (m : Memory) : Marked m m where
  base := rfl
  size := rfl
  gains _ := Gains.refl _
  aligned _ h := absurd rfl h

lemma trans {m₁ m₂ m₃ : Memory} (h₁ : Marked m₁ m₂) (h₂ : Marked m₂ m₃) : Marked m₁ m₃ where
  base := h₂.base.trans h₁.base
  size := h₂.size.trans h₁.size
  gains j := (h₁.gains j).trans (h₂.gains j)
  aligned j h := by
    by_cases h₁₂ : m₂.byte j = m₁.byte j
    · rw [← h₁.base]
      refine h₂.aligned j ?_
      rw [h₁₂]
      exact h
    · exact h₁.aligned j h₁₂

end Marked

end Memory

/-- Two buses of which the second has the memory of the first with entries marked. -/
abbrev Bus.RamMarked (b b' : Bus) : Prop := Memory.Marked b.ram b'.ram

instance : IsPreorder Bus Bus.RamMarked where
  refl b := Memory.Marked.refl b.ram
  trans _ _ _ := Memory.Marked.trans

lemma Bus.leaves_ramMarked_read (address : UInt64) (w : Width) :
    Leaves Bus.RamMarked (Bus.read address w) := by
  intro b
  show Memory.Marked b.ram (finalState (Bus.read address w b)).ram
  rw [Bus.leaves_sameRam_read address w b]
  exact Memory.Marked.refl _

namespace Memory

/-! ## Bytes of a doubleword -/

lemma offset_add_le {m : Memory} {address : UInt64} {len : Nat}
    (h : m.contains address len = true) : m.offset address + len ≤ m.size.toNat := by
  simp only [contains, Bool.and_eq_true, decide_eq_true_eq] at h
  exact h.2

lemma base_add_offset {m : Memory} {address : UInt64} {len : Nat}
    (h : m.contains address len = true) : m.base.toNat + m.offset address = address.toNat := by
  simp only [contains, Bool.and_eq_true, decide_eq_true_eq] at h
  have hle : m.base.toNat ≤ address.toNat := UInt64.le_iff_toNat_le.mp h.1
  rw [offset, UInt64.toNat_sub_of_le _ _ h.1]
  omega

/-- The bytes after a store within memory. -/
lemma byte_store {m : Memory} {address : UInt64} {w : Width}
    (h : m.contains address w.bytes = true) (value : UInt64) (j : Nat) :
    (m.store address w value).byte j =
      if m.offset address ≤ j ∧ j < m.offset address + w.bytes then
        (LittleEndian.toBytes w.bytes value.toNat).getD (j - m.offset address) 0
      else m.byte j := by
  have hfit : m.offset address + (LittleEndian.toBytes w.bytes value.toNat).length ≤
      m.size.toNat := by
    rw [LittleEndian.length_toBytes]
    exact offset_add_le h
  rw [store, byte_patch m _ _ _ hfit, LittleEndian.length_toBytes]

lemma length_slice (m : Memory) (i n : Nat) : (m.slice i n).length = n := by
  simp [slice]

lemma slice_succ (m : Memory) (i n : Nat) :
    m.slice i (n + 1) = m.byte i :: m.slice (i + 1) n := by
  simp [slice, List.range'_succ]

lemma slice_append (m : Memory) (i a b : Nat) :
    m.slice i (a + b) = m.slice i a ++ m.slice (i + a) b := by
  rw [slice, slice, slice, ← List.map_append, List.range'_append_1]

lemma getD_slice (m : Memory) {i n k : Nat} (hk : k < n) :
    (m.slice i n).getD k 0 = m.byte (i + k) := by
  simp [slice, List.getD_eq_getElem?_getD, hk]

/-- What has been written is read back. -/
lemma slice_patch (m : Memory) {i : Nat} {bs : List UInt8} (h : i + bs.length ≤ m.size.toNat) :
    (m.patch i bs).slice i bs.length = bs := by
  refine List.ext_getElem (length_slice _ _ _) fun k hk hk' => ?_
  have hbyte := byte_patch m i (i + k) bs h
  rw [if_pos (by omega), Nat.add_sub_cancel_left, List.getD_eq_getElem _ _ hk'] at hbyte
  simpa [slice] using hbyte

end Memory

lemma LittleEndian.ofBytes_lt (bs : List UInt8) : ofBytes bs < 256 ^ bs.length := by
  induction bs with
  | nil => simp [ofBytes]
  | cons b bs ih =>
      have hb : b.toNat < 256 := b.toNat_lt
      rw [ofBytes, List.length_cons, Nat.pow_succ]
      omega

namespace Memory

/-- A loaded value is the number that the bytes stand for. -/
lemma toNat_load (m : Memory) (address : UInt64) (w : Width) :
    (m.load address w).toNat = LittleEndian.ofBytes (m.slice (m.offset address) w.bytes) := by
  have hlt := LittleEndian.ofBytes_lt (m.slice (m.offset address) w.bytes)
  rw [length_slice] at hlt
  have hpow : 256 ^ w.bytes ≤ 2 ^ 64 := by cases w <;> decide
  rw [load, UInt64.toNat_ofNat_of_lt']
  exact Nat.lt_of_lt_of_le hlt hpow

/-! ## Setting bits of a lowest byte -/

/-- Setting bits of the lowest byte sets them in the number. -/
lemma ofBytes_or (b s : UInt8) (bs : List UInt8) :
    LittleEndian.ofBytes ((b ||| s) :: bs) = LittleEndian.ofBytes (b :: bs) ||| s.toNat := by
  have hb : b.toNat < 2 ^ 8 := b.toNat_lt
  have hbs : (b ||| s).toNat < 2 ^ 8 := (b ||| s).toNat_lt
  have split {c : Nat} (hc : c < 2 ^ 8) :
      c + 256 * LittleEndian.ofBytes bs = LittleEndian.ofBytes bs <<< 8 ||| c := by
    rw [← Nat.shiftLeft_add_eq_or_of_lt hc, Nat.shiftLeft_eq]
    omega
  simp only [LittleEndian.ofBytes]
  rw [split hb, split hbs, UInt8.toNat_or, Nat.or_assoc]

/-- **Setting bits of the lowest byte of a doubleword changes that byte only.** -/
lemma byte_store_or {m : Memory} {address : UInt64} (h : m.contains address 8 = true) (s : UInt8)
    (j : Nat) :
    (m.store address .double (m.load address .double ||| s.toUInt64)).byte j =
      if j = m.offset address then m.byte j ||| s else m.byte j := by
  have hvalue : (m.load address .double ||| s.toUInt64).toNat = LittleEndian.ofBytes
      ((m.byte (m.offset address) ||| s) :: m.slice (m.offset address + 1) 7) := by
    rw [UInt64.toNat_or, toNat_load, ofBytes_or]
    rfl
  rw [byte_store h, hvalue]
  -- the written number has the bytes it was put together from
  have hbytes := LittleEndian.toBytes_ofBytes
    ((m.byte (m.offset address) ||| s) :: m.slice (m.offset address + 1) 7)
  rw [List.length_cons, length_slice] at hbytes
  rw [show Width.double.bytes = 7 + 1 from rfl, hbytes]
  by_cases hj : j = m.offset address
  · subst hj
    simp
  · rw [if_neg hj]
    split
    · next hin =>
      obtain ⟨k, rfl⟩ : ∃ k, j = m.offset address + (k + 1) :=
        ⟨j - m.offset address - 1, by omega⟩
      rw [Nat.add_sub_cancel_left, List.getD_cons_succ, getD_slice m (by omega)]
      congr 1
      omega
    · rfl

/-- Setting some of the two bits in the lowest byte of an entry marks memory. -/
lemma marked_store_or {m : Memory} {address : UInt64} (h : m.contains address 8 = true)
    (haligned : address.toNat % 8 = 0) {s : UInt8} (hs : s &&& 0xC0 = s) :
    Marked m (m.store address .double (m.load address .double ||| s.toUInt64)) where
  base := base_patch _ _ _
  size := size_patch _ _ _
  gains j := by
    rw [byte_store_or h]
    split
    · exact ⟨s, hs, rfl⟩
    · exact Gains.refl _
  aligned j hj := by
    rw [byte_store_or h] at hj
    by_cases hoff : j = m.offset address
    · rw [hoff, base_add_offset h]
      exact haligned
    · rw [if_neg hoff] at hj
      exact absurd rfl hj

/-! ## Reading marked memory -/

/-- **An entry read from marked memory is the old entry with some of the two bits set.** -/
lemma Marked.ofBytes_slice {m m' : Memory} (h : Marked m m') {i : Nat}
    (haligned : (m.base.toNat + i) % 8 = 0) :
    ∃ s : UInt8, s &&& 0xC0 = s ∧
      LittleEndian.ofBytes (m'.slice i 8) = LittleEndian.ofBytes (m.slice i 8) ||| s.toNat := by
  obtain ⟨s, hs, hbyte⟩ := h.gains i
  refine ⟨s, hs, ?_⟩
  -- the seven upper bytes stand at addresses that are no multiples of eight
  have hupper : m'.slice (i + 1) 7 = m.slice (i + 1) 7 := by
    refine List.map_congr_left fun j hj => ?_
    rw [List.mem_range'_1] at hj
    by_contra hne
    have := h.aligned j hne
    omega
  rw [slice_succ m', slice_succ m, hupper, hbyte, ofBytes_or]

end Memory

end Rv64Board
