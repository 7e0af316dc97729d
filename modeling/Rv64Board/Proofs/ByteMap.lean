import Mathlib.Data.List.Induction
import Rv64Board.Proofs.DiskContent
import Rv64Board.Proofs.LittleEndianAccess

/-!
# Memory is a map from addresses to bytes

Accesses of several widths, at any alignment and in any order, overlap as they like.  Each byte
holds what was last written to it all the same.

* `Memory.Inside` — every byte of an access has an address within memory.
* `Memory.Op`, `Memory.after` — writes, and the memory after a row of them, refused ones among them.
* `Memory.Op.gives` — the byte that a write gives to an address.
* `Memory.lastGiven` — **what the most recent write gave to an address.**
* `byteAt_apply`, `byteAt_after` — one write, and a row of them.
* `Memory.Represents` — what it means for a memory to be such a map: what is read, which accesses
  are refused, and that none leaves the bytes that there are.
-/

namespace Rv64Board.Memory

/-! ## Where accesses fall -/

/-- Every byte of an access has an address within memory.  Addresses are numbers here, so that those
    past the last one do not come round to the first. -/
def Inside (base size address : UInt64) (len : Nat) : Prop :=
  ∀ k < len, base.toNat ≤ address.toNat + k ∧ address.toNat + k < base.toNat + size.toNat

instance (base size address : UInt64) (len : Nat) : Decidable (Inside base size address len) :=
  inferInstanceAs (Decidable (∀ k < len, _))

variable {m : Memory} {base size address : UInt64} {len : Nat}

lemma contains_iff_inside (hlen : 0 < len) :
    m.contains address len = true ↔ Inside m.base m.size address len := by
  rw [Sv39.contains_iff]
  constructor
  · intro h k hk
    omega
  · intro h
    have hfirst := h 0 hlen
    have hlast := h (len - 1) (by omega)
    omega

lemma inside_of_contains (hc : m.contains address len = true) :
    Inside m.base m.size address len := by
  rw [Sv39.contains_iff] at hc
  intro k hk
  omega

/-- The byte at an address. -/
def byteAt (m : Memory) (a : Nat) : UInt8 := m.byte (a - m.base.toNat)

/-! ## Writes -/

/-- What changes a memory. -/
inductive Op
  | write (address : UInt64) (w : Width) (value : UInt64)
  | writeBytes (address : UInt64) (bytes : List UInt8)
  | clear

namespace Op

/-- The memory after an operation, if that is not refused. -/
def run (m : Memory) : Op → Except AccessFault Memory
  | .write address w value => m.write address w value
  | .writeBytes address bytes => m.writeBytes address bytes
  | .clear => .ok m.clear

end Op

/-- A refused operation leaves the memory as it is. -/
def apply (m : Memory) (op : Op) : Memory :=
  match op.run m with
  | .ok m' => m'
  | .error _ => m

/-- The memory after a row of operations. -/
def after (m : Memory) (ops : List Op) : Memory := ops.foldl apply m

/-- What a write of bytes at an address gives to another address: one of the bytes, if the write
    goes there and is inside of memory. -/
def rowGives (base size address : UInt64) (bytes : List UInt8) (a : Nat) : Option UInt8 :=
  if Inside base size address bytes.length ∧ address.toNat ≤ a then bytes[a - address.toNat]?
  else none

/-- The bytes of a value, least significant first. -/
def valueBytes (w : Width) (value : UInt64) : List UInt8 :=
  (List.range w.bytes).map fun k => UInt8.ofNat (value.toNat / 256 ^ k)

/-- The byte that an operation gives to an address. -/
def Op.gives (base size : UInt64) (a : Nat) : Op → Option UInt8
  | .write address w value => rowGives base size address (valueBytes w value) a
  | .writeBytes address bytes => rowGives base size address bytes a
  | .clear => some 0

/-- What the most recent of a row of operations gave to an address, and zero if none did. -/
def lastGiven (base size : UInt64) (ops : List Op) (a : Nat) : UInt8 :=
  (ops.reverse.findSome? (Op.gives base size a)).getD 0

lemma lastGiven_append (ops : List Op) (op : Op) (a : Nat) :
    lastGiven base size (ops ++ [op]) a =
      (op.gives base size a).getD (lastGiven base size ops a) := by
  rw [lastGiven, List.reverse_append, List.reverse_singleton, List.singleton_append,
    List.findSome?_cons]
  cases op.gives base size a <;> rfl

/-! ## One write -/

lemma valueBytes_eq (w : Width) (value : UInt64) :
    valueBytes w value = LittleEndian.toBytes w.bytes value.toNat :=
  (LittleEndian.toBytes_eq_map _ _).symm

lemma write_eq_writeBytes (m : Memory) (address : UInt64) (w : Width) (value : UInt64) :
    m.write address w value = m.writeBytes address (valueBytes w value) := by
  rw [write, writeBytes, valueBytes_eq, LittleEndian.length_toBytes]
  rfl

/-- What a write of bytes gives, and to which addresses it gives nothing. -/
lemma byteAt_writeBytes {m' : Memory} {bytes : List UInt8} (h : m.writeBytes address bytes = .ok m')
    {a : Nat} (ha : m.base.toNat ≤ a) :
    m'.byteAt a = (rowGives m.base m.size address bytes a).getD (m.byteAt a) := by
  rw [writeBytes] at h
  split at h
  · next hc =>
    cases h
    have hoffset := base_add_offset hc
    have hfits := offset_add_le hc
    rw [byteAt, base_patch, byte_patch m _ _ bytes hfits]
    by_cases hcovered : m.offset address ≤ a - m.base.toNat ∧
        a - m.base.toNat < m.offset address + bytes.length
    · have hindex : a - m.base.toNat - m.offset address = a - address.toNat := by omega
      have hlt : a - address.toNat < bytes.length := by omega
      rw [if_pos hcovered, rowGives, if_pos ⟨inside_of_contains hc, by omega⟩, hindex,
        List.getD_eq_getElem?_getD, List.getElem?_eq_getElem hlt]
      rfl
    · rw [if_neg hcovered, rowGives]
      split
      · rw [List.getElem?_eq_none (by omega)]
        rfl
      · rfl
  · cases h

/-- A write that is refused would give nothing. -/
lemma rowGives_of_refused {fault : AccessFault} {bytes : List UInt8}
    (h : m.writeBytes address bytes = .error fault) (a : Nat) :
    rowGives m.base m.size address bytes a = none := by
  rw [writeBytes] at h
  split at h
  · cases h
  · next hc =>
    rw [rowGives]
    split
    · next hin =>
      cases bytes with
      | nil => rfl
      | cons b bytes =>
          exact absurd ((contains_iff_inside (Nat.succ_pos _)).mpr hin.1) hc
    · rfl

/-- **Each byte of memory holds what an operation gave it, or what it held before.** -/
lemma byteAt_apply (m : Memory) (op : Op) {a : Nat} (ha : m.base.toNat ≤ a) :
    (m.apply op).byteAt a = (op.gives m.base m.size a).getD (m.byteAt a) := by
  have hrow (bytes : List UInt8) (address : UInt64) :
      (m.apply (.writeBytes address bytes)).byteAt a =
        (rowGives m.base m.size address bytes a).getD (m.byteAt a) := by
    simp only [apply, Op.run]
    split
    · next h => exact byteAt_writeBytes h ha
    · next h =>
      rw [rowGives_of_refused h]
      rfl
  cases op with
  | write address w value =>
      have hop : m.apply (.write address w value) =
          m.apply (.writeBytes address (valueBytes w value)) := by
        simp only [apply, Op.run, write_eq_writeBytes]
      rw [hop]
      exact hrow _ address
  | writeBytes address bytes => exact hrow bytes address
  | clear => exact byte_zeroed _ _ _

lemma extent_apply (m : Memory) (op : Op) :
    (m.apply op).base = m.base ∧ (m.apply op).size = m.size := by
  have hrow {bytes : List UInt8} {address : UInt64} {m' : Memory}
      (h : m.writeBytes address bytes = .ok m') : m'.base = m.base ∧ m'.size = m.size := by
    rw [writeBytes] at h
    split at h
    · cases h
      exact ⟨base_patch .., size_patch ..⟩
    · cases h
  rw [apply]
  split
  · next h =>
    cases op with
    | write address w value =>
        rw [Op.run, write_eq_writeBytes] at h
        exact hrow h
    | writeBytes address bytes => exact hrow h
    | clear =>
        cases h
        exact ⟨rfl, rfl⟩
  · exact ⟨rfl, rfl⟩

/-! ## Rows of writes -/

lemma after_append (m : Memory) (ops : List Op) (op : Op) :
    m.after (ops ++ [op]) = (m.after ops).apply op := List.foldl_append

lemma extent_after (m : Memory) (ops : List Op) :
    (m.after ops).base = m.base ∧ (m.after ops).size = m.size := by
  induction ops using List.reverseRecOn with
  | nil => exact ⟨rfl, rfl⟩
  | append_singleton ops op ih =>
      obtain ⟨hbase, hsize⟩ := extent_apply (m.after ops) op
      rw [after_append]
      exact ⟨hbase.trans ih.1, hsize.trans ih.2⟩

/-- **Each byte of memory holds what it was last given.** -/
lemma byteAt_after (base size : UInt64) (ops : List Op) {a : Nat} (ha : base.toNat ≤ a) :
    ((zeroed base size).after ops).byteAt a = lastGiven base size ops a := by
  induction ops using List.reverseRecOn with
  | nil => exact byte_zeroed _ _ _
  | append_singleton ops op ih =>
      obtain ⟨hbase, hsize⟩ := extent_after (zeroed base size) ops
      have hfrom : ((zeroed base size).after ops).base.toNat ≤ a := by rwa [hbase]
      rw [after_append, lastGiven_append, byteAt_apply _ op hfrom, ih, hbase, hsize]
      rfl

/-! ## The map -/

/-- Where an operation writes, and how many bytes; `clear` has no such place. -/
def Op.place? : Op → Option (UInt64 × Nat)
  | .write address w _ => some (address, w.bytes)
  | .writeBytes address bytes => some (address, bytes.length)
  | .clear => none

/-- A memory is a map from the addresses of an extent to bytes. -/
structure Represents (m : Memory) (base size : UInt64) (value : Nat → UInt8) : Prop where
  /-- A value is read least significant byte first, and is zero beyond its bytes. -/
  read_inside : ∀ address w, Inside base size address w.bytes →
    ∃ v, m.read address w = .ok v ∧
      v.toNat = ∑ k ∈ Finset.range w.bytes, (value (address.toNat + k)).toNat * 256 ^ k
  readBytes_inside : ∀ address len, 0 < len → Inside base size address len →
    m.readBytes address len = .ok ((List.range len).map fun k => value (address.toNat + k))
  run_inside : ∀ (op : Op) address len, op.place? = some (address, len) → 0 < len →
    Inside base size address len → ∃ m', op.run m = .ok m'
  read_outside : ∀ address w, ¬Inside base size address w.bytes →
    m.read address w = .error ⟨address, w.bytes⟩
  readBytes_outside : ∀ address len, 0 < len → ¬Inside base size address len →
    m.readBytes address len = .error ⟨address, len⟩
  run_outside : ∀ (op : Op) address len, op.place? = some (address, len) → 0 < len →
    ¬Inside base size address len → op.run m = .error ⟨address, len⟩ ∧ m.apply op = m
  /-- A write leaves all bytes but its own. -/
  elsewhere : ∀ (op : Op) address len a, op.place? = some (address, len) →
    ¬(address.toNat ≤ a ∧ a < address.toNat + len) → base.toNat ≤ a →
    (m.apply op).byteAt a = m.byteAt a
  /-- An access that is not refused stays within the bytes that there are, and their pages. -/
  inRange : ∀ address len, m.contains address len = true →
    m.offset address + len ≤ m.content.length ∧
      ∀ k < len, (m.offset address + k) / pageSize < m.pages.size

lemma readBytes_of_contains (hc : m.contains address len = true) :
    m.readBytes address len =
      .ok ((List.range len).map fun k => m.byteAt (address.toNat + k)) := by
  have hoffset := base_add_offset hc
  rw [readBytes, if_pos hc, slice, List.range'_eq_map_range, List.map_map]
  congr 1
  refine List.map_congr_left fun k _ => ?_
  rw [Function.comp, byteAt, show address.toNat + k - m.base.toNat = m.offset address + k by omega]

/-- A value is what its bytes amount to. -/
lemma read_of_contains {w : Width} (hc : m.contains address w.bytes = true) :
    ∃ v, m.read address w = .ok v ∧
      v.toNat = ∑ k ∈ Finset.range w.bytes, (m.byteAt (address.toNat + k)).toNat * 256 ^ k := by
  refine ⟨m.load address w, if_pos hc, ?_⟩
  have hbytes := readBytes_of_contains hc
  rw [readBytes, if_pos hc, Except.ok.injEq] at hbytes
  rw [toNat_load, hbytes, LittleEndian.ofBytes_range]

section Places

variable {op : Op}

lemma run_of_contains (h : op.place? = some (address, len)) (hc : m.contains address len = true) :
    ∃ m', op.run m = .ok m' := by
  cases op with
  | write address' w value =>
      cases h
      exact ⟨_, if_pos hc⟩
  | writeBytes address' bytes =>
      cases h
      exact ⟨_, if_pos hc⟩
  | clear => cases h

lemma run_of_not_contains (h : op.place? = some (address, len))
    (hc : ¬m.contains address len = true) : op.run m = .error ⟨address, len⟩ := by
  cases op with
  | write address' w value =>
      cases h
      exact if_neg hc
  | writeBytes address' bytes =>
      cases h
      exact if_neg hc
  | clear => cases h

/-- Only the bytes from the place of a write on, as many as it has, are given anything. -/
lemma gives_eq_none (h : op.place? = some (address, len)) {a : Nat}
    (hout : ¬(address.toNat ≤ a ∧ a < address.toNat + len)) : op.gives base size a = none := by
  have hrow {bytes : List UInt8} (hlen : bytes.length = len) :
      rowGives base size address bytes a = none := by
    rw [rowGives]
    split
    · exact List.getElem?_eq_none (by omega)
    · rfl
  cases op with
  | write address' w value =>
      cases h
      exact hrow (by simp [valueBytes])
  | writeBytes address' bytes =>
      cases h
      exact hrow rfl
  | clear => cases h

end Places

/-- A memory of some extent represents its bytes. -/
lemma represents_of_byteAt {value : Nat → UInt8} (hbase : m.base = base) (hsize : m.size = size)
    (hvalue : ∀ a, base.toNat ≤ a → m.byteAt a = value a) : m.Represents base size value := by
  subst hbase hsize
  have hbyte (address : UInt64) (len : Nat) (hc : m.contains address len = true) (k : Nat) :
      m.byteAt (address.toNat + k) = value (address.toNat + k) := by
    have hfrom := (Sv39.contains_iff m address len).mp hc
    exact hvalue _ (by omega)
  constructor
  case read_inside =>
    intro address w hin
    have hc := (contains_iff_inside w.bytes_pos).mpr hin
    simpa only [hbyte address _ hc] using read_of_contains hc
  case readBytes_inside =>
    intro address len hlen hin
    have hc := (contains_iff_inside hlen).mpr hin
    simpa only [hbyte address _ hc] using readBytes_of_contains hc
  case run_inside =>
    intro op address len hplace hlen hin
    exact run_of_contains hplace ((contains_iff_inside hlen).mpr hin)
  case read_outside =>
    intro address w hout
    exact if_neg fun hc => hout (inside_of_contains hc)
  case readBytes_outside =>
    intro address len _ hout
    exact if_neg fun hc => hout (inside_of_contains hc)
  case run_outside =>
    intro op address len hplace _ hout
    have hrun := run_of_not_contains (m := m) hplace fun hc => hout (inside_of_contains hc)
    exact ⟨hrun, by rw [apply, hrun]⟩
  case elsewhere =>
    intro op address len a hplace hout ha
    rw [byteAt_apply m op ha, gives_eq_none hplace hout]
    rfl
  case inRange =>
    intro address len hc
    have hfits := offset_add_le hc
    have hcovered := m.covered
    rw [length_content]
    refine ⟨hfits, fun k hk => ?_⟩
    simp only [pageSize] at hcovered ⊢
    omega

/-- **Memory is a map from addresses to bytes.**  After any row of writes and clears on a new
    memory, refused ones among them, the accesses that are not refused are those whose bytes all
    have addresses within memory.  A refused one reports its address and length and leaves memory as
    it is, reads return for every byte what was last given to its address, and no access leaves the
    bytes that there are. -/
theorem represents_lastGiven (base size : UInt64) (ops : List Op) :
    ((zeroed base size).after ops).Represents base size (lastGiven base size ops) := by
  obtain ⟨hbase, hsize⟩ := extent_after (zeroed base size) ops
  exact represents_of_byteAt hbase hsize fun a ha => byteAt_after base size ops ha

-- a byte inside of a doubleword, a word across the end, and a half before the beginning
example :
    let ops : List Op := [.write 0x80000000 .double 0xFFFFFFFFFFFFFFFF,
      .write 0x80000002 .byte 0x1234, .write 0x8000000E .word 0, .writeBytes 0x7FFFFFFF [1, 2]]
    (List.range 10).map (fun k => lastGiven 0x80000000 0x10 ops (0x80000000 + k)) =
      [0xFF, 0xFF, 0x34, 0xFF, 0xFF, 0xFF, 0xFF, 0xFF, 0, 0] := by
  decide

end Rv64Board.Memory
