import Mathlib.Algebra.Ring.Nat
import Mathlib.Data.Fintype.Basic
import Mathlib.Data.List.Induction
import Mathlib.Tactic.FinCases
import Rv64Board.Device.Clint
import Rv64Board.Device.Plic

/-!
# Wide registers of devices are rows of bytes

A register of 64 bits can be read and written in parts that start at any of its bytes.  Parts may
overlap, and may hang over the end of the register.

* `registerByte` — the bytes of a register, least significant first.
* `PartWrite`, `afterParts` — writes to parts, and the register after a row of them.
* `lastWritten` — **what the most recent write gave to a byte.**
* `registerByte_apply`, `registerByte_afterParts` — one write, and a row of them.
* `WideRegister` — a register of a device, and `WideRegister.IsByteRow`: what it means for it to be
  a row of bytes as far as its bits can be set.
* `WideRegister.Wired.isByteRow` — reaching every part of itself is all that a register needs.
-/

namespace Rv64Board

/-! ## Bytes of a register -/

/-- The byte of a register at a position, least significant first. -/
def registerByte (register : UInt64) (k : Nat) : UInt8 :=
  UInt8.ofNat (register.toNat / 256 ^ k)

/-- A write to a part of a register. -/
structure PartWrite where
  /-- The byte at which the part starts. -/
  first : Fin 8
  width : Width
  value : UInt64

namespace PartWrite

/-- The byte at a position lies within the part. -/
def Covers (p : PartWrite) (k : Nat) : Prop :=
  p.first.val ≤ k ∧ k < p.first.val + p.width.bytes

instance (p : PartWrite) (k : Nat) : Decidable (p.Covers k) :=
  inferInstanceAs (Decidable (_ ∧ _))

/-- The byte that a write gives to a position. -/
def gives (p : PartWrite) (k : Nat) : Option UInt8 :=
  if p.Covers k then some (registerByte p.value (k - p.first.val)) else none

/-- The register after a write. -/
def apply (register : UInt64) (p : PartWrite) : UInt64 :=
  writePart register (UInt64.ofNat p.first.val) p.width p.value

end PartWrite

/-- The register after a row of writes. -/
def afterParts (register : UInt64) (parts : List PartWrite) : UInt64 :=
  parts.foldl PartWrite.apply register

/-- What the most recent of a row of writes gave to a byte, and what was there before if none
    did. -/
def lastWritten (register : UInt64) (parts : List PartWrite) (k : Nat) : UInt8 :=
  (parts.reverse.findSome? (PartWrite.gives · k)).getD (registerByte register k)

/-- The parts hold the bytes of a value, and leave none out. -/
structure Splits (value : UInt64) (parts : List PartWrite) : Prop where
  complete : ∀ k : Fin 8, ∃ p ∈ parts, p.Covers k.val
  parts_of : ∀ p ∈ parts, ∀ k : Fin 8, p.Covers k.val →
    registerByte p.value (k.val - p.first.val) = registerByte value k.val

/-! ## Bits of bytes -/

lemma getLsbD_registerByte (register : UInt64) (k : Nat) {i : Nat} (hi : i < 8) :
    (registerByte register k).toBitVec.getLsbD i = register.toBitVec.getLsbD (8 * k + i) := by
  have hpow : 256 ^ k = 2 ^ (8 * k) := by
    rw [pow_mul]
    rfl
  have htoNat : (registerByte register k).toNat = register.toNat / 2 ^ (8 * k) % 2 ^ 8 := by
    rw [registerByte, UInt8.toNat_ofNat', hpow]
  rw [BitVec.getLsbD, UInt8.toNat_toBitVec, htoNat, Nat.testBit_mod_two_pow,
    Nat.testBit_div_two_pow, decide_eq_true hi, Bool.true_and, BitVec.getLsbD,
    UInt64.toNat_toBitVec, Nat.add_comm]

lemma registerByte_eq {b : UInt8} {register : UInt64} {k : Nat}
    (h : ∀ i < 8, register.toBitVec.getLsbD (8 * k + i) = b.toBitVec.getLsbD i) :
    registerByte register k = b := by
  refine UInt8.toBitVec_inj.mp (BitVec.eq_of_getLsbD_eq fun i hi => ?_)
  rw [getLsbD_registerByte register k hi, h i hi]

/-- **A register is what its bytes are.** -/
lemma eq_of_registerByte {a b : UInt64}
    (h : ∀ k : Fin 8, registerByte a k.val = registerByte b k.val) : a = b := by
  refine UInt64.toBitVec_inj.mp (BitVec.eq_of_getLsbD_eq fun i hi => ?_)
  have hin : i % 8 < 8 := Nat.mod_lt i (by decide)
  have hbit := congrArg (fun c : UInt8 => c.toBitVec.getLsbD (i % 8)) (h ⟨i / 8, by omega⟩)
  simp only [getLsbD_registerByte _ _ hin, Nat.div_add_mod] at hbit
  exact hbit

lemma registerByte_and (a b : UInt64) (k : Nat) :
    registerByte (a &&& b) k = registerByte a k &&& registerByte b k := by
  refine registerByte_eq fun i hi => ?_
  rw [UInt64.toBitVec_and, UInt8.toBitVec_and, BitVec.getLsbD_and, BitVec.getLsbD_and,
    getLsbD_registerByte a k hi, getLsbD_registerByte b k hi]

/-! ## One part -/

lemma getLsbD_mask (w : Width) (i : Nat) :
    w.mask.toBitVec.getLsbD i = decide (i < 8 * w.bytes) := by
  have hmask : w.mask.toNat = 2 ^ (8 * w.bytes) - 1 := by cases w <;> rfl
  rw [BitVec.getLsbD, UInt64.toNat_toBitVec, hmask, Nat.testBit_two_pow_sub_one]

lemma toNat_distance (o : Fin 8) : ((UInt64.ofNat o.val * 8).toBitVec % 64).toNat = 8 * o.val := by
  fin_cases o <;> rfl

lemma getLsbD_readPart (register : UInt64) (o : Fin 8) (w : Width) (i : Nat) :
    (readPart register (UInt64.ofNat o.val) w).toBitVec.getLsbD i =
      (decide (i < 8 * w.bytes) && register.toBitVec.getLsbD (8 * o.val + i)) := by
  rw [readPart, UInt64.toBitVec_and, UInt64.toBitVec_shiftRight, BitVec.getLsbD_and, getLsbD_mask,
    BitVec.ushiftRight_eq', toNat_distance, BitVec.getLsbD_ushiftRight, Bool.and_comm]

/-- A write replaces the bits of its part and leaves the others. -/
lemma getLsbD_apply (register : UInt64) (p : PartWrite) {i : Nat} (hi : i < 64) :
    (p.apply register).toBitVec.getLsbD i =
      if 8 * p.first.val ≤ i ∧ i < 8 * p.first.val + 8 * p.width.bytes then
        p.value.toBitVec.getLsbD (i - 8 * p.first.val)
      else register.toBitVec.getLsbD i := by
  simp only [PartWrite.apply, writePart, UInt64.toBitVec_or, UInt64.toBitVec_and,
    UInt64.toBitVec_not, UInt64.toBitVec_shiftLeft, BitVec.shiftLeft_eq', toNat_distance,
    BitVec.getLsbD_or, BitVec.getLsbD_and, BitVec.getLsbD_not, BitVec.getLsbD_shiftLeft,
    getLsbD_mask, decide_eq_true hi, Bool.true_and]
  by_cases hlow : i < 8 * p.first.val
  · rw [if_neg (by omega)]
    simp [hlow]
  · by_cases hhigh : i - 8 * p.first.val < 8 * p.width.bytes
    · rw [if_pos (by omega)]
      simp [hlow, hhigh]
    · rw [if_neg (by omega)]
      simp [hhigh]

/-- **What is read is the bytes of the part,** zero past the end of the part and of the register. -/
lemma registerByte_readPart (register : UInt64) (o : Fin 8) (w : Width) (k : Nat) :
    registerByte (readPart register (UInt64.ofNat o.val) w) k =
      if k < min w.bytes (8 - o.val) then registerByte register (o.val + k) else 0 := by
  refine registerByte_eq fun i hi => ?_
  rw [getLsbD_readPart]
  split
  · next hk =>
    rw [getLsbD_registerByte _ _ hi, decide_eq_true (by omega), Bool.true_and,
      show 8 * o.val + (8 * k + i) = 8 * (o.val + k) + i by omega]
  · next hk =>
    rw [UInt8.toBitVec_zero, BitVec.getLsbD_zero]
    by_cases hpart : 8 * k + i < 8 * w.bytes
    · rw [BitVec.getLsbD_of_ge _ _ (by omega), Bool.and_false]
    · rw [decide_eq_false hpart, Bool.false_and]

/-- **Each byte of a register holds what a write gave it, or what it held before.** -/
lemma registerByte_apply (register : UInt64) (p : PartWrite) (k : Fin 8) :
    registerByte (p.apply register) k.val =
      (p.gives k.val).getD (registerByte register k.val) := by
  refine registerByte_eq fun i hi => ?_
  rw [getLsbD_apply register p (by omega), PartWrite.gives]
  by_cases hc : p.Covers k.val
  · obtain ⟨hlow, hhigh⟩ := hc
    rw [if_pos ⟨by omega, by omega⟩, if_pos ⟨hlow, hhigh⟩, Option.getD_some,
      getLsbD_registerByte _ _ hi,
      show 8 * (k.val - p.first.val) + i = 8 * k.val + i - 8 * p.first.val by omega]
  · have hout : ¬(8 * p.first.val ≤ 8 * k.val + i ∧
        8 * k.val + i < 8 * p.first.val + 8 * p.width.bytes) :=
      fun h => hc ⟨by omega, by omega⟩
    rw [if_neg hout, if_neg hc, Option.getD_none, getLsbD_registerByte _ _ hi]

/-- Bits that cannot be set do not matter to a write. -/
lemma apply_and (register mask : UInt64) (p : PartWrite) :
    p.apply (register &&& mask) &&& mask = p.apply register &&& mask := by
  refine UInt64.toBitVec_inj.mp (BitVec.eq_of_getLsbD_eq fun i hi => ?_)
  simp only [UInt64.toBitVec_and, BitVec.getLsbD_and, getLsbD_apply _ p hi]
  split
  · rfl
  · rw [Bool.and_assoc, Bool.and_self]

/-! ## Rows of parts -/

lemma afterParts_append (register : UInt64) (parts : List PartWrite) (p : PartWrite) :
    afterParts register (parts ++ [p]) = p.apply (afterParts register parts) := List.foldl_append

lemma lastWritten_append (register : UInt64) (parts : List PartWrite) (p : PartWrite) (k : Nat) :
    lastWritten register (parts ++ [p]) k =
      (p.gives k).getD (lastWritten register parts k) := by
  rw [lastWritten, List.reverse_append, List.reverse_singleton, List.singleton_append,
    List.findSome?_cons]
  cases p.gives k <;> rfl

/-- **Each byte of a register holds what was last written to it.** -/
lemma registerByte_afterParts (register : UInt64) (parts : List PartWrite) (k : Fin 8) :
    registerByte (afterParts register parts) k.val = lastWritten register parts k.val := by
  induction parts using List.reverseRecOn with
  | nil => rfl
  | append_singleton parts p ih =>
      rw [afterParts_append, lastWritten_append, registerByte_apply, ih]

/-- Where all writes that come to a byte give it the same, and one comes to it, the order of the
    writes does not matter. -/
lemma lastWritten_of_splits {value : UInt64} {parts : List PartWrite} (h : Splits value parts)
    (register : UInt64) (k : Fin 8) :
    lastWritten register parts k.val = registerByte value k.val := by
  rw [lastWritten]
  cases hfound : parts.reverse.findSome? (PartWrite.gives · k.val) with
  | none =>
      obtain ⟨p, hp, hc⟩ := h.complete k
      have hnone := List.findSome?_eq_none_iff.mp hfound p (List.mem_reverse.mpr hp)
      rw [PartWrite.gives, if_pos hc] at hnone
      cases hnone
  | some b =>
      obtain ⟨p, hp, hgives⟩ := List.exists_of_findSome?_eq_some hfound
      rw [PartWrite.gives] at hgives
      split at hgives
      · next hc =>
        rw [← h.parts_of p (List.mem_reverse.mp hp) k hc]
        exact (Option.some.inj hgives).symm
      · cases hgives

/-- **A value written in parts is the value,** whatever the parts and their order. -/
lemma afterParts_of_splits {value : UInt64} {parts : List PartWrite} (h : Splits value parts)
    (register : UInt64) : afterParts register parts = value :=
  eq_of_registerByte fun k => by
    rw [registerByte_afterParts, lastWritten_of_splits h register k]

lemma splits_whole (value : UInt64) : Splits value [⟨0, .double, value⟩] where
  complete k := ⟨_, List.mem_singleton.mpr rfl, Nat.zero_le _, by simp [Width.bytes]⟩
  parts_of p hp k _ := by
    rw [List.mem_singleton.mp hp]
    rfl

lemma Splits.ne_nil {value : UInt64} {parts : List PartWrite} (h : Splits value parts) :
    parts ≠ [] := by
  rintro rfl
  obtain ⟨p, hp, _⟩ := h.complete 0
  cases hp

/-! ## Registers of devices -/

/-- A register of a device. -/
structure WideRegister (δ : Type) where
  read : δ → UInt64 → Width → Reply δ
  write : δ → UInt64 → Width → UInt64 → Effect δ
  /-- The offset of its first byte. -/
  base : UInt64
  /-- What it holds. -/
  held : δ → UInt64
  /-- The device with another value in it. -/
  put : δ → UInt64 → δ
  /-- The bits that can be set. -/
  settable : UInt64

namespace WideRegister

variable {δ : Type} (r : WideRegister δ)

/-- What a device does on a write to a part of the register. -/
def writeTo (d : δ) (p : PartWrite) : Effect δ :=
  r.write d (r.base + UInt64.ofNat p.first.val) p.width p.value

/-- The device after a row of writes to parts of the register. -/
def after (d : δ) (parts : List PartWrite) : δ :=
  parts.foldl (fun d p => (r.writeTo d p).device) d

/-- Accesses from any byte of the register on come to the register. -/
structure Wired : Prop where
  read_at : ∀ d (o : Fin 8) w,
    r.read d (r.base + UInt64.ofNat o.val) w = ⟨readPart (r.held d) (UInt64.ofNat o.val) w, d, none⟩
  write_at : ∀ d p, r.writeTo d p = ⟨r.put d (p.apply (r.held d) &&& r.settable), none⟩
  held_put : ∀ d value, r.held (r.put d value) = value
  put_put : ∀ d value value', r.put (r.put d value) value' = r.put d value'

/-- The register is a row of bytes. -/
structure IsByteRow : Prop where
  /-- The bits that can be set are, in each byte, as they were last written. -/
  bytes_after : ∀ d parts (k : Fin 8),
    registerByte (r.held (r.after d parts)) k.val &&& registerByte r.settable k.val =
      lastWritten (r.held d) parts k.val &&& registerByte r.settable k.val
  /-- The other bits are clear after every write. -/
  clear_after : ∀ d p, r.held (r.writeTo d p).device &&& ~~~r.settable = 0
  /-- A read gives the bytes of its part and leaves the device as it is. -/
  bytes_read : ∀ d (o : Fin 8) w, ∃ value,
    r.read d (r.base + UInt64.ofNat o.val) w = ⟨value, d, none⟩ ∧
      ∀ k : Fin 8, registerByte value k.val =
        if k.val < min w.bytes (8 - o.val) then registerByte (r.held d) (o.val + k.val) else 0
  /-- A value written in parts is the value written at once. -/
  split_write : ∀ d value parts, Splits value parts →
    r.after d parts = (r.write d r.base .double value).device
  /-- No write to a part is refused. -/
  accepted : ∀ d p, (r.writeTo d p).notice = none

variable {r}

/-- A row of writes changes the register, and nothing but it. -/
lemma Wired.after_eq (h : r.Wired) (d : δ) {parts : List PartWrite} (hne : parts ≠ []) :
    r.after d parts = r.put d (afterParts (r.held d) parts &&& r.settable) := by
  induction parts using List.reverseRecOn with
  | nil => exact absurd rfl hne
  | append_singleton parts p ih =>
      have hstep : r.after d (parts ++ [p]) = (r.writeTo (r.after d parts) p).device :=
        List.foldl_append
      rw [hstep, h.write_at, afterParts_append]
      by_cases hparts : parts = []
      · subst hparts
        rfl
      · rw [ih hparts, h.held_put, h.put_put, apply_and]

/-- **A register that all its parts are reached in is a row of bytes.** -/
lemma Wired.isByteRow (h : r.Wired) : r.IsByteRow where
  bytes_after d parts k := by
    by_cases hne : parts = []
    · subst hne
      rfl
    · rw [h.after_eq d hne, h.held_put, registerByte_and, registerByte_afterParts,
        UInt8.and_assoc, UInt8.and_self]
  clear_after d p := by
    rw [h.write_at, h.held_put, UInt64.and_assoc, UInt64.and_not_self, UInt64.and_zero]
  bytes_read d o w := ⟨_, h.read_at d o w, fun k => registerByte_readPart _ o w k.val⟩
  split_write d value parts hs := by
    have hwhole : r.write d r.base .double value = r.writeTo d ⟨0, .double, value⟩ := by
      rw [writeTo]
      exact congrArg (r.write d · .double value) (UInt64.add_zero r.base).symm
    have honce := afterParts_of_splits (splits_whole value) (r.held d)
    rw [hwhole, h.after_eq d hs.ne_nil, afterParts_of_splits hs, h.write_at]
    exact congrArg (fun v => r.put d (v &&& r.settable)) honce.symm
  accepted d p := by rw [h.write_at]

end WideRegister

/-! ## The registers of the board -/

/-- The comparator of the machine timer. -/
def Clint.comparator : WideRegister Clint :=
  ⟨Clint.read, Clint.write, 0x4000, Clint.mtimecmp, fun d value => { d with mtimecmp := value },
    0xFFFFFFFFFFFFFFFF⟩

/-- The machine timer. -/
def Clint.timer : WideRegister Clint :=
  ⟨Clint.read, Clint.write, 0xBFF8, Clint.mtime, fun d value => { d with mtime := value },
    0xFFFFFFFFFFFFFFFF⟩

/-- The sources that are enabled for a context.  Source 0 does not exist. -/
def Plic.enabled (c : Fin 2) : WideRegister Plic :=
  ⟨Plic.read, Plic.write, 0x2000 + UInt64.ofNat c.val * 0x80, fun p => (p.contexts.get c).enable,
    fun p value => p.setContext c { p.contexts.get c with enable := value }, ~~~1⟩

lemma and_all (x : UInt64) : x &&& 0xFFFFFFFFFFFFFFFF = x := UInt64.and_neg_one

section Offsets

variable (o : Fin 8)

lemma Clint.locate_comparator :
    locate (0x4000 + UInt64.ofNat o.val) = .mtimecmp (UInt64.ofNat o.val) := by
  fin_cases o <;> rfl

lemma Clint.locate_timer :
    locate (0xBFF8 + UInt64.ofNat o.val) = .mtime (UInt64.ofNat o.val) := by
  fin_cases o <;> rfl

lemma Plic.locate_enabled (c : Fin 2) :
    locate (0x2000 + UInt64.ofNat c.val * 0x80 + UInt64.ofNat o.val) =
      .enable c (UInt64.ofNat o.val) := by
  fin_cases c <;> fin_cases o <;> rfl

end Offsets

lemma Clint.wired_comparator : Clint.comparator.Wired where
  read_at d o w := by simp only [comparator, Clint.read, locate_comparator]
  write_at d p := by
    simp only [WideRegister.writeTo, comparator, Clint.write, locate_comparator, and_all]
    rfl
  held_put _ _ := rfl
  put_put _ _ _ := rfl

lemma Clint.wired_timer : Clint.timer.Wired where
  read_at d o w := by simp only [timer, Clint.read, locate_timer]
  write_at d p := by
    simp only [WideRegister.writeTo, timer, Clint.write, locate_timer, and_all]
    rfl
  held_put _ _ := rfl
  put_put _ _ _ := rfl

section Contexts

variable (p : Plic) (c : Fin 2) (context context' : PlicContext)

lemma Plic.get_setContext : (p.setContext c context).contexts.get c = context :=
  Vector.getElem_set_self c.isLt

lemma Plic.setContext_setContext :
    (p.setContext c context).setContext c context' = p.setContext c context' := by
  simp only [setContext, Vector.set_set]

end Contexts

lemma Plic.wired_enabled (c : Fin 2) : (Plic.enabled c).Wired where
  read_at d o w := by
    simp only [enabled, Plic.read, locate_enabled]
    rfl
  write_at d p := by
    simp only [WideRegister.writeTo, enabled, Plic.write, locate_enabled]
    rfl
  held_put d value := by simp only [enabled, get_setContext]
  put_put d value value' := by simp only [enabled, get_setContext, setContext_setContext]

/-- **Wide registers are rows of bytes.**  After any row of writes to parts of a register, each byte
    of it is the one that was last written there, and what is read of a part is its bytes.  So it is
    with the timer, its comparator and the enabled sources: there a value that is written in parts,
    in any order, is the value written at once. -/
theorem wide_registers_are_byte_rows :
    (∀ register parts (k : Fin 8),
      registerByte (afterParts register parts) k.val = lastWritten register parts k.val) ∧
    (∀ register (o : Fin 8) w (k : Fin 8),
      registerByte (readPart register (UInt64.ofNat o.val) w) k.val =
        if k.val < min w.bytes (8 - o.val) then registerByte register (o.val + k.val) else 0) ∧
    Clint.comparator.IsByteRow ∧ Clint.timer.IsByteRow ∧ ∀ c, (Plic.enabled c).IsByteRow :=
  ⟨registerByte_afterParts, fun register o w k => registerByte_readPart register o w k.val,
    Clint.wired_comparator.isByteRow, Clint.wired_timer.isByteRow,
    fun c => (Plic.wired_enabled c).isByteRow⟩

/-- A timer that is written in parts, of which two overlap and one hangs over the end, is the timer
    that is written at once. -/
theorem timer_written_in_parts :
    Splits 0x1122334455667788 [⟨4, .double, 0x99AABBCC11223344⟩, ⟨1, .word, 0x44556677⟩,
        ⟨2, .half, 0x5566⟩, ⟨0, .byte, 0x88⟩] ∧
      Clint.timer.after (Clint.new 1) [⟨4, .double, 0x99AABBCC11223344⟩, ⟨1, .word, 0x44556677⟩,
        ⟨2, .half, 0x5566⟩, ⟨0, .byte, 0x88⟩] =
        (Clint.write (Clint.new 1) 0xBFF8 .double 0x1122334455667788).device := by
  have hsplits : Splits 0x1122334455667788 [⟨4, .double, 0x99AABBCC11223344⟩,
      ⟨1, .word, 0x44556677⟩, ⟨2, .half, 0x5566⟩, ⟨0, .byte, 0x88⟩] := ⟨by decide, by decide⟩
  obtain ⟨_, _, _, htimer, _⟩ := wide_registers_are_byte_rows
  exact ⟨hsplits, htimer.split_write (Clint.new 1) _ _ hsplits⟩

end Rv64Board
