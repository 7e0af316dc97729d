import Rv64Board.Proofs.BusMap
import Rv64Board.Proofs.ReservedData

/-!
# A queue in memory

The driver and the disk share three tables in memory: the descriptors, the available ring and the
used ring.

* `Span.stretch`, `Memory.Holds` — stretches of memory, and those that lie in memory.
* `Memory.SameIn` — two memories that agree on a stretch; `sameIn_store` and `sameIn_replay` say
  which writes leave one alone.
* `VirtioQueue.availableIndex`, `availableHead`, `usedIndex`, `usedHead` — what the rings say.
* `VirtioQueue.Placed` — the three tables are in memory and do not meet.  Then every place in them
  is (`within_descriptor`, `within_availableHead`, `within_usedHead`), and it can be read.
* `VirtioQueue.Spares` — what a request may have the device write to, its data and its status, meets
  none of the three.
-/

namespace Rv64Board

/-! ## Stretches of memory -/

namespace Span

/-- Some bytes from an address on. -/
def stretch (address : UInt64) (len : Nat) : Span := ⟨address.toNat, address.toNat + len⟩

def Within (s t : Span) : Prop := t.low ≤ s.low ∧ s.high ≤ t.high

/-- The two share no address. -/
def Disjoint (s t : Span) : Prop := ∀ a, s.Covers a → ¬t.Covers a

variable {s s' t u : Span}

/-- Two stretches are disjoint if one of them is empty, or if they are apart. -/
lemma disjoint_iff :
    s.Disjoint t ↔ s.high ≤ s.low ∨ t.high ≤ t.low ∨ s.high ≤ t.low ∨ t.high ≤ s.low := by
  constructor
  · intro h
    by_contra hmeet
    exact h (max s.low t.low) ⟨by omega, by omega⟩ ⟨by omega, by omega⟩
  · rintro h a ⟨hsl, hsh⟩ ⟨htl, hth⟩
    omega

instance (s t : Span) : Decidable (s.Disjoint t) := decidable_of_iff _ disjoint_iff.symm

instance (s t : Span) : Decidable (s.Within t) :=
  inferInstanceAs (Decidable (t.low ≤ s.low ∧ s.high ≤ t.high))

lemma Disjoint.symm (h : s.Disjoint t) : t.Disjoint s := fun a ht hs => h a hs ht

lemma stretch_disjoint {a b : UInt64} {len n : Nat}
    (h : a.toNat + len ≤ b.toNat ∨ b.toNat + n ≤ a.toNat) :
    (stretch a len).Disjoint (stretch b n) := disjoint_iff.mpr (Or.inr (Or.inr h))

lemma Disjoint.mono (h : s.Disjoint t) (hs : s'.Within s) : s'.Disjoint t := fun a ha =>
  h a ⟨le_trans hs.1 ha.1, lt_of_lt_of_le ha.2 hs.2⟩

/-- A part of a stretch. -/
lemma stretch_within {base address : UInt64} {start len n : Nat}
    (haddress : address.toNat = base.toNat + start) (hin : start + len ≤ n) :
    (stretch address len).Within (stretch base n) := by
  constructor
  · show base.toNat ≤ address.toNat
    omega
  · show address.toNat + len ≤ base.toNat + n
    omega

lemma Within.trans (hst : s.Within t) (htu : t.Within u) : s.Within u :=
  ⟨le_trans htu.1 hst.1, le_trans hst.2 htu.2⟩

end Span

open Rv64Board.Span

namespace Memory

/-- A stretch of 64-bit addresses lies in memory. -/
structure Holds (m : Memory) (s : Span) : Prop where
  within : s.Within m.span
  fits : s.high ≤ 2 ^ 64

instance (m : Memory) (s : Span) : Decidable (m.Holds s) :=
  decidable_of_iff (s.Within m.span ∧ s.high ≤ 2 ^ 64)
    ⟨fun h => ⟨h.1, h.2⟩, fun h => ⟨h.within, h.fits⟩⟩

/-- Two memories of one extent have the same bytes in a stretch. -/
structure SameIn (s : Span) (m m' : Memory) : Prop where
  base : m'.base = m.base
  size : m'.size = m.size
  byte : ∀ j, s.Covers (m.base.toNat + j) → m'.byte j = m.byte j

variable {m m' m'' : Memory} {s : Span} {address : UInt64} {w : Width}

lemma contains_of_within {len : Nat} (h : (stretch address len).Within m.span) :
    m.contains address len = true := by
  obtain ⟨hlow, hhigh⟩ := h
  simp only [stretch, span] at hlow hhigh
  have hle : m.base ≤ address := UInt64.le_iff_toNat_le.mpr hlow
  simp only [contains, Bool.and_eq_true, decide_eq_true_eq]
  refine ⟨hle, ?_⟩
  rw [UInt64.toNat_sub_of_le _ _ hle]
  omega

namespace SameIn

lemma refl (s : Span) (m : Memory) : SameIn s m m := ⟨rfl, rfl, fun _ _ => rfl⟩

lemma trans (h : SameIn s m m') (h' : SameIn s m' m'') : SameIn s m m'' where
  base := h'.base.trans h.base
  size := h'.size.trans h.size
  byte j hj := by
    have hj' : s.Covers (m'.base.toNat + j) := by rwa [h.base]
    rw [h'.byte j hj', h.byte j hj]

lemma holds {t : Span} (h : SameIn s m m') (hm : m.Holds t) : m'.Holds t := by
  have hspan : m'.span = m.span := by rw [span, span, h.base, h.size]
  refine ⟨?_, hm.fits⟩
  rw [hspan]
  exact hm.within

/-- What is loaded from the stretch is the same. -/
lemma load_eq (h : SameIn s m m') (hm : s.Within m.span)
    (hin : (stretch address w.bytes).Within s) : m'.load address w = m.load address w := by
  have haddress := base_add_offset (contains_of_within (hin.trans hm))
  refine load_congr h.base fun i hi => h.byte _ ?_
  obtain ⟨hlow, hhigh⟩ := hin
  simp only [stretch] at hlow hhigh
  exact ⟨by omega, by omega⟩

end SameIn

@[simp] lemma span_store (m : Memory) (address : UInt64) (w : Width) (value : UInt64) :
    (m.store address w value).span = m.span := by
  rw [span, span, store, base_patch, size_patch]

lemma sameIn_store (hin : (stretch address w.bytes).Within m.span) (value : UInt64)
    (hapart : s.Disjoint (stretch address w.bytes)) : SameIn s m (m.store address w value) where
  base := base_patch _ _ _
  size := size_patch _ _ _
  byte j hj := by
    have hcontains := contains_of_within hin
    have haddress := base_add_offset hcontains
    rw [byte_store hcontains, if_neg]
    intro htaken
    refine hapart _ hj ⟨?_, ?_⟩
    · show address.toNat ≤ _
      omega
    · show _ < address.toNat + w.bytes
      omega

/-- What is loaded from elsewhere does not change by a store. -/
lemma load_store_of_disjoint {other : UInt64} {w' : Width}
    (hin : (stretch address w.bytes).Within m.span) (value : UInt64)
    (hother : (stretch other w'.bytes).Within m.span)
    (hapart : (stretch other w'.bytes).Disjoint (stretch address w.bytes)) :
    (m.store address w value).load other w' = m.load other w' :=
  (sameIn_store hin value hapart).load_eq hother ⟨le_rfl, le_rfl⟩

/-- A value that fits is loaded as it was stored. -/
lemma load_store_of_lt {value : UInt64} (hin : (stretch address w.bytes).Within m.span)
    (hvalue : value.toNat < 2 ^ (8 * w.bytes)) :
    (m.store address w value).load address w = value := by
  have hmask : w.mask.toNat = 2 ^ (8 * w.bytes) - 1 := by cases w <;> rfl
  rw [load_store value (contains_of_within hin), ← UInt64.toNat_inj, UInt64.toNat_and, hmask,
    Nat.and_two_pow_sub_one_eq_mod, Nat.mod_eq_of_lt hvalue]

lemma sameIn_replay {log : List MemoryWrite}
    (h : ∀ x ∈ log, s.Disjoint (stretch x.address x.bytes.length)) :
    SameIn s m (m.replay log) where
  base := (m.extent_replay log).1
  size := (m.extent_replay log).2
  byte j hj := by
    refine byte_replay ?_
    rintro ⟨x, hx, -, hlow, hhigh⟩
    exact h x hx _ hj ⟨hlow, hhigh⟩

end Memory

/-! ## A queue in memory -/

namespace VirtioQueue

open VirtioBlock (Descriptor)

/-- The descriptors, 16 bytes each. -/
def descriptorTable (q : VirtioQueue) : Span := stretch q.descriptors (16 * q.size.toNat)

/-- Flags, an index, and a head for each slot. -/
def availableRing (q : VirtioQueue) : Span := stretch q.driver (4 + 2 * q.size.toNat)

/-- Flags, an index, and a head and a length for each slot. -/
def usedRing (q : VirtioQueue) : Span := stretch q.device (4 + 8 * q.size.toNat)

/-- The number of requests that the driver has posted so far. -/
def availableIndex (q : VirtioQueue) (m : Memory) : UInt16 :=
  (m.load (q.driver + 2) .half).toUInt16

/-- The request in a slot of the available ring. -/
def availableHead (q : VirtioQueue) (m : Memory) (slot : Nat) : UInt16 :=
  (m.load (q.driver + 4 + 2 * UInt64.ofNat slot) .half).toUInt16

/-- The number of requests that the device has reported so far. -/
def usedIndex (q : VirtioQueue) (m : Memory) : UInt16 :=
  (m.load (q.device + 2) .half).toUInt16

/-- The request that a slot of the used ring reports. -/
def usedHead (q : VirtioQueue) (m : Memory) (slot : Nat) : UInt32 :=
  (m.load (q.device + 4 + 8 * UInt64.ofNat slot) .word).toUInt32

/-- The queue has from 1 to 64 entries, and its three tables are in memory and do not meet. -/
structure Placed (q : VirtioQueue) (m : Memory) : Prop where
  nonempty : 0 < q.size.toNat
  bounded : q.size.toNat ≤ 64
  descriptors : m.Holds q.descriptorTable
  available : m.Holds q.availableRing
  used : m.Holds q.usedRing
  descriptorsAvailable : q.descriptorTable.Disjoint q.availableRing
  descriptorsUsed : q.descriptorTable.Disjoint q.usedRing
  availableUsed : q.availableRing.Disjoint q.usedRing

/-- The stretches that a request may have the device write to: those of its data, and the byte for
    its status.  A single link has neither. -/
def targets (links : List Descriptor) : List Span :=
  links.tail.dropLast.map (fun d => stretch d.address d.len.toNat) ++
    links.tail.getLast?.toList.map fun d => stretch d.address 1

/-- What a request writes to meets none of the three tables. -/
def Spares (q : VirtioQueue) (m disk : Memory) (head : UInt16) : Prop :=
  ∀ links t, VirtioBlock.chain q q.size.toNat head ⟨m, disk⟩ = .ok links t → ∀ s ∈ targets links,
    q.descriptorTable.Disjoint s ∧ q.availableRing.Disjoint s ∧ q.usedRing.Disjoint s

instance (q : VirtioQueue) (m : Memory) : Decidable (q.Placed m) :=
  decidable_of_iff
    ((0 < q.size.toNat ∧ q.size.toNat ≤ 64) ∧
      (m.Holds q.descriptorTable ∧ m.Holds q.availableRing ∧ m.Holds q.usedRing) ∧
      q.descriptorTable.Disjoint q.availableRing ∧ q.descriptorTable.Disjoint q.usedRing ∧
        q.availableRing.Disjoint q.usedRing)
    ⟨fun ⟨⟨h₁, h₂⟩, ⟨h₃, h₄, h₅⟩, h₆, h₇, h₈⟩ => ⟨h₁, h₂, h₃, h₄, h₅, h₆, h₇, h₈⟩,
      fun ⟨h₁, h₂, h₃, h₄, h₅, h₆, h₇, h₈⟩ => ⟨⟨h₁, h₂⟩, ⟨h₃, h₄, h₅⟩, h₆, h₇, h₈⟩⟩

instance (q : VirtioQueue) (m disk : Memory) (head : UInt16) : Decidable (q.Spares m disk head) :=
  match hrun : VirtioBlock.chain q q.size.toNat head ⟨m, disk⟩ with
  | .ok links t => decidable_of_iff
      (∀ s ∈ targets links, q.descriptorTable.Disjoint s ∧ q.availableRing.Disjoint s ∧
        q.usedRing.Disjoint s) <| by
      constructor
      · intro h links' t' hrun'
        cases hrun.symm.trans hrun'
        exact h
      · exact fun h => h links t hrun
  | .error _ _ => isTrue fun _ _ hrun' => by cases hrun.symm.trans hrun'

/-! ### Places in the tables -/

/-- A sum of addresses that does not run over. -/
lemma toNat_add_of_lt {a b : UInt64} (h : a.toNat + b.toNat < 2 ^ 64) :
    (a + b).toNat = a.toNat + b.toNat := by
  rw [UInt64.toNat_add, Nat.mod_eq_of_lt h]

/-- The distance of an entry from the start of its table. -/
lemma toNat_scaled {step : UInt64} (hstep : step.toNat ≤ 16) (i : UInt16) :
    (step * i.toUInt64).toNat = step.toNat * i.toNat := by
  have hi := i.toNat_lt
  have hmul : step.toNat * i.toNat ≤ 16 * i.toNat := Nat.mul_le_mul_right _ hstep
  rw [UInt64.toNat_mul, UInt16.toNat_toUInt64]
  exact Nat.mod_eq_of_lt (by omega)

/-- An address that is some entries behind another one, as long as addresses do not run out. -/
lemma toNat_entry {base start step : UInt64} {slot : Nat}
    (h : base.toNat + (start.toNat + step.toNat * slot) < 2 ^ 64) :
    (base + start + step * UInt64.ofNat slot).toNat =
      base.toNat + (start.toNat + step.toNat * slot) := by
  have hmul : (step * UInt64.ofNat slot).toNat = step.toNat * slot := by
    rw [UInt64.toNat_mul, UInt64.toNat_ofNat', Nat.mul_mod_mod]
    exact Nat.mod_eq_of_lt (by omega)
  have hstart : (base + start).toNat = base.toNat + start.toNat := toNat_add_of_lt (by omega)
  rw [toNat_add_of_lt, hstart, hmul, Nat.add_assoc]
  rwa [hstart, hmul, Nat.add_assoc]

section Slots

variable {q : VirtioQueue} (hmax : q.size.toNat ≤ 64)
include hmax

lemma toNat_size : q.size.toUInt16.toNat = q.size.toNat := by
  rw [UInt32.toNat_toUInt16]
  omega

/-- The slot of an index. -/
lemma toNat_mod_size (i : UInt16) : (i % q.size.toUInt16).toNat = i.toNat % q.size.toNat := by
  rw [UInt16.toNat_mod, toNat_size hmax]

lemma mod_size_lt (hpos : 0 < q.size.toNat) (i : UInt16) :
    (i % q.size.toUInt16).toNat < q.size.toNat := by
  rw [toNat_mod_size hmax]
  exact Nat.mod_lt _ hpos

end Slots

namespace Placed

variable {q : VirtioQueue} {m m' : Memory} (hq : q.Placed m)
include hq

lemma of_extent (hbase : m'.base = m.base) (hsize : m'.size = m.size) : q.Placed m' := by
  have hholds {s : Span} (h : m.Holds s) : m'.Holds s := by
    refine ⟨?_, h.fits⟩
    rw [Memory.span, hbase, hsize]
    exact h.within
  exact ⟨hq.nonempty, hq.bounded, hholds hq.descriptors, hholds hq.available, hholds hq.used,
    hq.descriptorsAvailable, hq.descriptorsUsed, hq.availableUsed⟩

lemma toUInt64_mod (i : UInt16) :
    (i % q.size.toUInt16).toUInt64 = UInt64.ofNat (i.toNat % q.size.toNat) := by
  have hlt : (i % q.size.toUInt16).toNat < 2 ^ 64 := by
    have := (i % q.size.toUInt16).toNat_lt
    omega
  rw [← toNat_mod_size hq.bounded, ← UInt64.toNat_inj, UInt16.toNat_toUInt64,
    UInt64.toNat_ofNat_of_lt' hlt]

lemma within_descriptor {index : UInt16} (hi : index.toNat < q.size.toNat) {field : UInt64}
    {len : Nat} (hfield : field.toNat + len ≤ 16) (hlen : 0 < len) :
    (stretch (q.descriptors + 16 * index.toUInt64 + field) len).Within q.descriptorTable := by
  have hfits : q.descriptors.toNat + 16 * q.size.toNat ≤ 2 ^ 64 := hq.descriptors.fits
  have hmul : (16 * index.toUInt64).toNat = 16 * index.toNat := toNat_scaled (by decide) index
  have haddress : (q.descriptors + 16 * index.toUInt64 + field).toNat =
      q.descriptors.toNat + (16 * index.toNat + field.toNat) := by
    rw [UInt64.toNat_add, UInt64.toNat_add, hmul]
    omega
  exact stretch_within haddress (by omega)

lemma within_availableIndex :
    (stretch (q.driver + 2) Width.half.bytes).Within q.availableRing := by
  have hfits : q.driver.toNat + (4 + 2 * q.size.toNat) ≤ 2 ^ 64 := hq.available.fits
  have haddress : (q.driver + 2).toNat = q.driver.toNat + 2 := by
    rw [UInt64.toNat_add]
    exact Nat.mod_eq_of_lt (show q.driver.toNat + 2 < 2 ^ 64 by omega)
  exact stretch_within haddress (show 2 + 2 ≤ 4 + 2 * q.size.toNat by omega)

lemma within_availableHead {slot : Nat} (hslot : slot < q.size.toNat) :
    (stretch (q.driver + 4 + 2 * UInt64.ofNat slot) Width.half.bytes).Within q.availableRing := by
  have hfits : q.driver.toNat + (4 + 2 * q.size.toNat) ≤ 2 ^ 64 := hq.available.fits
  have haddress : (q.driver + 4 + 2 * UInt64.ofNat slot).toNat = q.driver.toNat + (4 + 2 * slot) :=
    toNat_entry (show q.driver.toNat + (4 + 2 * slot) < 2 ^ 64 by omega)
  exact stretch_within haddress (show 4 + 2 * slot + 2 ≤ 4 + 2 * q.size.toNat by omega)

lemma toNat_usedIndex : (q.device + 2).toNat = q.device.toNat + 2 := by
  have hfits : q.device.toNat + (4 + 8 * q.size.toNat) ≤ 2 ^ 64 := hq.used.fits
  rw [UInt64.toNat_add]
  exact Nat.mod_eq_of_lt (show q.device.toNat + 2 < 2 ^ 64 by omega)

lemma within_usedIndex : (stretch (q.device + 2) Width.half.bytes).Within q.usedRing :=
  stretch_within hq.toNat_usedIndex (show 2 + 2 ≤ 4 + 8 * q.size.toNat by omega)

variable {slot : Nat} (hslot : slot < q.size.toNat)
include hslot

lemma toNat_usedHead :
    (q.device + 4 + 8 * UInt64.ofNat slot).toNat = q.device.toNat + (4 + 8 * slot) := by
  have hfits : q.device.toNat + (4 + 8 * q.size.toNat) ≤ 2 ^ 64 := hq.used.fits
  exact toNat_entry (show q.device.toNat + (4 + 8 * slot) < 2 ^ 64 by omega)

lemma toNat_usedLength :
    (q.device + 4 + 8 * UInt64.ofNat slot + 4).toNat = q.device.toNat + (8 + 8 * slot) := by
  have hfits : q.device.toNat + (4 + 8 * q.size.toNat) ≤ 2 ^ 64 := hq.used.fits
  have hlt : q.device.toNat + (4 + 8 * slot) + 4 < 2 ^ 64 := by omega
  rw [UInt64.toNat_add, hq.toNat_usedHead hslot]
  exact (Nat.mod_eq_of_lt hlt).trans (by omega)

lemma within_usedHead :
    (stretch (q.device + 4 + 8 * UInt64.ofNat slot) Width.word.bytes).Within q.usedRing :=
  stretch_within (hq.toNat_usedHead hslot)
    (show 4 + 8 * slot + 4 ≤ 4 + 8 * q.size.toNat by omega)

lemma within_usedLength :
    (stretch (q.device + 4 + 8 * UInt64.ofNat slot + 4) Width.word.bytes).Within q.usedRing :=
  stretch_within (hq.toNat_usedLength hslot)
    (show 8 + 8 * slot + 4 ≤ 4 + 8 * q.size.toNat by omega)

omit hslot in
lemma usedIndex_eq (h : Memory.SameIn q.usedRing m m') : q.usedIndex m' = q.usedIndex m := by
  rw [usedIndex, usedIndex, h.load_eq hq.used.within hq.within_usedIndex]

lemma availableHead_eq (h : Memory.SameIn q.availableRing m m') :
    q.availableHead m' slot = q.availableHead m slot := by
  rw [availableHead, availableHead,
    h.load_eq hq.available.within (hq.within_availableHead hslot)]

lemma usedHead_eq (h : Memory.SameIn q.usedRing m m') : q.usedHead m' slot = q.usedHead m slot := by
  rw [usedHead, usedHead, h.load_eq hq.used.within (hq.within_usedHead hslot)]

end Placed

end VirtioQueue

end Rv64Board
