import Rv64Board.Proofs.Effects

/-!
# What an access to the bus can do

An access to the bus goes to memory, to one device, or nowhere.  `read_cases` and `write_cases` say
what each of the three leaves, once; everything later about the bus comes from them.

* `Bus.SameMap` — two buses that answer at the same addresses.  No access changes the map
  (`leaves_sameMap_read`, `leaves_sameMap_write`), so whether an address is backed can be asked
  before an access and relied upon after it (`SameMap.contains_eq`).
* `leaves_sameRam_read` — reading never changes memory, also where a device changes because it is
  read.
* `write_after_read` — **what could be read can be written:** an update of what has just been
  read does not fault half-way.
-/

namespace Rv64Board

namespace Bus

/-! ## The map of addresses -/

/-- The addresses of a region. -/
def extent (r : Region) : UInt64 × UInt64 := (r.base, r.limit)

/-- Two buses with memory and regions at the same addresses. -/
structure SameMap (b b' : Bus) : Prop where
  base : b'.ram.base = b.ram.base
  size : b'.ram.size = b.ram.size
  extents : b'.regions.map extent = b.regions.map extent

namespace SameMap

lemma refl (b : Bus) : SameMap b b := ⟨rfl, rfl, rfl⟩

lemma trans {a b c : Bus} (hab : SameMap a b) (hbc : SameMap b c) : SameMap a c where
  base := hbc.base.trans hab.base
  size := hbc.size.trans hab.size
  extents := hbc.extents.trans hab.extents

instance : IsPreorder Bus SameMap where
  refl := refl
  trans _ _ _ := trans

end SameMap

lemma map_extent_lastUpTo? (regions : List Region) (address : UInt64) :
    (lastUpTo? regions address).map extent =
      ((regions.map extent).filter fun e => e.1 ≤ address).getLast? := by
  rw [lastUpTo?, ← List.getLast?_map, List.filter_map]
  rfl

lemma isSome_region? (b : Bus) (address : UInt64) (len : Nat) :
    (b.region? address len).isSome =
      ((lastUpTo? b.regions address).map extent).any fun e => address.toNat + len ≤ e.2.toNat := by
  rw [region?]
  cases lastUpTo? b.regions address with
  | none => rfl
  | some r =>
      simp only [Option.filter_some, Option.map_some, Option.any_some, extent]
      split <;> simp_all

/-- **Buses with one map are backed at the same addresses.** -/
lemma SameMap.contains_eq {b b' : Bus} (h : SameMap b b') (address : UInt64) (len : Nat) :
    b'.contains address len = b.contains address len := by
  simp only [contains, Memory.contains, isSome_region?, map_extent_lastUpTo?, h.base, h.size,
    h.extents]

lemma SameMap.ram_contains_eq {b b' : Bus} (h : SameMap b b') (address : UInt64) (len : Nat) :
    b'.ram.contains address len = b.ram.contains address len := by
  simp only [Memory.contains, h.base, h.size]

lemma sameMap_setDevice (b : Bus) (base : UInt64) (d : Device) :
    SameMap b (b.setDevice base d) where
  base := rfl
  size := rfl
  extents := by
    simp only [setDevice, List.map_map]
    refine List.map_congr_left fun r _ => ?_
    simp only [Function.comp]
    split <;> rfl

lemma sameMap_note (b : Bus) (notices : List Notice) : SameMap b (b.note notices) := ⟨rfl, rfl, rfl⟩

/-- Two buses with the same memory. -/
abbrev SameRam (b b' : Bus) : Prop := b'.ram = b.ram

instance : IsPreorder Bus SameRam where
  refl _ := rfl
  trans _ _ _ hab hbc := Eq.trans hbc hab

/-! ## The three outcomes of an access -/

lemma read_of_ram {b : Bus} {address : UInt64} {w : Width}
    (h : b.ram.contains address w.bytes = true) :
    read address w b = .ok (b.ram.load address w) b := by
  simp only [read, h, if_true]

/-- A read goes to memory, to a device, or nowhere. -/
lemma read_cases (address : UInt64) (w : Width) (b : Bus) :
    (b.ram.contains address w.bytes = true ∧
      read address w b = .ok (b.ram.load address w) b) ∨
    (b.ram.contains address w.bytes = false ∧ b.contains address w.bytes = true ∧
      ∃ v b', read address w b = .ok v b' ∧ b'.ram = b.ram ∧ SameMap b b') ∨
    (b.contains address w.bytes = false ∧
      read address w b = .error ⟨address, w.bytes⟩ b) := by
  cases hram : b.ram.contains address w.bytes with
  | true => exact Or.inl ⟨rfl, read_of_ram hram⟩
  | false =>
      right
      cases hr : b.region? address w.bytes with
      | none =>
          right
          refine ⟨by simp [contains, hram, hr], ?_⟩
          simp [read, hram, hr]
      | some r =>
          left
          refine ⟨rfl, by simp [contains, hram, hr], ?_⟩
          simp only [read, hram, hr]
          exact ⟨_, _, rfl, rfl, (sameMap_setDevice _ _ _).trans (sameMap_note _ _)⟩

/-- A write goes to memory, to a device, or nowhere. -/
lemma write_cases (address : UInt64) (w : Width) (value : UInt64) (b : Bus) :
    (b.ram.contains address w.bytes = true ∧
      write address w value b = .ok () { b with ram := b.ram.store address w value }) ∨
    (b.ram.contains address w.bytes = false ∧ b.contains address w.bytes = true ∧
      ∃ b', write address w value b = .ok () b' ∧ b'.ram = b.ram ∧ SameMap b b') ∨
    (b.contains address w.bytes = false ∧
      write address w value b = .error ⟨address, w.bytes⟩ b) := by
  cases hram : b.ram.contains address w.bytes with
  | true => exact Or.inl ⟨rfl, by simp only [write, hram, if_true]⟩
  | false =>
      right
      cases hr : b.region? address w.bytes with
      | none =>
          right
          refine ⟨by simp [contains, hram, hr], ?_⟩
          simp [write, hram, hr]
      | some r =>
          left
          refine ⟨rfl, by simp [contains, hram, hr], ?_⟩
          simp only [write, hram, hr]
          exact ⟨_, rfl, rfl, (sameMap_setDevice _ _ _).trans (sameMap_note _ _)⟩

lemma contains_of_ram {b : Bus} {address : UInt64} {len : Nat}
    (h : b.ram.contains address len = true) : b.contains address len = true := by
  simp [contains, h]

/-! ## What accesses leave -/

lemma leaves_sameRam_read (address : UInt64) (w : Width) : Leaves SameRam (read address w) := by
  intro b
  rcases read_cases address w b with ⟨_, h⟩ | ⟨_, _, v, b', h, hram, _⟩ | ⟨_, h⟩ <;> rw [h]
  · rfl
  · exact hram
  · rfl

lemma leaves_sameMap_read (address : UInt64) (w : Width) : Leaves SameMap (read address w) := by
  intro b
  rcases read_cases address w b with ⟨_, h⟩ | ⟨_, _, v, b', h, _, hmap⟩ | ⟨_, h⟩ <;> rw [h]
  · exact SameMap.refl b
  · exact hmap
  · exact SameMap.refl b

lemma sameMap_store (b : Bus) (address : UInt64) (w : Width) (value : UInt64) :
    SameMap b { b with ram := b.ram.store address w value } where
  base := Memory.base_patch _ _ _
  size := Memory.size_patch _ _ _
  extents := rfl

lemma leaves_sameMap_write (address : UInt64) (w : Width) (value : UInt64) :
    Leaves SameMap (write address w value) := by
  intro b
  rcases write_cases address w value b with ⟨_, h⟩ | ⟨_, _, b', h, _, hmap⟩ | ⟨_, h⟩ <;> rw [h]
  · exact sameMap_store b address w value
  · exact hmap
  · exact SameMap.refl b

/-- A read that answers was backed. -/
lemma contains_of_read {address : UInt64} {w : Width} {b b' : Bus} {v : UInt64}
    (h : read address w b = .ok v b') : b.contains address w.bytes = true := by
  rcases read_cases address w b with ⟨hc, _⟩ | ⟨_, hc, _⟩ | ⟨_, he⟩
  · exact contains_of_ram hc
  · exact hc
  · rw [he] at h
    cases h

/-- A write to a backed address succeeds. -/
lemma write_of_contains {address : UInt64} {w : Width} {b : Bus}
    (hc : b.contains address w.bytes = true) (value : UInt64) :
    ∃ b', write address w value b = .ok () b' := by
  rcases write_cases address w value b with ⟨_, h⟩ | ⟨_, _, b', h, _⟩ | ⟨hc', _⟩
  · exact ⟨_, h⟩
  · exact ⟨b', h⟩
  · rw [hc] at hc'
    cases hc'

/-- Exactly the reads of what the bus contains are answered. -/
lemma exists_read_iff {address : UInt64} {w : Width} {b : Bus} :
    (∃ v b', read address w b = .ok v b') ↔ b.contains address w.bytes = true := by
  constructor
  · rintro ⟨v, b', h⟩
    exact contains_of_read h
  · intro hc
    rcases read_cases address w b with ⟨_, h⟩ | ⟨_, _, v, b', h, _⟩ | ⟨hno, _⟩
    · exact ⟨_, _, h⟩
    · exact ⟨v, b', h⟩
    · rw [hc] at hno
      cases hno

/-- So it is with writes. -/
lemma exists_write_iff {address : UInt64} {w : Width} {b : Bus} (value : UInt64) :
    (∃ b', write address w value b = .ok () b') ↔ b.contains address w.bytes = true := by
  constructor
  · rintro ⟨b', h⟩
    rcases write_cases address w value b with ⟨hc, _⟩ | ⟨_, hc, _⟩ | ⟨_, he⟩
    · exact contains_of_ram hc
    · exact hc
    · rw [he] at h
      cases h
  · intro hc
    exact write_of_contains hc value

lemma read_of_not_contains {address : UInt64} {w : Width} {b : Bus}
    (hno : b.contains address w.bytes = false) :
    read address w b = .error ⟨address, w.bytes⟩ b := by
  rcases read_cases address w b with ⟨hc, _⟩ | ⟨_, hc, _⟩ | ⟨_, he⟩
  · rw [contains_of_ram hc] at hno
    cases hno
  · rw [hc] at hno
    cases hno
  · exact he

lemma write_of_not_contains {address : UInt64} {w : Width} {b : Bus}
    (hno : b.contains address w.bytes = false) (value : UInt64) :
    write address w value b = .error ⟨address, w.bytes⟩ b := by
  rcases write_cases address w value b with ⟨hc, _⟩ | ⟨_, hc, _⟩ | ⟨_, he⟩
  · rw [contains_of_ram hc] at hno
    cases hno
  · rw [hc] at hno
    cases hno
  · exact he

/-- **What could be read can be written.** -/
lemma write_after_read {address : UInt64} {w : Width} {b b' : Bus} {v : UInt64}
    (h : read address w b = .ok v b') (value : UInt64) :
    ∃ b'', write address w value b' = .ok () b'' := by
  have hmap : SameMap b b' := (leaves_sameMap_read address w).of_ok h
  refine write_of_contains ?_ value
  rw [hmap.contains_eq]
  exact contains_of_read h

/-- An access that is refused leaves the bus as it was. -/
lemma eq_of_read_error {address : UInt64} {w : Width} {b b' : Bus} {f : AccessFault}
    (h : read address w b = .error f b') : b' = b := by
  rcases read_cases address w b with ⟨_, hr⟩ | ⟨_, _, v, c, hr, _⟩ | ⟨_, hr⟩ <;> rw [hr] at h
  · cases h
  · cases h
  · cases h
    rfl

lemma eq_of_write_error {address : UInt64} {w : Width} {value : UInt64} {b b' : Bus}
    {f : AccessFault} (h : write address w value b = .error f b') : b' = b := by
  rcases write_cases address w value b with ⟨_, hr⟩ | ⟨_, _, c, hr, _⟩ | ⟨_, hr⟩ <;> rw [hr] at h
  · cases h
  · cases h
  · cases h
    rfl

end Bus

end Rv64Board
