import Mathlib.Algebra.BigOperators.Group.Finset.Basic
import Mathlib.Algebra.BigOperators.Ring.Finset
import Mathlib.Tactic.Ring
import Rv64Board.Proofs.DebuggerMemory

/-!
# Loads and stores are little-endian

A load puts together the bytes that its addresses are translated to, least significant first, and a
store takes its value apart in the same way.  Alignment makes no difference to that.

What is stored can be loaded again.  There are two ways in which this could fail: the page might be
writable but not readable, and the store might change the very entries it is translated by.  The
first cannot happen, since such an entry is refused (`Translates.load_of_store`); the second is left
to the program (`Hart.ClearOfTables`).

* `LittleEndian.ofBytes_range` — a row of bytes as a sum over powers of 256.
* `Hart.MarkedOutside` — memory that differs by the marks of an access, some places aside.
* `Lands.load_after_store` — **after a store, the bytes are where they were,** for loads too.
* `little_endian_access` — what loads read, what stores leave, and what is loaded after a store.
-/

namespace Rv64Board

/-- Bytes in a row, least significant first, as a sum. -/
lemma LittleEndian.ofBytes_range (n : Nat) (f : Nat → UInt8) :
    ofBytes ((List.range n).map f) = ∑ k ∈ Finset.range n, (f k).toNat * 256 ^ k := by
  induction n generalizing f with
  | zero => rfl
  | succ n ih =>
      rw [List.range_succ_eq_map, List.map_cons, List.map_map, ofBytes, ih, Finset.sum_range_succ',
        Finset.mul_sum, Nat.add_comm, Nat.pow_zero, Nat.mul_one]
      congr 1
      refine Finset.sum_congr rfl fun k _ => ?_
      simp only [Function.comp]
      ring

namespace Sv39

variable {h : Hart} {m : Memory} {va pa : Nat}

/-- **What can be stored to can be loaded from,** at the same place: a leaf that is writable but not
    readable is not well-formed. -/
lemma Translates.load_of_store (htr : Translates h m .store va pa) :
    Translates h m .load va pa := by
  obtain ⟨level, entry, pte, hend, ⟨hgrants, howned⟩, haligned, hpa⟩ := htr
  have hlevel : h.effectiveLevel .load = h.effectiveLevel .store := by simp [Hart.effectiveLevel]
  refine ⟨level, entry, pte, hend, ⟨Or.inl (hend.2.2.2.writable hgrants), ?_⟩, haligned, hpa⟩
  rw [hlevel]
  cases hl : h.effectiveLevel .store <;> rw [hl] at howned
  · exact howned
  · exact fun huser => ⟨by decide, (howned huser).2⟩
  · exact fun huser => ⟨by decide, (howned huser).2⟩

/-- Bytes that are set elsewhere leave a doubleword. -/
lemma doubleword?_setBytes {row : List (UInt64 × UInt8)} {entry : Nat}
    (hc : ∀ p ∈ row, m.contains p.1 1 = true)
    (hout : ∀ p ∈ row, ¬(entry ≤ p.1.toNat ∧ p.1.toNat < entry + 8)) :
    (m.setBytes row).doubleword? entry = m.doubleword? entry := by
  obtain ⟨hbase, hsize⟩ := m.extent_setBytes row
  rw [Memory.doubleword?, Memory.doubleword?, hbase, hsize]
  split
  · next hin =>
    refine congrArg some (congrArg LittleEndian.ofBytes (List.map_congr_left fun j hj => ?_))
    rw [List.mem_range'_1] at hj
    refine Memory.byte_setBytes_of_notMem hc fun p hp heq => ?_
    have hplace := Memory.base_add_offset (hc p hp)
    exact hout p hp (by omega)
  · rfl

end Sv39

namespace Hart

variable {h : Hart} {b c : Bus} {va : UInt64} {w : Width} {pa : Nat → UInt64} {value : UInt64}

lemma Reaches.load_of_store {pa : UInt64} (hw : h.WalksMemory .store b va)
    (hr : h.Reaches .store b va pa) : h.Reaches .load b va pa := by
  by_cases hpaged : h.Paged .store
  · obtain ⟨b', hb⟩ := hr
    have htr := Sv39.translates_of_translate hpaged (hw hpaged) hb
    exact Sv39.translate_of_translates (paged_store_iff.mp hpaged) htr.load_of_store
  · rw [reaches_iff_of_not_paged hpaged] at hr
    exact (reaches_iff_of_not_paged fun hp => hpaged (paged_store_iff.mpr hp)).mpr hr

lemma BytesWalkMemory.store (hw : h.BytesWalkMemory .load b va w) :
    h.BytesWalkMemory .store b va w :=
  fun k hk hpaged => hw k hk (paged_store_iff.mp hpaged)

/-- Memory differs from that of a bus by the marks that an access leaves, some places aside. -/
structure MarkedOutside (h : Hart) (access : Access) (va : UInt64) (w : Width) (b : Bus)
    (places : Nat → Prop) (m : Memory) : Prop where
  base : m.base = b.ram.base
  size : m.size = b.ram.size
  marks : ∀ j, ¬places j → m.byte j ≠ b.ram.byte j →
    h.MarkedBy access (byteAddresses va w) b j ∧ Gains (b.ram.byte j) (m.byte j)

/-- No byte that is stored is part of an entry that the walks of the access come to. -/
def ClearOfTables (h : Hart) (b : Bus) (va : UInt64) (w : Width) (pa : Nat → UInt64) : Prop :=
  h.Paged .load → ∀ k < w.bytes, ∀ level entry,
    Sv39.Meets b.ram (va + UInt64.ofNat k).toNat 3 (Sv39.root h) level entry →
    ∀ i < w.bytes, ¬(entry ≤ (pa i).toNat ∧ (pa i).toNat < entry + 8)

/-- Bytes that are clear of the tables are not marked. -/
lemma ClearOfTables.not_markedBy (hw : h.BytesWalkMemory .load b va w)
    (hclear : h.ClearOfTables b va w pa) {k : Nat} (hk : k < w.bytes)
    (hin : b.ram.contains (pa k) 1 = true) :
    ¬h.MarkedBy .load (byteAddresses va w) b (b.ram.offset (pa k)) := by
  intro hmarked
  have hpaged : h.Paged .load := by
    obtain ⟨_, _, _, _, _, _, _, _, _, hfinds, _⟩ := hmarked
    exact hfinds.1
  have htables : ∀ a ∈ byteAddresses va w, Sv39.InMemoryOrUnmapped h b a.toNat := by
    intro a ha
    obtain ⟨i, hi, rfl⟩ := List.mem_map.mp ha
    exact hw i (List.mem_range.mp hi) hpaged
  obtain ⟨a, ha, level, pte, hend⟩ := Sv39.leafAt_of_markedBy htables hmarked
  obtain ⟨i, hi, rfl⟩ := List.mem_map.mp ha
  rw [Memory.base_add_offset hin] at hend
  exact hclear hpaged i (List.mem_range.mp hi) level _ hend.2.1 k hk (by omega)

/-! ## Loads -/

lemma toNat_load_of_lands (hw : h.BytesWalkMemory .load b va w) (hl : h.Lands .load b va w pa) :
    ∃ v c, h.load va w b = .ok v c ∧
      v.toNat = LittleEndian.ofBytes
        ((List.range w.bytes).map fun k => c.ram.byte (c.ram.offset (pa k))) := by
  obtain ⟨c, hload⟩ := load_of_lands hw hl
  refine ⟨_, c, hload, UInt64.toNat_ofNat_of_lt' ?_⟩
  have hlt := LittleEndian.ofBytes_lt
    ((List.range w.bytes).map fun k => c.ram.byte (c.ram.offset (pa k)))
  rw [List.length_map, List.length_range] at hlt
  have hroom : 256 ^ w.bytes ≤ UInt64.size := by cases w <;> decide
  omega

lemma markedOutside_load {v : UInt64} (hload : h.load va w b = .ok v c) :
    h.MarkedOutside .load va w b (fun _ => False) c.ram := by
  have hmarked := (leaves_ramMarked_load h va w).of_ok hload
  refine ⟨hmarked.base, hmarked.size, fun j _ hj => ⟨changed_load ?_, hmarked.gains j⟩⟩
  rwa [hload]

/-- A load that is clear of the tables reads what was there before it. -/
lemma byte_of_load (hw : h.BytesWalkMemory .load b va w) (hl : h.Lands .load b va w pa)
    (hclear : h.ClearOfTables b va w pa) {v : UInt64} (hload : h.load va w b = .ok v c) {k : Nat}
    (hk : k < w.bytes) :
    c.ram.byte (c.ram.offset (pa k)) = b.ram.byte (b.ram.offset (pa k)) := by
  have hmarked := markedOutside_load hload
  rw [Memory.offset, hmarked.base, ← Memory.offset]
  by_contra hne
  exact hclear.not_markedBy hw hk (hl.inRam k hk) (hmarked.marks _ not_false hne).1

/-! ## Stores -/

/-- The bytes that are stored are in memory. -/
lemma contains_storedBytes (hl : h.Lands .store b va w pa) (hmap : Bus.SameMap b c)
    {p : UInt64 × UInt8} (hp : p ∈ storedBytes w pa value) : c.ram.contains p.1 1 = true := by
  obtain ⟨k, hk, rfl⟩ := List.mem_map.mp hp
  rw [hmap.ram_contains_eq]
  exact hl.inRam k (List.mem_range.mp hk)

/-- Each byte of the value is where it is translated to. -/
lemma byte_stored (hw : h.BytesWalkMemory .store b va w) (hl : h.Lands .store b va w pa)
    (hmap : Bus.SameMap b c) {k : Nat} (hk : k < w.bytes) :
    (c.ram.setBytes (storedBytes w pa value)).byte (b.ram.offset (pa k)) =
      UInt8.ofNat (value.toNat / 256 ^ k) := by
  have hoffset (a : UInt64) : c.ram.offset a = b.ram.offset a := by
    rw [Memory.offset, Memory.offset, hmap.base]
  have hdiff : ((storedBytes w pa value).map fun p => c.ram.offset p.1).Nodup := by
    rw [storedBytes, List.map_map]
    refine List.Nodup.map_on (fun i hi j hj heq => ?_) List.nodup_range
    -- bytes at one place in memory would have one address
    have hi' := List.mem_range.mp hi
    have hj' := List.mem_range.mp hj
    refine hl.injective hw hi' hj' (UInt64.toNat_inj.mp ?_)
    rw [← Memory.base_add_offset (hl.inRam i hi'), ← Memory.base_add_offset (hl.inRam j hj')]
    simp only [Function.comp, hoffset] at heq
    rw [heq]
  rw [← hoffset]
  exact Memory.byte_setBytes (fun p => contains_storedBytes hl hmap) hdiff
    (List.mem_map.mpr ⟨k, List.mem_range.mpr hk, rfl⟩)

/-- Elsewhere there is nothing but marks. -/
lemma markedOutside_store (hl : h.Lands .store b va w pa) (htr : h.TranslatedOnly va w b c)
    (hmap : Bus.SameMap b c) :
    h.MarkedOutside .store va w b (fun j => ∃ k < w.bytes, j = b.ram.offset (pa k))
      (c.ram.setBytes (storedBytes w pa value)) := by
  obtain ⟨hbase, hsize⟩ := c.ram.extent_setBytes (storedBytes w pa value)
  refine ⟨hbase.trans hmap.base, hsize.trans hmap.size, fun j hout hj => ?_⟩
  have hkept : (c.ram.setBytes (storedBytes w pa value)).byte j = c.ram.byte j := by
    refine Memory.byte_setBytes_of_notMem (fun p => contains_storedBytes hl hmap) fun p hp heq => ?_
    obtain ⟨k, hk, rfl⟩ := List.mem_map.mp hp
    refine hout ⟨k, List.mem_range.mp hk, ?_⟩
    rw [← heq, Memory.offset, Memory.offset, hmap.base]
  rw [hkept] at hj ⊢
  exact ⟨htr.changed hj, htr.marked.gains j⟩

/-! ## A load after a store -/

/-- A store that stays clear of the tables leaves them the same along its walks. -/
lemma sameAlong_store (hl : h.Lands .store b va w pa) (htr : h.TranslatedOnly va w b c)
    (hmap : Bus.SameMap b c) (hclear : h.ClearOfTables b va w pa) (hpaged : h.Paged .load) {k : Nat}
    (hk : k < w.bytes) :
    Sv39.SameAlong b.ram (c.ram.setBytes (storedBytes w pa value)) (va + UInt64.ofNat k).toNat 3
      (Sv39.root h) := by
  intro level entry hm
  rw [Sv39.doubleword?_setBytes (fun p => contains_storedBytes hl hmap)]
  · exact (Sv39.Marked.sameTables htr.marked).sameAlong _ _ _ _ _ hm
  · intro p hp
    obtain ⟨i, hi, rfl⟩ := List.mem_map.mp hp
    exact hclear hpaged k hk level entry hm i (List.mem_range.mp hi)

/-- **After a store, its bytes are where they were,** for loads too. -/
lemma Lands.load_after_store (hw : h.BytesWalkMemory .load b va w) (hl : h.Lands .store b va w pa)
    (htr : h.TranslatedOnly va w b c) (hmap : Bus.SameMap b c) (hclear : h.ClearOfTables b va w pa)
    {c' : Bus} (hc' : c' = { c with ram := c.ram.setBytes (storedBytes w pa value) }) :
    h.BytesWalkMemory .load c' va w ∧ h.Lands .load c' va w pa := by
  obtain ⟨hbase, hsize⟩ := c.ram.extent_setBytes (storedBytes w pa value)
  have hmap' : Bus.SameMap b c' := hmap.trans (by rw [hc']; exact ⟨hbase, hsize, rfl⟩)
  have hsame {k : Nat} (hk : k < w.bytes) (hpaged : h.Paged .load) :
      Sv39.SameAlong b.ram c'.ram (va + UInt64.ofNat k).toNat 3 (Sv39.root h) := by
    rw [hc']
    exact sameAlong_store hl htr hmap hclear hpaged hk
  refine ⟨fun k hk => (hw k hk).of_sameAlong (hsame hk) hmap', fun k hk => ?_, fun k hk => ?_⟩
  · exact ((hl.reaches k hk).load_of_store (hw.store k hk)).of_sameAlong (hw k hk) (hsame hk)
  · rw [hmap'.ram_contains_eq]
    exact hl.inRam k hk

/-- The bytes of a value, put together again. -/
lemma ofBytes_digits (w : Width) (value : UInt64) :
    LittleEndian.ofBytes ((List.range w.bytes).map fun k => UInt8.ofNat (value.toNat / 256 ^ k)) =
      value.toNat % 256 ^ w.bytes := by
  rw [← LittleEndian.toBytes_eq_map, LittleEndian.ofBytes_toBytes, Nat.shiftLeft_eq, Nat.one_mul,
    Nat.pow_mul]

/-- **What has been stored is loaded.** -/
lemma load_store (hw : h.BytesWalkMemory .load b va w) (hl : h.Lands .store b va w pa)
    (htr : h.TranslatedOnly va w b c) (hmap : Bus.SameMap b c) (hclear : h.ClearOfTables b va w pa)
    {c' : Bus} (hc' : c' = { c with ram := c.ram.setBytes (storedBytes w pa value) }) :
    ∃ v c'', h.load va w c' = .ok v c'' ∧ v.toNat = value.toNat % 256 ^ w.bytes := by
  obtain ⟨hw', hl'⟩ := hl.load_after_store hw htr hmap hclear hc'
  obtain ⟨v, c'', hload, hv⟩ := toNat_load_of_lands hw' hl'
  have hram : c'.ram = c.ram.setBytes (storedBytes w pa value) := by rw [hc']
  have hoffset (a : UInt64) : c'.ram.offset a = b.ram.offset a := by
    rw [Memory.offset, Memory.offset, hram, (c.ram.extent_setBytes _).1, hmap.base]
  have hclear' : h.ClearOfTables c' va w pa := by
    intro hpaged k hk level entry hm
    refine hclear hpaged k hk level entry (Sv39.SameAlong.meets_iff ?_ |>.mp hm)
    rw [hram]
    exact sameAlong_store hl htr hmap hclear hpaged hk
  refine ⟨v, c'', hload, ?_⟩
  rw [hv, ← ofBytes_digits]
  refine congrArg LittleEndian.ofBytes (List.map_congr_left fun k hk => ?_)
  have hk' := List.mem_range.mp hk
  rw [byte_of_load hw' hl' hclear' hload hk', hoffset, hram]
  exact byte_stored hw.store hl hmap hk'

/-- **Loads and stores are little-endian, aligned or not.**  As long as the walks of its bytes meet
    no device, an access is made byte by byte.  If all bytes of a load are translated to memory, it
    answers with the sum of these bytes, each with its power of 256, as they are once the load has
    left its marks, and where they are clear of the tables, as they were before.  If all bytes of a
    store are translated to memory, it leaves each byte of the value where that is translated to,
    and elsewhere it leaves marks at most.  If it stays clear of the tables, a load from the same
    address then answers with the value, as far as the width has room for it. -/
theorem little_endian_access (hw : h.BytesWalkMemory .load b va w) :
    (∀ pa, h.Lands .load b va w pa → ∃ v c, h.load va w b = .ok v c ∧
      v.toNat = ∑ k ∈ Finset.range w.bytes, (c.ram.byte (c.ram.offset (pa k))).toNat * 256 ^ k ∧
      h.MarkedOutside .load va w b (fun _ => False) c.ram ∧
      (h.ClearOfTables b va w pa →
        v.toNat = ∑ k ∈ Finset.range w.bytes, (b.ram.byte (b.ram.offset (pa k))).toNat * 256 ^ k)) ∧
    ∀ pa value, h.Lands .store b va w pa → ∃ c, h.store va w value b = .ok () c ∧
      (∀ k < w.bytes, c.ram.byte (b.ram.offset (pa k)) = UInt8.ofNat (value.toNat / 256 ^ k)) ∧
      h.MarkedOutside .store va w b (fun j => ∃ k < w.bytes, j = b.ram.offset (pa k)) c.ram ∧
      (h.ClearOfTables b va w pa →
        ∃ v c', h.load va w c = .ok v c' ∧ v.toNat = value.toNat % 256 ^ w.bytes) := by
  refine ⟨fun pa hl => ?_, fun pa value hl => ?_⟩
  · obtain ⟨v, c, hload, hv⟩ := toNat_load_of_lands hw hl
    rw [LittleEndian.ofBytes_range] at hv
    refine ⟨v, c, hload, hv, markedOutside_load hload, fun hclear => hv.trans ?_⟩
    refine Finset.sum_congr rfl fun k hk => ?_
    rw [byte_of_load hw hl hclear hload (Finset.mem_range.mp hk)]
  · obtain ⟨c, htr, hmap, hstore⟩ := store_of_lands hw.store hl value
    exact ⟨_, hstore, fun k hk => byte_stored hw.store hl hmap hk, markedOutside_store hl htr hmap,
      fun hclear => load_store hw hl htr hmap hclear rfl⟩

/-- Where the bytes of an access are translated to, by evaluation. -/
lemma lands_of_all {access : Access}
    (hall : ((List.range w.bytes).all fun k => passes (fun a _ => a == pa k && b.ram.contains a 1)
      (h.translate access (va + UInt64.ofNat k) b)) = true) : h.Lands access b va w pa := by
  have hone (k : Nat) (hk : k < w.bytes) :
      h.Reaches access b (va + UInt64.ofNat k) (pa k) ∧ b.ram.contains (pa k) 1 = true := by
    obtain ⟨a, c, ht, htest⟩ :=
      ok_of_passes _ (List.all_eq_true.mp hall k (List.mem_range.mpr hk))
    rw [Bool.and_eq_true, beq_iff_eq] at htest
    obtain ⟨rfl, hin⟩ := htest
    exact ⟨⟨c, ht⟩, hin⟩
  exact ⟨fun k hk => (hone k hk).1, fun k hk => (hone k hk).2⟩

/-- Two pages of data behind a table, the one that comes first for the hart being the last. -/
def swappedPages : Memory :=
  (((Memory.zeroed 0x80000000 0x3000).store 0x80000000 .double 0x20000001).store
    0x80000008 .double 0x2000080F).store 0x80000010 .double 0x2000040F

lemma folded_swappedPages : Debugger.Session.Folded swappedPages where
  base := by decide +kernel
  size := by decide +kernel
  back := by decide +kernel
  second := ⟨0x2000080F, by decide +kernel, by decide⟩
  third := ⟨0x2000040F, by decide +kernel, by decide⟩

/-- Eight bytes from the end of the last page on: four of them there and four in the page before. -/
def crossing (k : Nat) : UInt64 :=
  if k < 4 then 0x80002FFC + UInt64.ofNat k else 0x80001000 + UInt64.ofNat (k - 4)

/-- A store to them, and a load. -/
theorem crossing_store_loaded :
    Sv39.pagedHart.BytesWalkMemory .load (Bus.ofMemory swappedPages) 0x1FFC .double ∧
    Sv39.pagedHart.Lands .store (Bus.ofMemory swappedPages) 0x1FFC .double crossing ∧
    Sv39.pagedHart.ClearOfTables (Bus.ofMemory swappedPages) 0x1FFC .double crossing ∧
    ∃ c v c', Sv39.pagedHart.store 0x1FFC .double 0x1122334455667788 (Bus.ofMemory swappedPages) =
        .ok () c ∧
      c.ram.byte 0x2FFF = 0x55 ∧ c.ram.byte 0x1000 = 0x44 ∧
      Sv39.pagedHart.load 0x1FFC .double c = .ok v c' ∧ v = 0x1122334455667788 := by
  have hva : ∀ k < 8, ∀ l < 3, Sv39.vpn ((0x1FFC : UInt64) + UInt64.ofNat k).toNat l ≤ 2 := by
    decide
  have hw : Sv39.pagedHart.BytesWalkMemory .load (Bus.ofMemory swappedPages) 0x1FFC .double :=
    fun k hk => folded_swappedPages.walksMemory (hva k hk)
  have hl : Sv39.pagedHart.Lands .store (Bus.ofMemory swappedPages) 0x1FFC .double crossing :=
    lands_of_all (by decide +kernel)
  have hclear :
      Sv39.pagedHart.ClearOfTables (Bus.ofMemory swappedPages) 0x1FFC .double crossing := by
    intro _ k hk level entry hm i hi
    have hentry := folded_swappedPages.meets hm (by decide) (Nat.le_refl 3) (hva k hk)
    have hindex := hva k hk level hm.level_lt
    have hdata : ∀ i < 8, 0x80001000 ≤ (crossing i).toNat := by decide
    have hpast := hdata i hi
    omega
  obtain ⟨c, hstore, hbytes, _, hback⟩ :=
    (little_endian_access hw).2 crossing 0x1122334455667788 hl
  obtain ⟨v, c', hload, hv⟩ := hback hclear
  refine ⟨hw, hl, hclear, c, v, c', hstore, ?_, ?_, hload, UInt64.toNat_inj.mp hv⟩
  · exact hbytes 3 (by decide)
  · exact hbytes 4 (by decide)

end Hart

end Rv64Board
