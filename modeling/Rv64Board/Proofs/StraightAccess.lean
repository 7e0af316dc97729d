import Rv64Board.Proofs.ByteAccess

/-!
# Accesses that stay in a row

Eight bytes that stand in a row for the hart need not do so in memory: they may cross from one page
into another, and the pages may be anywhere.  Where they do stand in a row, an access byte by byte
and an access all at once come to the same.

* `Hart.Straight` — bytes in a row are translated to bytes in a row, as they always are within a
  page (`straight_of_page`) and without paging (`straight_of_not_paged`).
* `Hart.InRam` — all of them are translated to memory.
* `load_of_straight`, `store_of_straight` — **a straight access to memory answers with, or changes,
  the doubleword that its first byte is translated to,** aligned or not.
-/

namespace Rv64Board

namespace Memory

variable {m : Memory} {pa : UInt64} {n k : Nat}

/-- Memory ends within the address space. -/
def Fits (m : Memory) : Prop := m.base.toNat + m.size.toNat ≤ 2 ^ 64

lemma contains_byte (hm : m.Fits) (hc : m.contains pa n = true) (hk : k < n) :
    m.contains (pa + UInt64.ofNat k) 1 = true := by
  rw [Fits] at hm
  rw [Sv39.contains_iff] at hc ⊢
  have hofNat : (UInt64.ofNat k).toNat = k :=
    UInt64.toNat_ofNat_of_lt' (by rw [UInt64.size]; omega)
  rw [UInt64.toNat_add, hofNat, Nat.mod_eq_of_lt (by omega)]
  omega

end Memory

namespace Hart

/-! ## Bytes that are translated to bytes in a row -/

/-- If the first of eight bytes is translated, the others are translated to those that follow it. -/
def Straight (h : Hart) (access : Access) (b : Bus) (va : UInt64) : Prop :=
  ∀ pa, h.Reaches access b va pa →
    ∀ k < 8, h.Reaches access b (va + UInt64.ofNat k) (pa + UInt64.ofNat k)

/-- Eight bytes are all translated to memory. -/
def InRam (h : Hart) (access : Access) (b : Bus) (va : UInt64) : Prop :=
  ∀ k < 8, ∃ pa, h.Reaches access b (va + UInt64.ofNat k) pa ∧ b.ram.contains pa 1 = true

/-- The walks of all eight bytes meet no device. -/
def RowWalksMemory (h : Hart) (access : Access) (b : Bus) (va : UInt64) : Prop :=
  ∀ k < 8, h.WalksMemory access b (va + UInt64.ofNat k)

variable {h : Hart} {access : Access} {b c : Bus} {va pa : UInt64}

lemma straight_of_not_paged (hoff : ¬h.Paged access) (b : Bus) (va : UInt64) :
    h.Straight access b va := by
  intro pa hr k hk
  rw [reaches_iff_of_not_paged hoff] at hr ⊢
  rw [hr]

/-- **Bytes within a page stay in a row.** -/
lemma straight_of_page (hpaged : h.Paged access) (hw : h.WalksMemory access b va)
    (hpage : va.toNat % 4096 ≤ 4088) : h.Straight access b va := by
  intro pa hr k hk
  exact hr.add hpaged hw (by omega)

/-- Straight bytes are in memory together. -/
lemma Straight.ram_contains (hs : h.Straight access b va) (hr : h.Reaches access b va pa)
    (hin : h.InRam access b va) : b.ram.contains pa 8 = true := by
  refine Memory.contains_of_bytes (by decide) (by decide) fun k hk => ?_
  obtain ⟨pa', hr', hc⟩ := hin k hk
  rwa [hr'.unique (hs pa hr k hk)] at hc

lemma Straight.inRam (hs : h.Straight access b va) (hr : h.Reaches access b va pa)
    (hm : b.ram.Fits) (hc : b.ram.contains pa 8 = true) : h.InRam access b va :=
  fun k hk => ⟨_, hs pa hr k hk, Memory.contains_byte hm hc hk⟩

/-- Where the bytes of a straight access are translated to. -/
lemma Straight.lands (hs : h.Straight access b va) (hr : h.Reaches access b va pa)
    (hm : b.ram.Fits) (hc : b.ram.contains pa 8 = true) :
    h.Lands access b va .double fun k => pa + UInt64.ofNat k where
  reaches k hk := hs pa hr k hk
  inRam _ hk := Memory.contains_byte hm hc hk

/-- The row that the bytes of a straight access are translated to. -/
lemma Straight.translateAll (hs : h.Straight access b va) (hw : h.RowWalksMemory access b va)
    (hr : h.Reaches access b va pa) :
    ∃ c, h.translateAll access (byteAddresses va .double) b =
      .ok ((List.range 8).map fun k => pa + UInt64.ofNat k) c :=
  translateAll_of_reaches (fun k hk => hw k (List.mem_range.mp hk))
    fun k hk => hs pa hr k (List.mem_range.mp hk)

/-- **A straight load from memory** answers with the doubleword there, marks included. -/
lemma load_of_straight (hs : h.Straight .load b va) (hw : h.RowWalksMemory .load b va)
    (hr : h.Reaches .load b va pa) (hm : b.ram.Fits) (hc : b.ram.contains pa 8 = true) :
    ∃ c, h.load va .double b = .ok (c.ram.load pa .double) c := by
  obtain ⟨c, hload⟩ := load_of_lands (w := .double) hw (hs.lands hr hm hc)
  have hmarked := (leaves_ramMarked_load h va .double).of_ok hload
  have hcc : c.ram.contains pa Width.double.bytes = true := by
    rw [Memory.contains, hmarked.base, hmarked.size]
    exact hc
  exact ⟨c, by rw [hload, Memory.load_eq_ofBytes hcc]⟩

/-- **A straight store to memory** replaces the doubleword there, once all is translated. -/
lemma store_of_straight (hs : h.Straight .store b va) (hw : h.RowWalksMemory .store b va)
    (hr : h.Reaches .store b va pa) (hm : b.ram.Fits) (hc : b.ram.contains pa 8 = true)
    (value : UInt64) :
    ∃ c, h.TranslatedOnly va .double b c ∧ c.ram.contains pa 8 = true ∧
      h.store va .double value b = .ok () { c with ram := c.ram.store pa .double value } := by
  obtain ⟨c, htr, hmap, hstore⟩ := store_of_lands (w := .double) hw (hs.lands hr hm hc) value
  have hcc : c.ram.contains pa 8 = true := by rwa [hmap.ram_contains_eq]
  have hblock := Memory.setBytes_row hcc (LittleEndian.toBytes 8 value.toNat) (i := 0) (by simp)
  rw [LittleEndian.length_toBytes, ← List.range_eq_range', Nat.add_zero] at hblock
  rw [storedBytes_eq_zip] at hstore
  exact ⟨c, htr, hcc, hstore.trans (by rw [Width.bytes, hblock]; rfl)⟩

end Hart

end Rv64Board
