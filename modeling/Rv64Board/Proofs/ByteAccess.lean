import Rv64Board.Proofs.Inspection
import Rv64Board.Proofs.Isolation

/-!
# Accesses byte by byte

An aligned access is one access to the bus; a misaligned one is as many as it has bytes, each
translated for itself.  Both come to the same: what counts is where each byte is translated to.

* `Memory.setBytes` — memory with the bytes at a list of addresses replaced.  Where the addresses
  stand in a row, that is a block (`setBytes_row`); where they are all different, each holds its
  byte (`byte_setBytes`).
* `Hart.Lands` — the bytes of an access are all translated to memory, and to where.
* `Lands.row` — the bytes of an aligned access are translated to bytes in a row, since they are in
  one page.  `Lands.injective` — the bytes of any access are translated to different bytes.
* `load_of_lands`, `store_of_lands` — **what a load reads and what a store leaves,** aligned or not.
-/

namespace Rv64Board

/-! ## Bytes of memory -/

/-- The bytes of a number are its digits. -/
lemma LittleEndian.toBytes_eq_map (count n : Nat) :
    toBytes count n = (List.range count).map fun k => UInt8.ofNat (n / 256 ^ k) := by
  induction count generalizing n with
  | zero => rfl
  | succ count ih =>
      rw [toBytes, ih, List.range_succ_eq_map, List.map_cons, List.map_map]
      simp [Function.comp_def, Nat.pow_succ', Nat.div_div_eq_div_mul]

namespace Memory

variable {m : Memory} {pa : UInt64} {n k : Nat}

/-- Bytes of memory are as far from its base as their addresses say. -/
lemma offset_add (hc : m.contains pa n = true) (hk : k < n) :
    m.offset (pa + UInt64.ofNat k) = m.offset pa + k := by
  have hbase := base_add_offset hc
  have hfit := offset_add_le hc
  have hsize := m.size.toNat_lt
  have hpa := pa.toNat_lt
  simp only [contains, Bool.and_eq_true, decide_eq_true_eq, UInt64.le_iff_toNat_le] at hc
  have hofNat : (UInt64.ofNat k).toNat = k :=
    UInt64.toNat_ofNat_of_lt' (by rw [UInt64.size]; omega)
  simp only [offset, UInt64.toNat_sub, UInt64.toNat_add, hofNat] at *
  omega

/-- Bytes of memory in a row are a block of it: memory does not go past the last address. -/
lemma contains_of_bytes (hn : 0 < n) (hn' : n < 2 ^ 64)
    (hc : ∀ k < n, m.contains (pa + UInt64.ofNat k) 1 = true) : m.contains pa n = true := by
  have hsize := m.size.toNat_lt
  have hpa := pa.toNat_lt
  have hbyte (k : Nat) (hk : k < n) : m.base.toNat ≤ (pa.toNat + k) % 2 ^ 64 ∧
      (pa.toNat + k) % 2 ^ 64 + 1 ≤ m.base.toNat + m.size.toNat := by
    have hofNat : (UInt64.ofNat k).toNat = k :=
      UInt64.toNat_ofNat_of_lt' (by rw [UInt64.size]; omega)
    have := (Sv39.contains_iff m (pa + UInt64.ofNat k) 1).mp (hc k hk)
    rwa [UInt64.toNat_add, hofNat] at this
  -- were there a byte past the last address, the one at that address would not fit
  have hfit : pa.toNat + n ≤ 2 ^ 64 := by
    by_contra hpast
    have hlast := hbyte (2 ^ 64 - 1 - pa.toNat) (by omega)
    have hfirst := hbyte (2 ^ 64 - pa.toNat) (by omega)
    rw [show pa.toNat + (2 ^ 64 - 1 - pa.toNat) = 2 ^ 64 - 1 by omega] at hlast
    rw [show pa.toNat + (2 ^ 64 - pa.toNat) = 2 ^ 64 by omega] at hfirst
    omega
  rw [Sv39.contains_iff]
  have hlow := hbyte 0 hn
  have hhigh := hbyte (n - 1) (by omega)
  rw [Nat.mod_eq_of_lt (by omega)] at hlow hhigh
  omega

lemma toUInt8_load_byte (m : Memory) (a : UInt64) :
    (m.load a .byte).toUInt8 = m.byte (m.offset a) := by
  have hlt := (m.byte (m.offset a)).toNat_lt
  apply UInt8.toNat_inj.mp
  rw [UInt64.toNat_toUInt8, toNat_load]
  simp only [Width.bytes, slice_succ, LittleEndian.ofBytes]
  simp [slice, LittleEndian.ofBytes]

lemma store_byte (m : Memory) (a : UInt64) (v : UInt8) :
    m.store a .byte v.toUInt64 = m.setByte (m.offset a) v := by
  simp only [store, Width.bytes, UInt8.toNat_toUInt64, LittleEndian.toBytes, patch]
  congr 1
  simp

/-- The value of a block, from its bytes one by one. -/
lemma load_eq_ofBytes {w : Width} (hc : m.contains pa w.bytes = true) :
    UInt64.ofNat (LittleEndian.ofBytes
      ((List.range w.bytes).map fun k => m.byte (m.offset (pa + UInt64.ofNat k)))) =
      m.load pa w := by
  rw [load, slice, List.range'_eq_map_range, List.map_map]
  congr 2
  refine List.map_congr_left fun k hk => ?_
  rw [Function.comp, offset_add hc (List.mem_range.mp hk)]

/-! ## Rows of bytes -/

/-- Memory with the bytes at a row of addresses replaced, one after the other. -/
def setBytes (m : Memory) (row : List (UInt64 × UInt8)) : Memory :=
  row.foldl (fun m p => m.setByte (m.offset p.1) p.2) m

lemma setBytes_cons (m : Memory) (p : UInt64 × UInt8) (row : List (UInt64 × UInt8)) :
    m.setBytes (p :: row) = (m.setByte (m.offset p.1) p.2).setBytes row := rfl

lemma extent_setBytes (m : Memory) (row : List (UInt64 × UInt8)) :
    (m.setBytes row).base = m.base ∧ (m.setBytes row).size = m.size := by
  induction row generalizing m with
  | nil => exact ⟨rfl, rfl⟩
  | cons p row ih => exact ih (m.setByte (m.offset p.1) p.2)

/-- **Addresses in a row take a block of bytes.** -/
lemma setBytes_row (hc : m.contains pa n = true) (bytes : List UInt8) {i : Nat}
    (hn : i + bytes.length ≤ n) :
    m.setBytes (((List.range' i bytes.length).map fun k => pa + UInt64.ofNat k).zip bytes) =
      m.patch (m.offset pa + i) bytes := by
  induction bytes generalizing m i with
  | nil => rfl
  | cons v bytes ih =>
      rw [List.length_cons] at hn
      rw [List.length_cons, List.range'_succ, List.map_cons, List.zip_cons_cons, setBytes_cons,
        offset_add hc (by omega)]
      exact ih (m := m.setByte (m.offset pa + i) v) hc (by omega)

/-- A byte that is not in the row stays. -/
lemma byte_setBytes_of_notMem {row : List (UInt64 × UInt8)} {j : Nat}
    (hc : ∀ p ∈ row, m.contains p.1 1 = true) (hj : ∀ p ∈ row, m.offset p.1 ≠ j) :
    (m.setBytes row).byte j = m.byte j := by
  induction row generalizing m with
  | nil => rfl
  | cons p row ih =>
      have hfit := offset_add_le (hc p List.mem_cons_self)
      rw [setBytes_cons, ih (m := m.setByte (m.offset p.1) p.2)
        (fun q hq => hc q (List.mem_cons_of_mem _ hq))
        (fun q hq => hj q (List.mem_cons_of_mem _ hq)),
        byte_setByte _ _ _ _ hfit, if_neg (hj p List.mem_cons_self)]

/-- **Where the addresses of a row are all different, each of them holds its byte.** -/
lemma byte_setBytes {row : List (UInt64 × UInt8)} (hc : ∀ p ∈ row, m.contains p.1 1 = true)
    (hdiff : (row.map fun p => m.offset p.1).Nodup) {p : UInt64 × UInt8} (hp : p ∈ row) :
    (m.setBytes row).byte (m.offset p.1) = p.2 := by
  induction row generalizing m with
  | nil => cases hp
  | cons q row ih =>
      have hfit := offset_add_le (hc q List.mem_cons_self)
      have hrest (r : UInt64 × UInt8) (hr : r ∈ row) := hc r (List.mem_cons_of_mem _ hr)
      rw [List.map_cons, List.nodup_cons] at hdiff
      rw [setBytes_cons]
      rcases List.mem_cons.mp hp with rfl | hp
      · -- the later bytes go elsewhere
        refine (byte_setBytes_of_notMem (m := m.setByte (m.offset p.1) p.2) hrest ?_).trans ?_
        · intro r hr heq
          exact hdiff.1 (List.mem_map.mpr ⟨r, hr, heq⟩)
        · rw [byte_setByte _ _ _ _ hfit, if_pos rfl]
      · exact ih (m := m.setByte (m.offset q.1) q.2) hrest hdiff.2 hp

end Memory

namespace Hart

lemma readEach_of_ram (fault : Exception) (row : List UInt64) {b : Bus}
    (hc : ∀ a ∈ row, b.ram.contains a 1 = true) :
    readEach fault row b = .ok (row.map fun a => b.ram.byte (b.ram.offset a)) b := by
  induction row with
  | nil => rfl
  | cons a row ih =>
      have hread := Bus.read_of_ram (w := .byte) (hc a List.mem_cons_self)
      have hrest := ih fun a' ha' => hc a' (List.mem_cons_of_mem _ ha')
      rw [readEach, bind_run_ok (adaptExcept_eq_ok.mpr hread), bind_run_ok hrest,
        Memory.toUInt8_load_byte]
      rfl

lemma writeEach_of_ram (fault : Exception) (row : List (UInt64 × UInt8)) {b : Bus}
    (hc : ∀ p ∈ row, b.ram.contains p.1 1 = true) :
    writeEach fault row b = .ok () { b with ram := b.ram.setBytes row } := by
  induction row generalizing b with
  | nil => rfl
  | cons p row ih =>
      obtain ⟨a, v⟩ := p
      have hfirst := hc (a, v) List.mem_cons_self
      have hwrite : Bus.write a .byte v.toUInt64 b =
          .ok () { b with ram := b.ram.setByte (b.ram.offset a) v } := by
        simp only [Bus.write, Width.bytes, hfirst, if_true, Memory.store_byte]
      rw [writeEach, bind_run_ok (adaptExcept_eq_ok.mpr hwrite), Memory.setBytes_cons]
      exact ih (b := { b with ram := b.ram.setByte (b.ram.offset a) v })
        fun p hp => hc p (List.mem_cons_of_mem _ hp)

/-! ## Where bytes are translated to -/

variable {h : Hart} {access : Access} {b c : Bus} {va : UInt64} {w : Width}

/-- Without paging, addresses stand for themselves. -/
lemma reaches_iff_of_not_paged {pa : UInt64} (hoff : ¬h.Paged access) :
    h.Reaches access b va pa ↔ pa = va := by
  rw [Reaches, translate, physicalAddress_of_not_paged hoff]
  constructor
  · rintro ⟨b', hb⟩
    exact (EStateM.Result.ok.inj hb).1.symm
  · rintro rfl
    exact ⟨b, rfl⟩

/-- **Within a page, bytes in a row are translated to bytes in a row.** -/
lemma Reaches.add {pa : UInt64} {k : Nat} (hpaged : h.Paged access)
    (hw : h.WalksMemory access b va) (hpage : va.toNat % 4096 + k < 4096)
    (hr : h.Reaches access b va pa) :
    h.Reaches access b (va + UInt64.ofNat k) (pa + UInt64.ofNat k) := by
  obtain ⟨b', hb⟩ := hr
  obtain ⟨level, entry, pte, hend, hpermits, haligned, hpa⟩ :=
    Sv39.translates_of_translate hpaged (hw hpaged) hb
  have hva := va.toNat_lt
  have hofNat : (UInt64.ofNat k).toNat = k :=
    UInt64.toNat_ofNat_of_lt' (by rw [UInt64.size]; omega)
  have hvak : (va + UInt64.ofNat k).toNat = va.toNat + k := by
    rw [UInt64.toNat_add, hofNat, Nat.mod_eq_of_lt (by omega)]
  have hsame : (va.toNat + k) / 2 ^ 12 = va.toNat / 2 ^ 12 := by omega
  have hfar : pa.toNat % 4096 = va.toNat % 4096 := by
    rw [hpa, Sv39.physical]
    omega
  have hpak : (pa + UInt64.ofNat k).toNat = pa.toNat + k := by
    have := pa.toNat_lt
    rw [UInt64.toNat_add, hofNat, Nat.mod_eq_of_lt (by omega)]
  refine Sv39.translate_of_translates hpaged ?_
  rw [hvak, hpak, hpa, ← Sv39.physical_add hsame]
  exact ⟨level, entry, pte, hend.of_page_eq hsame, hpermits, haligned, rfl⟩

/-- The place within a page is not translated. -/
lemma Reaches.mod_page {pa : UInt64} (hw : h.WalksMemory access b va)
    (hr : h.Reaches access b va pa) : pa.toNat % 4096 = va.toNat % 4096 := by
  obtain ⟨b', hb⟩ := hr
  by_cases hpaged : h.Paged access
  · obtain ⟨level, entry, pte, _, _, _, hpa⟩ :=
      Sv39.translates_of_translate hpaged (hw hpaged) hb
    rw [hpa, Sv39.physical]
    omega
  · rw [(reaches_iff_of_not_paged hpaged).mp ⟨b', hb⟩]

/-- The bytes of an access are translated to these addresses, all of them in memory. -/
structure Lands (h : Hart) (access : Access) (b : Bus) (va : UInt64) (w : Width)
    (pa : Nat → UInt64) : Prop where
  reaches : ∀ k < w.bytes, h.Reaches access b (va + UInt64.ofNat k) (pa k)
  inRam : ∀ k < w.bytes, b.ram.contains (pa k) 1 = true

/-- The walks of all bytes of an access meet no device. -/
def BytesWalkMemory (h : Hart) (access : Access) (b : Bus) (va : UInt64) (w : Width) : Prop :=
  ∀ k < w.bytes, h.WalksMemory access b (va + UInt64.ofNat k)

namespace Lands

variable {pa : Nat → UInt64}

lemma first (hl : h.Lands access b va w pa) : h.Reaches access b va (pa 0) := by
  simpa using hl.reaches 0 w.bytes_pos

/-- The bytes of an access are translated to different bytes: even where they cross into another
    page, they differ in their place within a page. -/
lemma injective (hw : h.BytesWalkMemory access b va w) (hl : h.Lands access b va w pa) {i k : Nat}
    (hi : i < w.bytes) (hk : k < w.bytes) (heq : pa i = pa k) : i = k := by
  have hbytes := w.bytes_le
  have hplace (j : Nat) (hj : j < w.bytes) : (pa j).toNat % 4096 = (va.toNat + j) % 4096 := by
    rw [(hl.reaches j hj).mod_page (hw j hj), UInt64.toNat_add, UInt64.toNat_ofNat']
    omega
  have hsame := (hplace i hi).symm.trans (heq ▸ hplace k hk)
  omega

/-- The bytes of an aligned access are translated to bytes in a row. -/
lemma row (hw : h.BytesWalkMemory access b va w) (hl : h.Lands access b va w pa)
    (ha : w.aligned va = true) {k : Nat} (hk : k < w.bytes) : pa k = pa 0 + UInt64.ofNat k := by
  by_cases hpaged : h.Paged access
  · obtain ⟨_, hpage⟩ := Width.toNat_byte_of_aligned ha hk
    have hfirst : h.WalksMemory access b va := by simpa using hw 0 w.bytes_pos
    exact (hl.reaches k hk).unique (hl.first.add hpaged hfirst (by omega))
  · rw [(reaches_iff_of_not_paged hpaged).mp (hl.reaches k hk),
      (reaches_iff_of_not_paged hpaged).mp hl.first]

lemma map_row (hw : h.BytesWalkMemory access b va w) (hl : h.Lands access b va w pa)
    (ha : w.aligned va = true) :
    (List.range w.bytes).map pa = (List.range w.bytes).map fun k => pa 0 + UInt64.ofNat k :=
  List.map_congr_left fun _ hk => hl.row hw ha (List.mem_range.mp hk)

/-- So they are a block of memory. -/
lemma contains (hw : h.BytesWalkMemory access b va w) (hl : h.Lands access b va w pa)
    (ha : w.aligned va = true) : b.ram.contains (pa 0) w.bytes = true := by
  have hbytes := w.bytes_le
  refine Memory.contains_of_bytes w.bytes_pos (by omega) fun k hk => ?_
  rw [← hl.row hw ha hk]
  exact hl.inRam k hk

/-- Translating the bytes one after the other leads to where each of them is translated to. -/
lemma translateAll (hw : h.BytesWalkMemory access b va w) (hl : h.Lands access b va w pa) :
    ∃ c, h.translateAll access (byteAddresses va w) b = .ok ((List.range w.bytes).map pa) c :=
  translateAll_of_reaches (fun k hk => hw k (List.mem_range.mp hk))
    fun k hk => hl.reaches k (List.mem_range.mp hk)

end Lands

/-! ## Loads and stores -/

variable {pa : Nat → UInt64}

/-- **A load from memory** reads its bytes where they are translated to, once all is translated. -/
lemma load_of_lands (hw : h.BytesWalkMemory .load b va w) (hl : h.Lands .load b va w pa) :
    ∃ c, h.load va w b = .ok (UInt64.ofNat (LittleEndian.ofBytes
      ((List.range w.bytes).map fun k => c.ram.byte (c.ram.offset (pa k))))) c := by
  cases ha : w.aligned va with
  | true =>
      obtain ⟨c, ht⟩ := hl.first
      have hmap := (leaves_sameMap_translate h .load va).of_ok ht
      have hc : c.ram.contains (pa 0) w.bytes = true := by
        rw [hmap.ram_contains_eq]
        exact hl.contains hw ha
      refine ⟨c, ?_⟩
      rw [load_of_aligned ha, bind_run_ok ht, adaptExcept_eq_ok.mpr (Bus.read_of_ram hc),
        ← Memory.load_eq_ofBytes hc]
      congr 3
      exact List.map_congr_left fun k hk => by rw [hl.row hw ha (List.mem_range.mp hk)]
  | false =>
      obtain ⟨c, ht⟩ := hl.translateAll hw
      have hmap := (leaves_translateAll (leaves_sameMap_translate h .load) _).of_ok ht
      have hread := readEach_of_ram (.loadAccessFault va) ((List.range w.bytes).map pa) (b := c)
        (by
          intro a hin
          obtain ⟨k, hk, rfl⟩ := List.mem_map.mp hin
          rw [hmap.ram_contains_eq]
          exact hl.inRam k (List.mem_range.mp hk))
      refine ⟨c, ?_⟩
      rw [load, if_neg (by simp [ha]), bind_run_ok ht, bind_run_ok hread, List.map_map]
      rfl

/-- The bytes of a value, each with the address that it is stored at. -/
def storedBytes (w : Width) (pa : Nat → UInt64) (value : UInt64) : List (UInt64 × UInt8) :=
  (List.range w.bytes).map fun k => (pa k, UInt8.ofNat (value.toNat / 256 ^ k))

lemma storedBytes_eq_zip (w : Width) (pa : Nat → UInt64) (value : UInt64) :
    storedBytes w pa value =
      ((List.range w.bytes).map pa).zip (LittleEndian.toBytes w.bytes value.toNat) := by
  rw [LittleEndian.toBytes_eq_map, List.zip_map']
  rfl

/-- **A store to memory** replaces its bytes where they are translated to, once all are
    translated. -/
lemma store_of_lands (hw : h.BytesWalkMemory .store b va w) (hl : h.Lands .store b va w pa)
    (value : UInt64) :
    ∃ c, h.TranslatedOnly va w b c ∧ Bus.SameMap b c ∧
      h.store va w value b = .ok () { c with ram := c.ram.setBytes (storedBytes w pa value) } := by
  cases ha : w.aligned va with
  | true =>
      obtain ⟨c, ht⟩ := hl.first
      have hmap := (leaves_sameMap_translate h .store va).of_ok ht
      have hc : c.ram.contains (pa 0) w.bytes = true := by
        rw [hmap.ram_contains_eq]
        exact hl.contains hw ha
      -- the bytes of an aligned access are one block
      have hblock := Memory.setBytes_row hc (LittleEndian.toBytes w.bytes value.toNat) (i := 0)
        (by simp)
      rw [LittleEndian.length_toBytes, ← List.range_eq_range', ← hl.map_row hw ha,
        ← storedBytes_eq_zip, Nat.add_zero] at hblock
      refine ⟨c, TranslatedOnly.of_translate_ok _ ht, hmap, ?_⟩
      rw [store, if_pos ha, bind_run_ok ht, hblock]
      refine adaptExcept_eq_ok.mpr ?_
      simp only [Bus.write, hc, if_true]
      rfl
  | false =>
      obtain ⟨c, ht⟩ := hl.translateAll hw
      have hmap := (leaves_translateAll (leaves_sameMap_translate h .store) _).of_ok ht
      have hall := TranslatedOnly.all h va w b
      rw [ht, finalState_ok] at hall
      have hc (k : Nat) (hk : k ∈ List.range w.bytes) : c.ram.contains (pa k) 1 = true := by
        rw [hmap.ram_contains_eq]
        exact hl.inRam k (List.mem_range.mp hk)
      have hbacked : (((List.range w.bytes).map pa).all fun a => c.contains a 1) = true := by
        rw [List.all_map, List.all_eq_true]
        exact fun k hk => Bus.contains_of_ram (hc k hk)
      have hwrite := writeEach_of_ram (.storeAccessFault va) (storedBytes w pa value) (b := c) (by
        intro p hp
        obtain ⟨k, hk, rfl⟩ := List.mem_map.mp hp
        exact hc k hk)
      rw [storedBytes_eq_zip] at hwrite
      refine ⟨c, hall, hmap, ?_⟩
      rw [store, if_neg (by simp [ha]), bind_run_ok ht, storedBytes_eq_zip]
      refine (bind_run_ok (a := true) (t := c) ?_ _).trans ?_
      · rw [backed, hbacked]
      · exact hwrite

end Hart

end Rv64Board
