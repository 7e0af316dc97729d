import Rv64Board.Debugger.Session
import Rv64Board.Proofs.StraightAccess

/-!
# Memory as the debugger sees it

The debugger translates an address once and takes the eight bytes from there on.  The hart
translates every byte of a misaligned access.  So the two agree where bytes in a row are translated
to bytes in a row, and need not agree where an access crosses from one page into another.

* `Hart.ReadsUnmarked` — a load has not marked an entry that it then reads.
* `Hart.MarksApart` — two memories that differ by the marks of a store.
* `memory_access_agrees` — **where an access is straight, looking at memory and changing it do what
  the hart would do,** except that they leave no marks.
* `crossing_peek_differs` — an access that crosses into a page elsewhere, which the hart can make
  and the debugger cannot.
-/

namespace Rv64Board

/-- Equal values stand in equal bytes. -/
lemma Memory.load_eq_load_iff {m m' : Memory} (hbase : m'.base = m.base) (pa : UInt64) :
    m.load pa .double = m'.load pa .double ↔
      ∀ k < 8, m'.byte (m.offset pa + k) = m.byte (m.offset pa + k) := by
  have hoffset : m'.offset pa = m.offset pa := by rw [offset, offset, hbase]
  have hbytes (n : Memory) (i : Nat) := LittleEndian.toBytes_ofBytes (n.slice i 8)
  rw [← UInt64.toNat_inj, toNat_load, toNat_load, hoffset]
  constructor
  · intro h k hk
    have hslice := congrArg (LittleEndian.toBytes 8) h
    simp only [length_slice] at hbytes
    rw [Width.bytes, hbytes, hbytes] at hslice
    rw [← getD_slice m' hk, ← getD_slice m hk, hslice]
  · intro h
    refine congrArg LittleEndian.ofBytes (List.map_congr_left fun j hj => ?_)
    rw [List.mem_range'_1] at hj
    obtain ⟨k, rfl⟩ : ∃ k, j = m.offset pa + k := ⟨j - m.offset pa, by omega⟩
    exact (h k (by simpa [Width.bytes] using hj.2)).symm

namespace Hart

/-- The bytes that a load reads are what they were before the load. -/
def ReadsUnmarked (h : Hart) (b c : Bus) (va : UInt64) : Prop :=
  ∀ k < 8, ∀ pa, h.Reaches .load b (va + UInt64.ofNat k) pa →
    c.ram.byte (b.ram.offset pa) = b.ram.byte (b.ram.offset pa)

/-- Of two memories, the second has accessed and dirty bits more, in entries that the bytes of a
    store lead to. -/
structure MarksApart (h : Hart) (va : UInt64) (b : Bus) (m m' : Memory) : Prop where
  base : m'.base = m.base
  size : m'.size = m.size
  marks : ∀ j, m'.byte j ≠ m.byte j →
    h.MarkedBy .store (byteAddresses va .double) b j ∧ Gains (m.byte j) (m'.byte j)

variable {h : Hart} {b c : Bus} {va pa : UInt64}

lemma paged_store_iff : h.Paged .store ↔ h.Paged .load := by
  simp [Paged, effectiveLevel]

lemma RowWalksMemory.store (hw : h.RowWalksMemory .load b va) : h.RowWalksMemory .store b va :=
  fun k hk hpaged => hw k hk (paged_store_iff.mp hpaged)

lemma RowWalksMemory.first {access : Access} (hw : h.RowWalksMemory access b va) :
    h.WalksMemory access b va := by
  simpa using hw 0 (by decide)

/-! ## Accesses whose first byte is not translated -/

lemma translateAll_of_error {access : Access} {e : Exception}
    (ht : h.translate access va b = .error e c) (w : Width) :
    h.translateAll access (byteAddresses va w) b = .error e c := by
  obtain ⟨later, hrow⟩ := byteAddresses_eq_cons va w
  rw [hrow, translateAll, bind_run_error ht]

lemma load_of_error {e : Exception} (ht : h.translate .load va b = .error e c) (w : Width) :
    h.load va w b = .error e c := by
  rw [load]
  split
  · exact bind_run_error ht _
  · exact bind_run_error (translateAll_of_error ht w) _

lemma store_of_error {e : Exception} (ht : h.translate .store va b = .error e c) (w : Width)
    (value : UInt64) : h.store va w value b = .error e c := by
  rw [store]
  split
  · exact bind_run_error ht _
  · exact bind_run_error (translateAll_of_error ht w) _

/-- Past its translations, a store raises access faults only. -/
lemma storeAccessFault_of_error {w : Width} {value : UInt64} {e : Exception} {row : List UInt64}
    {t : Bus} (hrow : h.translateAll .store (byteAddresses va w) b = .ok row t)
    (he : h.store va w value b = .error e c) : e = .storeAccessFault va := by
  rw [store] at he
  split at he
  · obtain ⟨later, hcons⟩ := byteAddresses_eq_cons va w
    rw [hcons, translateAll] at hrow
    obtain ⟨pa, t', ht, _⟩ := bind_eq_ok hrow
    rw [bind_run_ok ht, adaptExcept_eq_error] at he
    obtain ⟨_, rfl, _⟩ := he
    rfl
  · rw [bind_run_ok hrow] at he
    rcases bind_eq_error he with hb | ⟨all, t', hb, he⟩
    · cases hb
    · split at he
      · next hall =>
        cases hb
        obtain ⟨t'', hwrite⟩ := writeEach_of_backed (.storeAccessFault va)
          (row.zip (LittleEndian.toBytes w.bytes value.toNat)) t fun p hp => by
            rw [List.all_eq_true] at hall
            exact hall p.1 (List.of_mem_zip hp).1
        rw [hwrite] at he
        cases he
      · cases he
        rfl

end Hart

namespace Debugger.Session

open Hart

variable {s : Session} {h : Hart} {b : Bus} {va : UInt64}

lemma locate_of_inspect (hh : s.machine.board.hart = h) (hb : s.machine.board.bus = b)
    {access : Access} (hw : h.WalksMemory access b va) :
    (∃ pa, h.Reaches access b va pa ∧ s.locate access va = (.ok pa, s.setBus b)) ∨
    (∃ e, h.translate access va b = .error e b ∧ s.locate access va = (.error e, s.setBus b)) := by
  subst hh hb
  rcases inspect_cases hw with ⟨pa, c, ht, hi⟩ | ⟨e, ht, hi⟩
  · exact Or.inl ⟨pa, ⟨c, ht⟩, by rw [locate, hi]⟩
  · exact Or.inr ⟨e, ht, by rw [locate, hi]⟩

/-! ## Looking at memory -/

lemma peek_cases (hh : s.machine.board.hart = h) (hb : s.machine.board.bus = b)
    (hw : h.WalksMemory .load b va) :
    (∃ pa, h.Reaches .load b va pa ∧
      ∀ v, (s.peek va).1 = .ok v ↔ b.ram.contains pa 8 = true ∧ v = b.ram.load pa .double) ∨
    (∃ e, h.translate .load va b = .error e b ∧ (s.peek va).1 = .error e.message) := by
  rcases locate_of_inspect hh hb hw with ⟨pa, hr, hl⟩ | ⟨e, ht, hl⟩
  · refine Or.inl ⟨pa, hr, fun v => ?_⟩
    have hread : (s.peek va).1 = (b.ram.read pa .double).mapError AccessFault.message := by
      rw [peek, hl]
      rfl
    rw [hread, Memory.read]
    split
    · next hin =>
      simp only [Except.mapError, Except.ok.injEq]
      exact ⟨fun hv => ⟨hin, hv.symm⟩, fun hv => hv.2.symm⟩
    · next hout =>
      simp only [Except.mapError, reduceCtorEq, false_iff]
      exact fun hv => hout hv.1
  · exact Or.inr ⟨e, ht, by rw [peek, hl]⟩

/-- The debugger can look at eight bytes exactly if the hart could load them from memory. -/
lemma peek_iff_load (hh : s.machine.board.hart = h) (hb : s.machine.board.bus = b)
    (hm : b.ram.Fits) (hw : h.RowWalksMemory .load b va) (hs : h.Straight .load b va) :
    (∃ v, (s.peek va).1 = .ok v) ↔ (∃ v c, h.load va .double b = .ok v c) ∧ h.InRam .load b va := by
  rcases peek_cases hh hb hw.first with ⟨pa, hr, hpeek⟩ | ⟨e, ht, hpeek⟩
  · simp only [hpeek]
    constructor
    · rintro ⟨v, hc, rfl⟩
      obtain ⟨c, hload⟩ := load_of_straight hs hw hr hm hc
      exact ⟨⟨_, c, hload⟩, hs.inRam hr hm hc⟩
    · rintro ⟨_, hin⟩
      exact ⟨_, hs.ram_contains hr hin, rfl⟩
  · rw [hpeek, load_of_error ht]
    simp

/-- What it sees is what the hart would load, unless the hart marks what it is about to read. -/
lemma peek_eq_load_iff (hh : s.machine.board.hart = h) (hb : s.machine.board.bus = b)
    (hm : b.ram.Fits) (hw : h.RowWalksMemory .load b va) (hs : h.Straight .load b va)
    {v v' : UInt64} {c : Bus} (hv : (s.peek va).1 = .ok v)
    (hload : h.load va .double b = .ok v' c) : v = v' ↔ h.ReadsUnmarked b c va := by
  rcases peek_cases hh hb hw.first with ⟨pa, hr, hpeek⟩ | ⟨e, ht, hpeek⟩
  · obtain ⟨hc, rfl⟩ := (hpeek v).mp hv
    obtain ⟨c', hload'⟩ := load_of_straight hs hw hr hm hc
    rw [hload] at hload'
    obtain ⟨rfl, rfl⟩ := EStateM.Result.ok.inj hload'
    rw [Memory.load_eq_load_iff ((leaves_ramMarked_load h va .double).of_ok hload).base]
    constructor
    · intro hbytes k hk pa' hr'
      rw [hr'.unique (hs pa hr k hk), Memory.offset_add hc hk]
      exact hbytes k hk
    · intro hbytes k hk
      rw [← Memory.offset_add hc hk]
      exact hbytes k hk _ (hs pa hr k hk)
  · rw [hpeek] at hv
    cases hv

/-! ## Changing memory -/

lemma poke_cases (hh : s.machine.board.hart = h) (hb : s.machine.board.bus = b)
    (hw : h.WalksMemory .store b va) (value : UInt64) :
    (∃ pa, h.Reaches .store b va pa ∧ (b.ram.contains pa 8 = true →
      ∃ s', s.poke va value = (none, s') ∧
        s'.machine.board.bus.ram = b.ram.store pa .double value)) ∨
    (∃ e s', h.translate .store va b = .error e b ∧ s.poke va value = (some e.message, s')) := by
  rcases locate_of_inspect hh hb hw with ⟨pa, hr, hl⟩ | ⟨e, ht, hl⟩
  · refine Or.inl ⟨pa, hr, fun hc => ?_⟩
    have hwrite : (s.setBus b).machine.board.bus.ram.write pa .double value =
        .ok (b.ram.store pa .double value) := if_pos hc
    rw [poke, hl]
    simp only [hwrite]
    exact ⟨_, rfl, rfl⟩
  · exact Or.inr ⟨e, s.setBus b, ht, by rw [poke, hl]⟩

/-- Changing eight bytes is what the hart's store would be, without marks. -/
lemma poke_of_store (hh : s.machine.board.hart = h) (hb : s.machine.board.bus = b)
    (hm : b.ram.Fits) (hw : h.RowWalksMemory .store b va) (hs : h.Straight .store b va)
    {value : UInt64} {c : Bus} (hstore : h.store va .double value b = .ok () c)
    (hin : h.InRam .store b va) :
    ∃ s', s.poke va value = (none, s') ∧ h.MarksApart va b s'.machine.board.bus.ram c.ram := by
  rcases poke_cases hh hb hw.first value with ⟨pa, hr, hpoke⟩ | ⟨e, _, ht, _⟩
  · have hc := hs.ram_contains hr hin
    obtain ⟨s', hs', hram⟩ := hpoke hc
    obtain ⟨t, htr, hct, hstore'⟩ := store_of_straight hs hw hr hm hc value
    rw [hstore] at hstore'
    obtain ⟨_, rfl⟩ := EStateM.Result.ok.inj hstore'
    refine ⟨s', hs', ?_⟩
    rw [hram]
    refine ⟨?_, ?_, fun j hj => ?_⟩
    · rw [Memory.store, Memory.store, Memory.base_patch, Memory.base_patch]
      exact htr.marked.base
    · rw [Memory.store, Memory.store, Memory.size_patch, Memory.size_patch]
      exact htr.marked.size
    · -- the stored bytes are the same, and the others are as they were translated
      have hoffset : t.ram.offset pa = b.ram.offset pa := by
        rw [Memory.offset, Memory.offset, htr.marked.base]
      simp only [Memory.byte_store (w := .double) hct, Memory.byte_store (w := .double) hc,
        hoffset] at hj ⊢
      split
      · next hstored =>
        rw [if_pos hstored, if_pos hstored] at hj
        exact absurd rfl hj
      · next hother =>
        rw [if_neg hother, if_neg hother] at hj
        exact ⟨htr.changed hj, htr.marked.gains j⟩
  · rw [store_of_error ht] at hstore
    cases hstore

/-- A store that raises a page fault cannot be made by the debugger either. -/
lemma poke_of_pageFault (hh : s.machine.board.hart = h) (hb : s.machine.board.bus = b)
    (hw : h.RowWalksMemory .store b va) (hs : h.Straight .store b va) {value x : UInt64} {c : Bus}
    (hstore : h.store va .double value b = .error (.storePageFault x) c) :
    ∃ s', s.poke va value = (some (Exception.storePageFault x).message, s') := by
  rcases poke_cases hh hb hw.first value with ⟨pa, hr, _⟩ | ⟨e, s', ht, hpoke⟩
  · obtain ⟨t, hrow⟩ := hs.translateAll hw hr
    cases storeAccessFault_of_error hrow hstore
  · rw [store_of_error ht] at hstore
    cases hstore
    exact ⟨s', hpoke⟩

/-- **The debugger accesses memory as the hart does, where bytes stay in a row.**  Within a page,
    and without paging, they always do.  Then the debugger can look at eight bytes exactly if the
    hart can load them from memory, and sees what the hart would load, unless that is an entry that
    the load itself marks.  It can change eight bytes if the hart can store to them in memory, with
    the same effect but for marks, and it fails with the page fault that the hart would raise. -/
theorem memory_access_agrees (hh : s.machine.board.hart = h) (hb : s.machine.board.bus = b)
    (hm : b.ram.Fits) (hw : h.RowWalksMemory .load b va) :
    (va.toNat % 4096 ≤ 4088 ∨ ¬h.Paged .load → h.Straight .load b va ∧ h.Straight .store b va) ∧
    (h.Straight .load b va →
      ((∃ v, (s.peek va).1 = .ok v) ↔
        (∃ v c, h.load va .double b = .ok v c) ∧ h.InRam .load b va) ∧
      ∀ v v' c, (s.peek va).1 = .ok v → h.load va .double b = .ok v' c →
        (v = v' ↔ h.ReadsUnmarked b c va)) ∧
    (h.Straight .store b va → ∀ value,
      (∀ c, h.store va .double value b = .ok () c → h.InRam .store b va →
        ∃ s', s.poke va value = (none, s') ∧
          h.MarksApart va b s'.machine.board.bus.ram c.ram) ∧
      ∀ x c, h.store va .double value b = .error (.storePageFault x) c →
        ∃ s', s.poke va value = (some (Exception.storePageFault x).message, s')) := by
  refine ⟨fun hrow => ?_, fun hs => ⟨peek_iff_load hh hb hm hw hs, ?_⟩, fun hs value => ⟨?_, ?_⟩⟩
  · by_cases hpaged : h.Paged .load
    · have hpage := hrow.resolve_right fun hoff => hoff hpaged
      exact ⟨straight_of_page hpaged hw.first hpage,
        straight_of_page (paged_store_iff.mpr hpaged) hw.store.first hpage⟩
    · exact ⟨straight_of_not_paged hpaged b va,
        straight_of_not_paged (fun hp => hpaged (paged_store_iff.mp hp)) b va⟩
  · intro v v' c hv hload
    exact peek_eq_load_iff hh hb hm hw hs hv hload
  · intro c hstore hin
    exact poke_of_store hh hb hm hw.store hs hstore hin
  · intro x c hstore
    exact poke_of_pageFault hh hb hw.store hs hstore

/-- A table that serves all three levels, in the first of two pages.  Its first entry leads back to
    the table, its second to the other page, and its third to its own page. -/
def foldedTable : Memory :=
  (((Memory.zeroed 0x80000000 0x2000).store 0x80000000 .double 0x20000001).store
    0x80000008 .double 0x2000040F).store 0x80000010 .double 0x2000000F

/-- A session with a hart at supervisor level that uses this table. -/
def foldedSession : Session :=
  start ⟨⟨Sv39.pagedHart, Bus.ofMemory foldedTable, 0, Lines.idle⟩, none, false⟩

/-- A table in the first page of memory that serves all three levels: its first entry leads back to
    the table, and the two after it lead to pages. -/
structure Folded (m : Memory) : Prop where
  base : m.base.toNat = 0x80000000
  size : 0x1000 ≤ m.size.toNat
  back : m.doubleword? 0x80000000 = some 0x20000001
  second : ∃ n, m.doubleword? 0x80000008 = some n ∧ n.testBit 1 = true
  third : ∃ n, m.doubleword? 0x80000010 = some n ∧ n.testBit 1 = true

/-- Walks that use the three entries stay in the table. -/
lemma Folded.meets {m : Memory} (hf : Folded m) {va levels page level entry : Nat}
    (hm : Sv39.Meets m va levels page level entry) (hpage : page = 0x80000)
    (hlevels : levels ≤ 3) (hva : ∀ l < 3, Sv39.vpn va l ≤ 2) :
    entry = 0x80000000 + Sv39.vpn va level * 8 := by
  induction hm with
  | here levels page =>
      subst hpage
      rfl
  | @through levels page level entry pte hpte hp _ ih =>
      subst hpage
      have hindex := hva levels (by omega)
      -- the entry on the way is one of three, of which only the first leads on
      obtain h | h | h : Sv39.vpn va levels = 0 ∨ Sv39.vpn va levels = 1 ∨
          Sv39.vpn va levels = 2 := by omega
      · rw [h, show 0x80000 * 2 ^ 12 + 0 * 8 = 0x80000000 from rfl, hf.back] at hpte
        obtain rfl := Option.some.inj hpte
        exact ih rfl (by omega)
      · obtain ⟨n, hn, hreadable⟩ := hf.second
        rw [h, show 0x80000 * 2 ^ 12 + 1 * 8 = 0x80000008 from rfl, hn] at hpte
        obtain rfl := Option.some.inj hpte
        exact absurd hp.notReadable (by simp [hreadable])
      · obtain ⟨n, hn, hreadable⟩ := hf.third
        rw [h, show 0x80000 * 2 ^ 12 + 2 * 8 = 0x80000010 from rfl, hn] at hpte
        obtain rfl := Option.some.inj hpte
        exact absurd hp.notReadable (by simp [hreadable])

lemma Folded.walksMemory {m : Memory} (hf : Folded m) {access : Access} {va : UInt64}
    (hva : ∀ l < 3, Sv39.vpn va.toNat l ≤ 2) :
    Sv39.pagedHart.WalksMemory access (Bus.ofMemory m) va := by
  intro _ _ level entry hm
  have hentry := hf.meets hm (by decide) (Nat.le_refl 3) hva
  have hindex := hva level hm.level_lt
  have hbase := hf.base
  have hsize := hf.size
  left
  rw [Sv39.isSome_doubleword?]
  exact decide_eq_true (by simp only [Bus.ofMemory]; omega)

lemma folded_foldedTable : Folded foldedTable where
  base := by decide +kernel
  size := by decide +kernel
  back := by decide +kernel
  second := ⟨0x2000040F, by decide +kernel, by decide⟩
  third := ⟨0x2000000F, by decide +kernel, by decide⟩

lemma walksMemory_folded {access : Access} {va : UInt64}
    (hva : ∀ l < 3, Sv39.vpn va.toNat l ≤ 2) :
    Sv39.pagedHart.WalksMemory access (Bus.ofMemory foldedTable) va :=
  folded_foldedTable.walksMemory hva

/-- A run answers. -/
def answers {ε σ α : Type} : EStateM.Result ε σ α → Bool
  | .ok _ _ => true
  | .error _ _ => false

lemma ok_of_answers {ε σ α : Type} {r : EStateM.Result ε σ α} (h : answers r = true) :
    ∃ a t, r = .ok a t := by
  cases r with
  | ok a t => exact ⟨a, t, rfl⟩
  | error e t => cases h

/-- Eight bytes that are translated to memory, by evaluation. -/
lemma inRam_of_all {h : Hart} {access : Access} {b : Bus} {va : UInt64}
    (hall : ((List.range 8).all fun k =>
      match h.translate access (va + UInt64.ofNat k) b with
      | .ok pa _ => b.ram.contains pa 1
      | .error _ _ => false) = true) : h.InRam access b va := by
  intro k hk
  have hone := List.all_eq_true.mp hall k (List.mem_range.mpr hk)
  split at hone
  · next pa c ht => exact ⟨pa, ⟨c, ht⟩, hone⟩
  · cases hone

/-- Eight bytes of which the last four are in the page of the table.  The hart loads them from both
    pages; the debugger looks for them past the end of memory. -/
theorem crossing_peek_differs :
    Sv39.pagedHart.RowWalksMemory .load (Bus.ofMemory foldedTable) 0x1FFC ∧
    Sv39.pagedHart.InRam .load (Bus.ofMemory foldedTable) 0x1FFC ∧
    (∃ c, Sv39.pagedHart.load 0x1FFC .double (Bus.ofMemory foldedTable) =
      .ok 0x2000000100000000 c) ∧
    ∀ v, (foldedSession.peek 0x1FFC).1 ≠ .ok v := by
  refine ⟨?_, inRam_of_all (by decide +kernel), ?_, ?_⟩
  · have hall : ∀ k < 8, ∀ l < 3, Sv39.vpn ((0x1FFC : UInt64) + UInt64.ofNat k).toNat l ≤ 2 := by
      decide
    exact fun k hk => walksMemory_folded (hall k hk)
  · have hvalue : (match Sv39.pagedHart.load 0x1FFC .double (Bus.ofMemory foldedTable) with
        | .ok v _ => v == 0x2000000100000000
        | .error _ _ => false) = true := by decide +kernel
    split at hvalue
    · next v c hload => exact ⟨c, by rw [hload, beq_iff_eq.mp hvalue]⟩
    · cases hvalue
  · have hfails : (foldedSession.peek 0x1FFC).1.isOk = false := by decide +kernel
    intro v hv
    rw [hv] at hfails
    cases hfails

/-- A misaligned access within the other page. -/
theorem misaligned_access_agrees :
    (∃ v, (foldedSession.peek 0x1003).1 = .ok v) ∧
    ∃ c s', Sv39.pagedHart.store 0x1003 .double 0xABCD (Bus.ofMemory foldedTable) = .ok () c ∧
      foldedSession.poke 0x1003 0xABCD = (none, s') ∧
      Sv39.pagedHart.MarksApart 0x1003 (Bus.ofMemory foldedTable)
        s'.machine.board.bus.ram c.ram := by
  have hva : ∀ k < 8, ∀ l < 3, Sv39.vpn ((0x1003 : UInt64) + UInt64.ofNat k).toNat l ≤ 2 := by
    decide
  have hfits : (Bus.ofMemory foldedTable).ram.Fits := by
    unfold Memory.Fits
    decide +kernel
  obtain ⟨hstraight, hpeek, hpoke⟩ := memory_access_agrees (s := foldedSession)
    (h := Sv39.pagedHart) (b := Bus.ofMemory foldedTable) rfl rfl hfits
    fun k hk => walksMemory_folded (hva k hk)
  obtain ⟨hsload, hsstore⟩ := hstraight (Or.inl (by decide))
  constructor
  · obtain ⟨v, c, hload⟩ := ok_of_answers
      (r := Sv39.pagedHart.load 0x1003 .double (Bus.ofMemory foldedTable)) (by decide +kernel)
    exact (hpeek hsload).1.mpr ⟨⟨v, c, hload⟩, inRam_of_all (by decide +kernel)⟩
  · obtain ⟨_, c, hstore⟩ := ok_of_answers
      (r := Sv39.pagedHart.store 0x1003 .double 0xABCD (Bus.ofMemory foldedTable))
      (by decide +kernel)
    obtain ⟨s', hs', hmarks⟩ :=
      (hpoke hsstore 0xABCD).1 c hstore (inRam_of_all (by decide +kernel))
    exact ⟨c, s', hstore, hs', hmarks⟩

end Debugger.Session

end Rv64Board
