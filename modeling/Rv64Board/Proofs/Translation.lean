import Rv64Board.Proofs.Sv39

/-!
# Translation is what Sv39 says it is

The hart walks the page tables as a loop over words.  This file shows that where the walk ends is
where the declarative walk ends.

* `locate_of_meets` — the walk goes on in the same way from every entry it meets, by induction on
  `Meets`.
* `locate_of_endsAt`, `locate_of_strays` — so it comes to the leaf, or faults at the entry that is
  not there.
* `locate_cases` — and if it does neither, it raises a page fault, by induction on the levels.
* `translate_eq_sv39` — **translation equals its declarative definition.**
-/

namespace Rv64Board

namespace Sv39

/-- Every entry that the walk of an address comes to is in memory, or is at an address where there
    is nothing at all. -/
def InMemoryOrUnmapped (h : Hart) (b : Bus) (va : Nat) : Prop :=
  Canonical va → ∀ level entry, Meets b.ram va 3 (root h) level entry →
    (b.ram.doubleword? entry).isSome = true ∨ b.contains (UInt64.ofNat entry) 8 = false

variable {b : Bus} {access : Access} {address page : UInt64} {depth : Nat}

/-! ## One level -/

/-- One level of the walk, at an entry that is in memory. -/
lemma locate_of_doubleword (access : Access) (hdepth : depth < 3) (hpage : page.toNat < 2 ^ 44)
    {n : Nat}
    (hn : b.ram.doubleword? (page.toNat * 2 ^ 12 + vpn address.toNat depth * 8) = some n) :
    ∃ p : Pte, p.bits.toNat = n ∧ Paging.locate access address (depth + 1) (page * 0x1000) b =
      if p.malformed then .error (access.pageFault address) b
      else if !p.isLeaf then Paging.locate access address depth (p.page * 0x1000) b
      else .ok ⟨depth, page * 0x1000 + Paging.index address depth * 8, p⟩ b := by
  rw [← toNat_entry page address hdepth hpage, doubleword?_eq_some_iff] at hn
  obtain ⟨hc, hload⟩ := hn
  refine ⟨⟨b.ram.load (page * 0x1000 + Paging.index address depth * 8) .double⟩, hload, ?_⟩
  rw [Paging.locate, bind_run_ok (adaptExcept_eq_ok.mpr (Bus.read_of_ram hc))]
  split
  · rfl
  · split <;> rfl

/-- One level of the walk, at an entry that is not there. -/
lemma locate_of_unmapped (access : Access)
    (hc : b.contains (page * 0x1000 + Paging.index address depth * 8) 8 = false) :
    Paging.locate access address (depth + 1) (page * 0x1000) b =
      .error (access.accessFault address) b := by
  rcases Bus.read_cases (page * 0x1000 + Paging.index address depth * 8) .double b with
    ⟨hram, _⟩ | ⟨_, hdevice, _⟩ | ⟨_, hread⟩
  · exact absurd (Bus.contains_of_ram hram) (Bool.eq_false_iff.mp hc)
  · exact absurd hdevice (Bool.eq_false_iff.mp hc)
  · exact bind_run_error (adaptExcept_eq_error.mpr ⟨_, rfl, hread⟩) _

/-! ## All levels -/

/-- **The walk goes on in the same way from every entry it meets.** -/
lemma locate_of_meets (access : Access) {levels root level entry : Nat}
    (hm : Meets b.ram address.toNat levels root level entry) (hlevels : levels ≤ 3)
    (hroot : page.toNat = root) (hlt : root < 2 ^ 44) :
    ∃ last : UInt64, last.toNat < 2 ^ 44 ∧
      last.toNat * 2 ^ 12 + vpn address.toNat level * 8 = entry ∧
      Paging.locate access address levels (page * 0x1000) b =
        Paging.locate access address (level + 1) (last * 0x1000) b := by
  induction hm generalizing page with
  | here levels root =>
      subst hroot
      exact ⟨page, hlt, rfl, rfl⟩
  | @through levels root level entry pte hpte hpointer _ ih =>
      subst hroot
      obtain ⟨p, rfl, hstep⟩ := locate_of_doubleword access hlevels hlt hpte
      obtain ⟨hwell, hinner⟩ := (isPointer_iff p).mp hpointer
      obtain ⟨last, hlast, hentry, hrest⟩ := ih (by omega) (toNat_page p) (ppn_lt _)
      refine ⟨last, hlast, hentry, ?_⟩
      rw [hstep, hwell, hinner]
      exact hrest

lemma locate_of_endsAt (access : Access) {h : Hart} {level entry pte : Nat}
    (he : EndsAt h b.ram address.toNat level entry pte) :
    ∃ leaf, Paging.locate access address 3 (h.csrs.rootPage * 0x1000) b = .ok leaf b ∧
      leaf.depth = level ∧ leaf.pte.bits.toNat = pte := by
  obtain ⟨_, hm, hpte, hleaf⟩ := he
  obtain ⟨last, hlast, rfl, hwalk⟩ :=
    locate_of_meets access hm (Nat.le_refl 3) (toNat_rootPage h) (root_lt h)
  obtain ⟨p, rfl, hstep⟩ := locate_of_doubleword access hm.level_lt hlast hpte
  obtain ⟨hwell, hends⟩ := (isLeaf_iff p).mp hleaf
  rw [hwell, hends] at hstep
  exact ⟨_, hwalk.trans hstep, rfl, rfl⟩

lemma locate_of_strays (access : Access) {h : Hart} (hs : Strays h b address.toNat) :
    Paging.locate access address 3 (h.csrs.rootPage * 0x1000) b =
      .error (access.accessFault address) b := by
  obtain ⟨_, level, entry, hm, hc⟩ := hs
  obtain ⟨last, hlast, rfl, hwalk⟩ :=
    locate_of_meets access hm (Nat.le_refl 3) (toNat_rootPage h) (root_lt h)
  rw [← toNat_entry last address hm.level_lt hlast, UInt64.ofNat_toNat] at hc
  rw [hwalk, locate_of_unmapped access hc]

/-- **The walk comes to a leaf, strays, or raises a page fault.** -/
lemma locate_cases (access : Access) {levels root : Nat} (hlevels : levels ≤ 3)
    (hroot : page.toNat = root) (hlt : root < 2 ^ 44)
    (hmapped : ∀ level entry, Meets b.ram address.toNat levels root level entry →
      (b.ram.doubleword? entry).isSome = true ∨ b.contains (UInt64.ofNat entry) 8 = false) :
    (∃ leaf, Paging.locate access address levels (page * 0x1000) b = .ok leaf b ∧
      Meets b.ram address.toNat levels root leaf.depth leaf.entry.toNat ∧
      b.ram.doubleword? leaf.entry.toNat = some leaf.pte.bits.toNat ∧
      IsLeaf leaf.pte.bits.toNat) ∨
    (∃ level entry, Meets b.ram address.toNat levels root level entry ∧
      b.contains (UInt64.ofNat entry) 8 = false) ∨
    Paging.locate access address levels (page * 0x1000) b =
      .error (access.pageFault address) b := by
  -- on the number of levels that are left, as the walk itself recurses, from any table
  induction levels generalizing page root with
  | zero => exact Or.inr (Or.inr rfl)
  | succ levels ih =>
      subst hroot
      rcases hmapped levels _ (Meets.here levels page.toNat) with hsome | hunmapped
      · obtain ⟨n, hn⟩ := Option.isSome_iff_exists.mp hsome
        obtain ⟨p, rfl, hstep⟩ := locate_of_doubleword access hlevels hlt hn
        rw [hstep]
        cases hwell : p.malformed with
        | true => exact Or.inr (Or.inr rfl)
        | false =>
            cases hends : p.isLeaf with
            | true =>
                have hhere := @Meets.here b.ram address.toNat levels page.toNat
                rw [← toNat_entry page address hlevels hlt] at hn hhere
                exact Or.inl ⟨_, rfl, hhere, hn, (isLeaf_iff p).mpr ⟨hwell, hends⟩⟩
            | false =>
                -- what the rest of the walk meets, this walk meets too
                have hdown {level entry : Nat} :
                    Meets b.ram address.toNat levels (ppn p.bits.toNat) level entry →
                      Meets b.ram address.toNat (levels + 1) page.toNat level entry :=
                  Meets.through hn ((isPointer_iff p).mpr ⟨hwell, hends⟩)
                rcases ih (by omega) (toNat_page p) (ppn_lt _)
                    fun level entry hm => hmapped level entry (hdown hm) with
                  ⟨leaf, hl, hm, hrest⟩ | ⟨level, entry, hm, hrest⟩ | hfault
                · exact Or.inl ⟨leaf, hl, hdown hm, hrest⟩
                · exact Or.inr (Or.inl ⟨level, entry, hdown hm, hrest⟩)
                · exact Or.inr (Or.inr hfault)
      · exact Or.inr (Or.inl ⟨levels, _, Meets.here levels page.toNat, hunmapped⟩)

/-! ## The verdict on a leaf -/

lemma refuses_eq_false_iff {leaf : Paging.Leaf} (hdepth : leaf.depth < 3) (status : Mstatus)
    (access : Access) (level : Privilege) :
    leaf.refuses status access level = false ↔
      Permits status.bits.toNat leaf.pte.bits.toNat access level ∧
        ppn leaf.pte.bits.toNat % 2 ^ (9 * leaf.depth) = 0 := by
  rw [Paging.Leaf.refuses, Bool.or_eq_false_iff, Bool.not_eq_false', permits_iff,
    misaligned_eq_false_iff _ hdepth]

/-! ## Translation -/

variable {h : Hart}

/-- A translation whose walk ends at a leaf succeeds if the leaf permits the access and is aligned
    to its size, and raises a page fault otherwise. -/
lemma translate_of_endsAt (hpaged : h.Paged access) {level entry pte : Nat}
    (he : EndsAt h b.ram address.toNat level entry pte) :
    ((Permits h.csrs.mstatus.bits.toNat pte access (h.effectiveLevel access) ∧
        ppn pte % 2 ^ (9 * level) = 0) ∧
      ∃ pa b', h.translate access address b = .ok pa b' ∧
        pa.toNat = physical pte address.toNat level) ∨
    (¬(Permits h.csrs.mstatus.bits.toNat pte access (h.effectiveLevel access) ∧
        ppn pte % 2 ^ (9 * level) = 0) ∧
      h.translate access address b = .error (access.pageFault address) b) := by
  obtain ⟨leaf, hwalk, rfl, rfl⟩ := locate_of_endsAt access he
  obtain ⟨hdepth, hsound⟩ := Paging.locate_ok hwalk
  rw [← refuses_eq_false_iff hdepth, Hart.translate, Hart.physicalAddress_of_paged hpaged,
    if_pos ((canonical_iff address).mpr he.1), bind_run_ok hwalk]
  rcases Paging.settle_cases h.csrs.mstatus (h.effectiveLevel access) true access address
      hsound with
    ⟨hrefuses, hs⟩ | ⟨hrefuses, b', hs, _⟩
  · exact Or.inr ⟨by simp [hrefuses], hs⟩
  · exact Or.inl ⟨hrefuses, _, b', hs, toNat_physical leaf.pte hdepth address⟩

lemma translate_of_strays (hpaged : h.Paged access) (hs : Strays h b address.toNat) :
    h.translate access address b = .error (access.accessFault address) b := by
  rw [Hart.translate, Hart.physicalAddress_of_paged hpaged,
    if_pos ((canonical_iff address).mpr hs.1)]
  exact bind_run_error (locate_of_strays access hs) _

lemma translate_cases (hpaged : h.Paged access)
    (htables : InMemoryOrUnmapped h b address.toNat) :
    (∃ level entry pte, EndsAt h b.ram address.toNat level entry pte) ∨
    Strays h b address.toNat ∨
    h.translate access address b = .error (access.pageFault address) b := by
  rw [Hart.translate, Hart.physicalAddress_of_paged hpaged]
  by_cases hcanon : Canonical address.toNat
  · rw [if_pos ((canonical_iff address).mpr hcanon)]
    rcases locate_cases access (Nat.le_refl 3) (toNat_rootPage h) (root_lt h) (htables hcanon) with
      ⟨leaf, _, hm, hpte, hleaf⟩ | ⟨level, entry, hm, hc⟩ | hfault
    · exact Or.inl ⟨_, _, _, hcanon, hm, hpte, hleaf⟩
    · exact Or.inr (Or.inl ⟨hcanon, level, entry, hm, hc⟩)
    · exact Or.inr (Or.inr (bind_run_error hfault _))
  · rw [if_neg fun hc => hcanon ((canonical_iff address).mp hc)]
    exact Or.inr (Or.inr rfl)

/-- What a successful translation gives is what Sv39 says. -/
lemma translates_of_translate (hpaged : h.Paged access)
    (htables : InMemoryOrUnmapped h b address.toNat) {pa : UInt64} {b' : Bus}
    (ht : h.translate access address b = .ok pa b') :
    Translates h b.ram access address.toNat pa.toNat := by
  rcases translate_cases hpaged htables with ⟨level, entry, pte, he⟩ | hs | hfault
  · rcases translate_of_endsAt hpaged he with ⟨⟨hpermits, haligned⟩, pa', c, ht', hpa⟩ | ⟨_, ht'⟩
    · rw [ht] at ht'
      obtain ⟨rfl, _⟩ := EStateM.Result.ok.inj ht'
      exact ⟨level, entry, pte, he, hpermits, haligned, hpa⟩
    · rw [ht] at ht'
      cases ht'
  · rw [translate_of_strays hpaged hs] at ht
    cases ht
  · rw [hfault] at ht
    cases ht

/-- A leaf that the hart finds is where the walk ends. -/
lemma endsAt_of_finds (htables : InMemoryOrUnmapped h b address.toNat) {leaf : Paging.Leaf}
    {c : Bus} (hf : h.Finds access address b leaf c) :
    EndsAt h b.ram address.toNat leaf.depth leaf.entry.toNat leaf.pte.bits.toNat := by
  obtain ⟨_, hcanon, hwalk⟩ := hf
  rw [canonical_iff] at hcanon
  rcases locate_cases access (Nat.le_refl 3) (toNat_rootPage h) (root_lt h) (htables hcanon) with
    ⟨leaf', hwalk', hm, hpte, hleaf⟩ | ⟨level, entry, hm, hc⟩ | hfault
  · rw [hwalk] at hwalk'
    obtain ⟨rfl, _⟩ := EStateM.Result.ok.inj hwalk'
    exact ⟨hcanon, hm, hpte, hleaf⟩
  · rw [locate_of_strays access ⟨hcanon, level, entry, hm, hc⟩] at hwalk
    cases hwalk
  · rw [hwalk] at hfault
    cases hfault

/-- **Translation equals its declarative definition.**  With paging on, and page tables that are in
    memory as far as they exist, an address is translated to what Sv39 translates it to, and to
    nothing else.  If the walk comes to an entry that is not there, the access fault of this kind of
    access is raised at this address, and in every other case the page fault is.  A fault leaves the
    bus as it was. -/
theorem translate_eq_sv39 (hpaged : h.Paged access) (address : UInt64)
    (htables : InMemoryOrUnmapped h b address.toNat) :
    (∀ pa : UInt64, (∃ b', h.translate access address b = .ok pa b') ↔
      Translates h b.ram access address.toNat pa.toNat) ∧
    (Strays h b address.toNat →
      h.translate access address b = .error (access.accessFault address) b) ∧
    (¬Strays h b address.toNat → (∀ pa, ¬Translates h b.ram access address.toNat pa) →
      h.translate access address b = .error (access.pageFault address) b) := by
  refine ⟨fun pa => ⟨?_, ?_⟩, translate_of_strays hpaged, fun hstrays hnone => ?_⟩
  · rintro ⟨b', ht⟩
    exact translates_of_translate hpaged htables ht
  · rintro ⟨level, entry, pte, he, hpermits, haligned, hpa⟩
    rcases translate_of_endsAt hpaged he with ⟨_, pa', b', ht, hpa'⟩ | ⟨hrefuses, _⟩
    · obtain rfl : pa = pa' := UInt64.toNat_inj.mp (hpa.trans hpa'.symm)
      exact ⟨b', ht⟩
    · exact absurd ⟨hpermits, haligned⟩ hrefuses
  · rcases translate_cases hpaged htables with ⟨level, entry, pte, he⟩ | hs | hfault
    · rcases translate_of_endsAt hpaged he with ⟨⟨hpermits, haligned⟩, _⟩ | ⟨_, hfault⟩
      · exact absurd ⟨level, entry, pte, he, hpermits, haligned, rfl⟩ (hnone _)
      · exact hfault
    · exact absurd hs hstrays
    · exact hfault

/-- A hart at supervisor level with its root table in the first page of memory. -/
def pagedHart : Hart :=
  { Hart.atReset 0 with
    privilege := .supervisor
    csrs := { CsrFile.atReset with satp := 0x8000000000080000 } }

/-- Two pages of memory: a root table with a pointer to the second page, which has a leaf for two
    megabytes. -/
def tables : Memory :=
  ((Memory.zeroed 0x80000000 0x2000).store 0x80000008 .double 0x20000401).store
    0x80001008 .double 0x20080007

/-- Through a pointer and a leaf of the middle level. -/
theorem load_through_superpage :
    Translates pagedHart tables .load 0x40201234 0x80201234 ∧
    ∃ b', pagedHart.translate .load 0x40201234 (Bus.ofMemory tables) = .ok 0x80201234 b' := by
  have htables :
      InMemoryOrUnmapped pagedHart (Bus.ofMemory tables) (0x40201234 : UInt64).toNat := by
    intro _ level entry hm
    cases hm with
    | here => exact Or.inl rfl
    | through hpte _ hm =>
        cases hpte
        cases hm with
        | here => exact Or.inl rfl
        | through hpte hpointer _ =>
            cases hpte
            exact absurd hpointer.notReadable (by decide)
  have hpaged : pagedHart.Paged .load := ⟨by decide, rfl⟩
  have ht : ∃ b', pagedHart.translate .load 0x40201234 (Bus.ofMemory tables) =
      .ok 0x80201234 b' := ⟨_, rfl⟩
  exact ⟨((translate_eq_sv39 hpaged 0x40201234 htables).1 0x80201234).mp ht, ht⟩

end Sv39

end Rv64Board
