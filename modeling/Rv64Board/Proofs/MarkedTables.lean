import Rv64Board.Proofs.Translation

/-!
# Page tables under marks

The translations of one access mark the tables that the translations after them read.  That makes no
difference: two entries that differ in the accessed and dirty bits lead to the same place.

* `SameEntry` — two entries that differ at most in these bits.
* `SameTables` — two memories whose doublewords are such entries.  `Marked.sameTables` is where it
  comes from.
* `SameAlong` — two memories that hold such entries wherever a walk comes to, which is all that it
  takes for the walk: `EndsAt.of_sameAlong` — **walks end at the same leaf in both.**
* `EndsAt.of_page_eq` — so do the walks of two addresses in one page, which is why one translation
  is enough for all bytes of an aligned access.
-/

namespace Rv64Board

namespace Sv39

/-! ## Entries -/

/-- Two entries with the same bits, the accessed bit (6) and the dirty bit (7) aside. -/
def SameEntry (n n' : Nat) : Prop := ∀ k, k ≠ 6 → k ≠ 7 → n'.testBit k = n.testBit k

namespace SameEntry

variable {n n' : Nat}

lemma symm (h : SameEntry n n') : SameEntry n' n := fun k h₆ h₇ => (h k h₆ h₇).symm

lemma or_marks {s : UInt8} (hs : s &&& 0xC0 = s) (n : Nat) : SameEntry n (n ||| s.toNat) := by
  intro k h₆ h₇
  have hmask : (0xC0 : UInt8).toNat.testBit k = false := by
    by_cases hk : k < 8
    · obtain rfl | rfl | rfl | rfl | rfl | rfl :
          k = 0 ∨ k = 1 ∨ k = 2 ∨ k = 3 ∨ k = 4 ∨ k = 5 := by omega
      all_goals decide
    · exact Nat.testBit_lt_two_pow (Nat.lt_of_lt_of_le (UInt8.toNat_lt _)
        (Nat.pow_le_pow_right (by decide) (Nat.le_of_not_lt hk)))
  have hmarks : s.toNat.testBit k = false := by
    rw [← hs, UInt8.toNat_and, Nat.testBit_and, hmask, Bool.and_false]
  rw [Nat.testBit_or, hmarks, Bool.or_false]

lemma lt_of_lt (h : SameEntry n n') (hlt : n < 2 ^ 54) : n' < 2 ^ 54 := by
  refine Nat.lt_pow_two_of_testBit _ fun k hk => ?_
  rw [h k (by omega) (by omega)]
  exact Nat.testBit_lt_two_pow (Nat.lt_of_lt_of_le hlt (Nat.pow_le_pow_right (by decide) hk))

lemma isPointer (h : SameEntry n n') (hp : IsPointer n) : IsPointer n' where
  valid := (h 0 (by decide) (by decide)).trans hp.valid
  notReadable := (h 1 (by decide) (by decide)).trans hp.notReadable
  notWritable := (h 2 (by decide) (by decide)).trans hp.notWritable
  notExecutable := (h 3 (by decide) (by decide)).trans hp.notExecutable
  reserved := h.lt_of_lt hp.reserved

lemma isLeaf (h : SameEntry n n') (hl : IsLeaf n) : IsLeaf n' where
  valid := (h 0 (by decide) (by decide)).trans hl.valid
  page := by
    rw [h 1 (by decide) (by decide), h 3 (by decide) (by decide)]
    exact hl.page
  writable := by
    rw [h 1 (by decide) (by decide), h 2 (by decide) (by decide)]
    exact hl.writable
  reserved := h.lt_of_lt hl.reserved

lemma ppn_eq (h : SameEntry n n') : ppn n' = ppn n := by
  refine Nat.eq_of_testBit_eq fun k => ?_
  rw [ppn, ppn, Nat.testBit_mod_two_pow, Nat.testBit_mod_two_pow, Nat.testBit_div_two_pow,
    Nat.testBit_div_two_pow, h (k + 10) (by omega) (by omega)]

lemma physical_eq (h : SameEntry n n') (va level : Nat) :
    physical n' va level = physical n va level := by
  rw [physical, physical, h.ppn_eq]

end SameEntry

/-! ## Tables -/

/-- Where one memory holds an entry, so does the other, and it is the same but for marks. -/
def Shows (m m' : Memory) : Prop :=
  ∀ entry n, entry % 8 = 0 → m.doubleword? entry = some n →
    ∃ n', m'.doubleword? entry = some n' ∧ SameEntry n n'

/-- Two memories with the same page tables but for marks. -/
structure SameTables (m m' : Memory) : Prop where
  forth : Shows m m'
  back : Shows m' m

lemma SameTables.symm {m m' : Memory} (h : SameTables m m') : SameTables m' m := ⟨h.back, h.forth⟩

lemma isSome_doubleword? (m : Memory) (address : Nat) :
    (m.doubleword? address).isSome =
      decide (m.base.toNat ≤ address ∧ address + 8 ≤ m.base.toNat + m.size.toNat) := by
  rw [Memory.doubleword?]
  split
  · next hin => rw [Option.isSome_some, decide_eq_true hin]
  · next hout => rw [Option.isSome_none, decide_eq_false hout]

/-- **Marking memory leaves its tables the same.** -/
lemma Marked.sameTables {m m' : Memory} (h : Memory.Marked m m') : SameTables m m' := by
  -- both memories have the same extent, and a doubleword of the second is one of the first,
  -- with marks
  have hpair (entry n n' : Nat) (hentry : entry % 8 = 0) (hn : m.doubleword? entry = some n)
      (hn' : m'.doubleword? entry = some n') : SameEntry n n' := by
    rw [Memory.doubleword?] at hn hn'
    split at hn
    · next hin =>
      rw [h.base, h.size, if_pos hin] at hn'
      obtain rfl := Option.some.inj hn
      obtain rfl := Option.some.inj hn'
      obtain ⟨s, hs, heq⟩ := h.ofBytes_slice (i := entry - m.base.toNat) (by omega)
      rw [heq]
      exact SameEntry.or_marks hs _
    · cases hn
  have hsome (entry : Nat) : (m'.doubleword? entry).isSome = (m.doubleword? entry).isSome := by
    rw [isSome_doubleword?, isSome_doubleword?, h.base, h.size]
  constructor
  · intro entry n hentry hn
    obtain ⟨n', hn'⟩ := Option.isSome_iff_exists.mp (by rw [hsome, hn]; rfl)
    exact ⟨n', hn', hpair entry n n' hentry hn hn'⟩
  · intro entry n' hentry hn'
    obtain ⟨n, hn⟩ := Option.isSome_iff_exists.mp (by rw [← hsome, hn']; rfl)
    exact ⟨n, hn, (hpair entry n n' hentry hn hn').symm⟩

/-! ## Walks -/

variable {m m' : Memory} {va va' levels page level entry pte : Nat} {h : Hart}

lemma Meets.entry_mod (hm : Meets m va levels page level entry) : entry % 8 = 0 := by
  induction hm with
  | here levels page => omega
  | through _ _ _ ih => exact ih

/-- Two memories hold the same entries, but for marks, wherever a walk comes to in the first. -/
def SameAlong (m m' : Memory) (va levels page : Nat) : Prop :=
  ∀ level entry, Meets m va levels page level entry →
    Option.Rel SameEntry (m.doubleword? entry) (m'.doubleword? entry)

lemma SameTables.sameAlong (ht : SameTables m m') (va levels page : Nat) :
    SameAlong m m' va levels page := by
  intro level entry hm
  cases hn : m.doubleword? entry with
  | some n =>
      obtain ⟨n', hn', hsame⟩ := ht.forth _ _ hm.entry_mod hn
      rw [hn']
      exact Option.Rel.some hsame
  | none =>
      cases hn' : m'.doubleword? entry with
      | some n' =>
          obtain ⟨n, hsome, _⟩ := ht.back _ _ hm.entry_mod hn'
          rw [hn] at hsome
          cases hsome
      | none => exact Option.Rel.none

/-- What is the same along a walk is the same along the rest of it. -/
lemma SameAlong.through (hs : SameAlong m m' va (levels + 1) page)
    (hpte : m.doubleword? (page * 2 ^ 12 + vpn va levels * 8) = some pte)
    (hpointer : IsPointer pte) : SameAlong m m' va levels (ppn pte) :=
  fun level entry hm => hs level entry (Meets.through hpte hpointer hm)

/-- **Walks come to the same entries.** -/
lemma SameAlong.meets_iff (hs : SameAlong m m' va levels page) :
    Meets m' va levels page level entry ↔ Meets m va levels page level entry := by
  constructor <;> intro hm
  · induction hm with
    | here levels page => exact Meets.here levels page
    | @through levels page level entry pte' hpte' hpointer' _ ih =>
        have hfirst := hs _ _ (Meets.here levels page)
        rw [hpte'] at hfirst
        generalize hpte : m.doubleword? (page * 2 ^ 12 + vpn va levels * 8) = n at hfirst
        obtain ⟨hsame⟩ | _ := hfirst
        have hpointer := hsame.symm.isPointer hpointer'
        rw [hsame.ppn_eq] at ih
        exact Meets.through hpte hpointer (ih (hs.through hpte hpointer))
  · induction hm with
    | here levels page => exact Meets.here levels page
    | @through levels page level entry pte hpte hpointer _ ih =>
        have hfirst := hs _ _ (Meets.here levels page)
        have hrest := ih (hs.through hpte hpointer)
        rw [hpte] at hfirst
        generalize hpte' : m'.doubleword? (page * 2 ^ 12 + vpn va levels * 8) = n at hfirst
        obtain ⟨hsame⟩ | _ := hfirst
        rw [← hsame.ppn_eq] at hrest
        exact Meets.through hpte' (hsame.isPointer hpointer) hrest

/-- **Walks end at the same leaf.** -/
lemma EndsAt.of_sameAlong (hs : SameAlong m m' va 3 (root h)) (he : EndsAt h m va level entry pte) :
    ∃ pte', EndsAt h m' va level entry pte' ∧ SameEntry pte pte' := by
  obtain ⟨hcanon, hm, hpte, hleaf⟩ := he
  have hlast := hs _ _ hm
  rw [hpte] at hlast
  generalize hpte' : m'.doubleword? entry = n at hlast
  obtain ⟨hsame⟩ | _ := hlast
  exact ⟨_, ⟨hcanon, hs.meets_iff.mpr hm, hpte', hsame.isLeaf hleaf⟩, hsame⟩

lemma EndsAt.of_sameTables (ht : SameTables m m') (he : EndsAt h m va level entry pte) :
    ∃ pte', EndsAt h m' va level entry pte' ∧ SameEntry pte pte' :=
  he.of_sameAlong (ht.sameAlong va 3 (root h))

lemma InMemoryOrUnmapped.of_sameAlong {b c : Bus} (hs : SameAlong b.ram c.ram va 3 (root h))
    (hmap : Bus.SameMap b c) (hb : InMemoryOrUnmapped h b va) : InMemoryOrUnmapped h c va := by
  intro hcanon level entry hm
  rw [hmap.contains_eq, isSome_doubleword?, hmap.base, hmap.size, ← isSome_doubleword?]
  exact hb hcanon level entry (hs.meets_iff.mp hm)

lemma InMemoryOrUnmapped.of_sameTables {b c : Bus} (ht : SameTables b.ram c.ram)
    (hmap : Bus.SameMap b c) (hb : InMemoryOrUnmapped h b va) : InMemoryOrUnmapped h c va :=
  hb.of_sameAlong (ht.sameAlong va 3 (root h)) hmap

/-! ## Addresses in one page -/

lemma vpn_eq_of_page_eq (hp : va' / 2 ^ 12 = va / 2 ^ 12) (level : Nat) :
    vpn va' level = vpn va level := by
  rw [vpn, vpn, hp]

lemma Canonical.of_page_eq (hp : va' / 2 ^ 12 = va / 2 ^ 12) (hc : Canonical va) :
    Canonical va' := by
  have hbit (i : Nat) (hi : 12 ≤ i) : va'.testBit i = va.testBit i := by
    obtain ⟨k, rfl⟩ : ∃ k, i = k + 12 := ⟨i - 12, by omega⟩
    rw [← Nat.testBit_div_two_pow, ← Nat.testBit_div_two_pow, hp]
  intro i hlow hhigh
  rw [hbit i (by omega), hbit 38 (by omega)]
  exact hc i hlow hhigh

lemma Meets.of_page_eq (hp : va' / 2 ^ 12 = va / 2 ^ 12)
    (hm : Meets m va levels page level entry) : Meets m va' levels page level entry := by
  induction hm with
  | here levels page =>
      rw [← vpn_eq_of_page_eq hp]
      exact Meets.here levels page
  | through hpte hpointer _ ih =>
      rw [← vpn_eq_of_page_eq hp] at hpte
      exact Meets.through hpte hpointer ih

/-- **The walks of two addresses in one page end at the same leaf.** -/
lemma EndsAt.of_page_eq (hp : va' / 2 ^ 12 = va / 2 ^ 12) (he : EndsAt h m va level entry pte) :
    EndsAt h m va' level entry pte :=
  ⟨he.1.of_page_eq hp, he.2.1.of_page_eq hp, he.2.2⟩

/-- A byte of a page is as far from another one as their addresses are. -/
lemma physical_add {k : Nat} (hp : (va + k) / 2 ^ 12 = va / 2 ^ 12) (pte level : Nat) :
    physical pte (va + k) level = physical pte va level + k := by
  rw [physical, physical, hp]
  omega

end Sv39

end Rv64Board
