import Rv64Board.Proofs.MarkedTables

/-!
# Looking where the hart would look

Translating an address without leaving marks is the same walk with the last write left out.

* `Hart.Reaches` — where an access of the hart goes.
* `Hart.WalksMemory` — the walk of an address meets no device.  That is all that separates a look
  from an access: a device may change because it is read.
* `inspect_cases` — **without devices on its way, a look finds what the hart would find, and leaves
  the bus as it was.**
* `Reaches.of_sameTables` — marks lead no translation astray, so a row of addresses is translated as
  if each were the first (`translateAll_of_reaches`).
-/

namespace Rv64Board

namespace Sv39

lemma SameEntry.permits {status pte pte' : Nat} {access : Access} {level : Privilege}
    (hs : SameEntry pte pte') (hp : Permits status pte access level) :
    Permits status pte' access level := by
  have h₁ := hs 1 (by decide) (by decide)
  have h₂ := hs 2 (by decide) (by decide)
  have h₃ := hs 3 (by decide) (by decide)
  have h₄ := hs 4 (by decide) (by decide)
  obtain ⟨hgrants, howned⟩ := hp
  constructor
  · cases access <;> simpa only [Grants, h₁, h₂, h₃] using hgrants
  · cases level <;> simpa only [Owned, h₄] using howned

lemma Translates.of_sameAlong {h : Hart} {m m' : Memory} {access : Access} {va pa : Nat}
    (hs : SameAlong m m' va 3 (root h)) (htr : Translates h m access va pa) :
    Translates h m' access va pa := by
  obtain ⟨level, entry, pte, hend, hpermits, haligned, rfl⟩ := htr
  obtain ⟨pte', hend', hsame⟩ := hend.of_sameAlong hs
  exact ⟨level, entry, pte', hend', hsame.permits hpermits, by rwa [hsame.ppn_eq],
    (hsame.physical_eq va level).symm⟩

lemma translate_of_translates {h : Hart} {b : Bus} {access : Access} {va pa : UInt64}
    (hpaged : h.Paged access) (htr : Translates h b.ram access va.toNat pa.toNat) :
    ∃ b', h.translate access va b = .ok pa b' := by
  obtain ⟨level, entry, pte, hend, hpermits, haligned, hpa⟩ := htr
  rcases translate_of_endsAt hpaged hend with ⟨_, pa', b', ht, hpa'⟩ | ⟨hrefuses, _⟩
  · obtain rfl : pa = pa' := UInt64.toNat_inj.mp (hpa.trans hpa'.symm)
    exact ⟨b', ht⟩
  · exact absurd ⟨hpermits, haligned⟩ hrefuses

end Sv39

namespace Hart

/-- An access of the hart to `va` goes to `pa`. -/
def Reaches (h : Hart) (access : Access) (b : Bus) (va pa : UInt64) : Prop :=
  ∃ b', h.translate access va b = .ok pa b'

/-- The entries that the walk of an address comes to, if there is a walk, are in memory, or are at
    addresses where there is nothing at all. -/
def WalksMemory (h : Hart) (access : Access) (b : Bus) (va : UInt64) : Prop :=
  h.Paged access → Sv39.InMemoryOrUnmapped h b va.toNat

variable {h : Hart} {access : Access} {b c : Bus} {va pa : UInt64}

lemma Reaches.unique {pa' : UInt64} (hr : h.Reaches access b va pa)
    (hr' : h.Reaches access b va pa') : pa = pa' := by
  obtain ⟨t, ht⟩ := hr
  obtain ⟨t', ht'⟩ := hr'
  rw [ht] at ht'
  exact (EStateM.Result.ok.inj ht').1

/-! ## A look and an access -/

/-- The verdict on a leaf, given without leaving marks. -/
lemma settle_false (status : Mstatus) (level : Privilege) (access : Access) (va : UInt64)
    (leaf : Paging.Leaf) (b : Bus) :
    Paging.settle status level false access va leaf b =
      if leaf.refuses status access level then .error (access.pageFault va) b
      else .ok (Paging.physical leaf.pte leaf.depth va) b := by
  rw [Paging.settle]
  split <;> rfl

/-- **A look finds what the hart would find.**  It leaves the bus as it was, and so does an access
    that fails. -/
lemma inspect_cases (hw : h.WalksMemory access b va) :
    (∃ pa c, h.translate access va b = .ok pa c ∧ h.inspect access va b = .ok pa b) ∨
    (∃ e, h.translate access va b = .error e b ∧ h.inspect access va b = .error e b) := by
  rw [translate, inspect]
  by_cases hpaged : h.Paged access
  · rw [physicalAddress_of_paged hpaged, physicalAddress_of_paged hpaged]
    cases hcanon : Paging.canonical va with
    | false => exact Or.inr ⟨_, rfl, rfl⟩
    | true =>
        simp only [if_true]
        rcases Sv39.locate_cases access (Nat.le_refl 3) (Sv39.toNat_rootPage h) (Sv39.root_lt h)
            (hw hpaged ((Sv39.canonical_iff va).mp hcanon)) with
          ⟨leaf, hl, _⟩ | ⟨level, entry, hm, hc⟩ | hfault
        · rw [bind_run_ok hl, bind_run_ok hl, settle_false]
          rcases Paging.settle_cases h.csrs.mstatus (h.effectiveLevel access) true access va
              (Paging.locate_ok hl).2 with ⟨hrefuses, hs⟩ | ⟨hpermits, c, hs, _⟩
          · rw [hs, hrefuses]
            exact Or.inr ⟨_, rfl, rfl⟩
          · rw [hs, hpermits]
            exact Or.inl ⟨_, c, rfl, rfl⟩
        · have hstrays := Sv39.locate_of_strays access
            ⟨(Sv39.canonical_iff va).mp hcanon, level, entry, hm, hc⟩
          rw [bind_run_error hstrays, bind_run_error hstrays]
          exact Or.inr ⟨_, rfl, rfl⟩
        · rw [bind_run_error hfault, bind_run_error hfault]
          exact Or.inr ⟨_, rfl, rfl⟩
  · rw [physicalAddress_of_not_paged hpaged, physicalAddress_of_not_paged hpaged]
    exact Or.inl ⟨va, b, rfl, rfl⟩

/-! ## Rows of addresses -/

lemma WalksMemory.of_sameAlong
    (hs : h.Paged access → Sv39.SameAlong b.ram c.ram va.toNat 3 (Sv39.root h))
    (hmap : Bus.SameMap b c) (hw : h.WalksMemory access b va) : h.WalksMemory access c va :=
  fun hpaged => (hw hpaged).of_sameAlong (hs hpaged) hmap

lemma WalksMemory.of_sameTables (ht : Sv39.SameTables b.ram c.ram) (hmap : Bus.SameMap b c)
    (hw : h.WalksMemory access b va) : h.WalksMemory access c va :=
  hw.of_sameAlong (fun _ => ht.sameAlong _ _ _) hmap

/-- Where the entries on the way are the same but for marks, an access goes to the same place. -/
lemma Reaches.of_sameAlong (hw : h.WalksMemory access b va)
    (hs : h.Paged access → Sv39.SameAlong b.ram c.ram va.toNat 3 (Sv39.root h))
    (hr : h.Reaches access b va pa) : h.Reaches access c va pa := by
  obtain ⟨b', hb⟩ := hr
  by_cases hpaged : h.Paged access
  · have htr := Sv39.translates_of_translate hpaged (hw hpaged) hb
    exact Sv39.translate_of_translates hpaged (htr.of_sameAlong (hs hpaged))
  · rw [translate, physicalAddress_of_not_paged hpaged] at hb
    obtain ⟨rfl, _⟩ := EStateM.Result.ok.inj hb
    exact ⟨c, physicalAddress_of_not_paged hpaged _ _ _⟩

/-- **Marks lead no translation astray.** -/
lemma Reaches.of_sameTables (hw : h.WalksMemory access b va) (ht : Sv39.SameTables b.ram c.ram)
    (hr : h.Reaches access b va pa) : h.Reaches access c va pa :=
  hr.of_sameAlong hw fun _ => ht.sameAlong _ _ _

/-- A row of addresses is translated as if each of them were the first. -/
lemma translateAll_of_reaches {f g : Nat → UInt64} {row : List Nat}
    (hw : ∀ k ∈ row, h.WalksMemory access b (f k))
    (hr : ∀ k ∈ row, h.Reaches access b (f k) (g k)) :
    ∃ c, h.translateAll access (row.map f) b = .ok (row.map g) c := by
  induction row generalizing b with
  | nil => exact ⟨b, rfl⟩
  | cons k row ih =>
      obtain ⟨t, ht⟩ := hr k List.mem_cons_self
      -- the walks of the others start from tables with marks
      have hsame := Sv39.Marked.sameTables ((leaves_ramMarked_translate h access (f k)).of_ok ht)
      have hmap := (leaves_sameMap_translate h access (f k)).of_ok ht
      obtain ⟨c, hc⟩ := ih (b := t)
        (fun i hi => (hw i (List.mem_cons_of_mem _ hi)).of_sameTables hsame hmap)
        (fun i hi => (hr i (List.mem_cons_of_mem _ hi)).of_sameTables
          (hw i (List.mem_cons_of_mem _ hi)) hsame)
      refine ⟨c, ?_⟩
      rw [List.map_cons, translateAll, bind_run_ok ht, bind_run_ok hc]
      rfl

end Hart

end Rv64Board
