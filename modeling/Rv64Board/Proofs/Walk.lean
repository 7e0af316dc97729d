import Rv64Board.Hart.LoadStore
import Rv64Board.Proofs.Marking

/-!
# The two halves of a page table walk

A walk first reads its way down to a leaf entry and then decides about it.  Only the second half
writes, and only one byte.

* `Paging.locate` and `Paging.settle` — the two halves, with `walk_eq_locate` to put them together
  again.
* `Hart.Finds` — the walk of an address ends at a leaf.  What such a leaf looks like is in
  `locate_ok`.
* `translate_ok_ram` and `translate_error_ram` — **a translation changes memory only where it
  succeeds, and there only by marking the leaf it found.**
* `Hart.MarkedBy` — the same for the bytes of a misaligned access, translated one after the other
  (`changed_translateAll`).
-/

namespace Rv64Board

namespace Access

/-- The marks that an access leaves in the lowest byte of an entry. -/
def mark (access : Access) : UInt8 := if access = .store then 0xC0 else 0x40

lemma mark_and (access : Access) : access.mark &&& 0xC0 = access.mark := by
  cases access <;> decide

end Access

namespace Paging

/-! ## Taking the walk apart -/

/-- The entry that a walk ends at, with its level and its address. -/
structure Leaf where
  depth : Nat
  entry : UInt64
  pte : Pte

/-- The first half of a walk: reading entries down to a leaf. -/
def locate (access : Access) (address : UInt64) : Nat → UInt64 → EStateM Exception Bus Leaf
  | 0, _ => throw (access.pageFault address)
  | depth + 1, table => do
    let entry := table + index address depth * 8
    let bits ← EStateM.adaptExcept (fun _ => access.accessFault address) (Bus.read entry .double)
    let pte : Pte := ⟨bits⟩
    if pte.malformed then throw (access.pageFault address)
    else if !pte.isLeaf then locate access address depth (pte.page * 0x1000)
    else return ⟨depth, entry, pte⟩

/-- The leaf refuses an access: it does not permit it, or its page is not aligned to its size. -/
def Leaf.refuses (leaf : Leaf) (status : Mstatus) (access : Access) (level : Privilege) : Bool :=
  !leaf.pte.permits status access level || leaf.pte.page &&& pageMask leaf.depth != 0

/-- The second half of a walk: the verdict on the leaf, and its marks. -/
def settle (status : Mstatus) (level : Privilege) (update : Bool) (access : Access)
    (address : UInt64) (leaf : Leaf) : EStateM Exception Bus UInt64 := do
  if leaf.refuses status access level then throw (access.pageFault address)
  else
    if update && leaf.pte.marked access != leaf.pte then
      EStateM.adaptExcept (fun _ => access.accessFault address)
        (Bus.write leaf.entry .double (leaf.pte.marked access).bits)
    return physical leaf.pte leaf.depth address

/-- **A walk is its two halves in a row.** -/
lemma walk_eq_locate (status : Mstatus) (level : Privilege) (update : Bool) (access : Access)
    (address : UInt64) (depth : Nat) (table : UInt64) :
    walk status level update access address depth table =
      locate access address depth table >>= settle status level update access address := by
  induction depth generalizing table with
  | zero => rfl
  | succ depth ih =>
      simp only [walk, locate, bind_assoc]
      congr 1
      funext bits
      split
      · rfl
      · split
        · exact ih _
        · rfl

/-! ## What the first half finds -/

/-- Entries stand at multiples of eight. -/
lemma toNat_entry_mod (page address : UInt64) (depth : Nat) :
    (page * 0x1000 + index address depth * 8).toNat % 8 = 0 := by
  simp only [UInt64.toNat_add, UInt64.toNat_mul, UInt64.reduceToNat]
  omega

lemma leaves_locate {R : Bus → Bus → Prop} [IsPreorder Bus R]
    (hread : ∀ a w, Leaves R (Bus.read a w)) (access : Access) (address : UInt64) (depth : Nat)
    (table : UInt64) : Leaves R (locate access address depth table) := by
  induction depth generalizing table with
  | zero => exact Leaves.throw _
  | succ depth ih =>
      refine Leaves.bind (hread _ _).adaptExcept fun bits => ?_
      simp only
      split
      · exact Leaves.throw _
      · split
        · exact ih _
        · exact Leaves.pure _

/-- What is known of a leaf that a walk ends at.  An entry in memory is what memory holds there. -/
structure Leaf.Sound (leaf : Leaf) (b : Bus) : Prop where
  wellFormed : leaf.pte.malformed = false
  isLeaf : leaf.pte.isLeaf = true
  aligned : leaf.entry.toNat % 8 = 0
  backed : b.contains leaf.entry 8 = true
  held : b.ram.contains leaf.entry 8 = true → leaf.pte.bits = b.ram.load leaf.entry .double

lemma locate_ok {access : Access} {address : UInt64} {depth : Nat} {page : UInt64} {b c : Bus}
    {leaf : Leaf} (h : locate access address depth (page * 0x1000) b = .ok leaf c) :
    leaf.depth < depth ∧ leaf.Sound c := by
  induction depth generalizing page b with
  | zero => cases h
  | succ depth ih =>
      obtain ⟨bits, t, hread, hrest⟩ := bind_eq_ok h
      rw [adaptExcept_eq_ok] at hread
      simp only at hrest
      split at hrest
      · cases hrest
      · split at hrest
        · have hrec := ih hrest
          exact ⟨by omega, hrec.2⟩
        · next hmalformed hleaf =>
          -- the walk ends here: `leaf` is what has just been read
          obtain ⟨rfl, rfl⟩ := EStateM.Result.ok.inj hrest
          have hmap := (Bus.leaves_sameMap_read _ _).of_ok hread
          refine ⟨Nat.lt_succ_self depth, by simpa using hmalformed, by simpa using hleaf,
            toNat_entry_mod _ _ _, ?_, ?_⟩
          · rw [hmap.contains_eq]
            exact Bus.contains_of_read hread
          · intro hram
            rw [hmap.ram_contains_eq] at hram
            rw [Bus.read_of_ram hram] at hread
            obtain ⟨hbits, rfl⟩ := EStateM.Result.ok.inj hread
            exact hbits.symm

/-! ## What the second half does -/

lemma marked_bits (p : Pte) (access : Access) :
    (p.marked access).bits = p.bits ||| access.mark.toUInt64 := by
  cases access <;> rfl

/-- The verdict on a leaf that has been found never comes with an access fault, since what could be
    read can be written. -/
lemma settle_cases (status : Mstatus) (level : Privilege) (update : Bool) (access : Access)
    (address : UInt64) {leaf : Leaf} {b : Bus} (hsound : leaf.Sound b) :
    (leaf.refuses status access level = true ∧
      settle status level update access address leaf b = .error (access.pageFault address) b) ∨
    (leaf.refuses status access level = false ∧ ∃ b',
      settle status level update access address leaf b =
        .ok (physical leaf.pte leaf.depth address) b' ∧
      Bus.SameMap b b' ∧
      (b'.ram = b.ram ∨ update = true ∧ b.ram.contains leaf.entry 8 = true ∧
        b'.ram = b.ram.store leaf.entry .double
          (b.ram.load leaf.entry .double ||| access.mark.toUInt64))) := by
  cases hrefuse : leaf.refuses status access level with
  | true =>
      left
      refine ⟨rfl, ?_⟩
      simp only [settle, hrefuse, if_true]
      rfl
  | false =>
      right
      refine ⟨rfl, ?_⟩
      cases hmark : update && leaf.pte.marked access != leaf.pte with
      | false =>
          refine ⟨b, ?_, Bus.SameMap.refl b, Or.inl rfl⟩
          simp only [settle, hrefuse, hmark]
          rfl
      | true =>
          obtain ⟨b', hwrite⟩ := Bus.write_of_contains (w := .double) hsound.backed
            (leaf.pte.marked access).bits
          refine ⟨b', ?_, (Bus.leaves_sameMap_write _ _ _).of_ok hwrite, ?_⟩
          · simp only [settle, hrefuse, hmark]
            exact bind_run_ok (adaptExcept_eq_ok.mpr hwrite) _
          · rcases Bus.write_cases leaf.entry .double (leaf.pte.marked access).bits b with
              ⟨hram, hw⟩ | ⟨_, _, b₁, hw, hsame, _⟩ | ⟨_, hw⟩
            · right
              rw [hw] at hwrite
              cases hwrite
              refine ⟨(Bool.and_eq_true_iff.mp hmark).1, hram, ?_⟩
              rw [marked_bits, hsound.held hram]
            · left
              rw [hw] at hwrite
              cases hwrite
              exact hsame
            · rw [hw] at hwrite
              cases hwrite

end Paging

namespace Hart

/-! ## Translation -/

/-- The hart's accesses of a kind go through page tables. -/
def Paged (h : Hart) (access : Access) : Prop :=
  h.effectiveLevel access ≠ .machine ∧ h.csrs.sv39Enabled = true

instance (h : Hart) (access : Access) : Decidable (h.Paged access) :=
  inferInstanceAs (Decidable (_ ∧ _))

/-- The walk of an address, started with the bus in one state, ends at a leaf, with the bus in
    another. -/
def Finds (h : Hart) (access : Access) (address : UInt64) (b : Bus) (leaf : Paging.Leaf) (c : Bus) :
    Prop :=
  h.Paged access ∧ Paging.canonical address = true ∧
    Paging.locate access address 3 (h.csrs.rootPage * 0x1000) b = .ok leaf c

lemma Finds.sound {h : Hart} {access : Access} {address : UInt64} {b c : Bus} {leaf : Paging.Leaf}
    (hf : h.Finds access address b leaf c) : leaf.Sound c :=
  (Paging.locate_ok hf.2.2).2

lemma Finds.ram_eq {h : Hart} {access : Access} {address : UInt64} {b c : Bus} {leaf : Paging.Leaf}
    (hf : h.Finds access address b leaf c) : c.ram = b.ram :=
  (Paging.leaves_locate Bus.leaves_sameRam_read _ _ _ _).of_ok hf.2.2

lemma Finds.sameMap {h : Hart} {access : Access} {address : UInt64} {b c : Bus}
    {leaf : Paging.Leaf} (hf : h.Finds access address b leaf c) : Bus.SameMap b c :=
  (Paging.leaves_locate Bus.leaves_sameMap_read _ _ _ _).of_ok hf.2.2

lemma physicalAddress_of_not_paged {h : Hart} {access : Access} (hoff : ¬h.Paged access)
    (update : Bool) (address : UInt64) (b : Bus) :
    h.physicalAddress update access address b = .ok address b := by
  have hbare : h.effectiveLevel access = .machine ∨ (!h.csrs.sv39Enabled) = true := by
    by_contra hon
    rw [not_or] at hon
    exact hoff ⟨hon.1, by simpa using hon.2⟩
  simp only [physicalAddress, hbare, if_true]
  rfl

/-- With paging on, a translation is a walk and a verdict. -/
lemma physicalAddress_of_paged {h : Hart} {access : Access} (hpaged : h.Paged access)
    (update : Bool) (address : UInt64) :
    h.physicalAddress update access address =
      if Paging.canonical address then
        Paging.locate access address 3 (h.csrs.rootPage * 0x1000) >>=
          Paging.settle h.csrs.mstatus (h.effectiveLevel access) update access address
      else throw (access.pageFault address) := by
  have hon : ¬(h.effectiveLevel access = .machine ∨ (!h.csrs.sv39Enabled) = true) := by
    rintro (hm | hoff)
    · exact hpaged.1 hm
    · simp [hpaged.2] at hoff
  rw [physicalAddress]
  simp only [if_neg hon, Paging.walk_eq_locate]
  cases Paging.canonical address <;> rfl

/-- **The outcomes of a translation:** no paging, a fault that has written nothing, or a leaf. -/
lemma physicalAddress_cases (h : Hart) (update : Bool) (access : Access) (address : UInt64)
    (b : Bus) :
    (¬h.Paged access ∧ h.physicalAddress update access address b = .ok address b) ∨
    (∃ e c, h.physicalAddress update access address b = .error e c ∧ c.ram = b.ram ∧
      Bus.SameMap b c) ∨
    (∃ leaf c b', h.Finds access address b leaf c ∧
      leaf.refuses h.csrs.mstatus access (h.effectiveLevel access) = false ∧
      h.physicalAddress update access address b =
        .ok (Paging.physical leaf.pte leaf.depth address) b' ∧
      Bus.SameMap c b' ∧
      (b'.ram = c.ram ∨ update = true ∧ c.ram.contains leaf.entry 8 = true ∧
        b'.ram = c.ram.store leaf.entry .double
          (c.ram.load leaf.entry .double ||| access.mark.toUInt64))) := by
  by_cases hpaged : h.Paged access
  · right
    rw [physicalAddress_of_paged hpaged]
    cases hcanon : Paging.canonical address with
    | false => exact Or.inl ⟨access.pageFault address, b, rfl, rfl, Bus.SameMap.refl b⟩
    | true =>
        rw [if_pos rfl]
        cases hloc : Paging.locate access address 3 (h.csrs.rootPage * 0x1000) b with
        | error e c =>
            left
            exact ⟨e, c, bind_run_error hloc _,
              (Paging.leaves_locate Bus.leaves_sameRam_read _ _ _ _).of_error hloc,
              (Paging.leaves_locate Bus.leaves_sameMap_read _ _ _ _).of_error hloc⟩
        | ok leaf c =>
            have hf : h.Finds access address b leaf c := ⟨hpaged, hcanon, hloc⟩
            rw [bind_run_ok hloc]
            rcases Paging.settle_cases h.csrs.mstatus (h.effectiveLevel access) update access
                address hf.sound with ⟨_, hs⟩ | ⟨hno, b', hs, hmap, hram⟩
            · exact Or.inl ⟨_, c, hs, hf.ram_eq, hf.sameMap⟩
            · exact Or.inr ⟨leaf, c, b', hf, hno, hs, hmap, hram⟩
  · exact Or.inl ⟨hpaged, physicalAddress_of_not_paged hpaged update address b⟩

/-- A translation that fails has written nothing to memory. -/
lemma translate_error_ram {h : Hart} {access : Access} {address : UInt64} {b b' : Bus}
    {e : Exception} (ht : h.translate access address b = .error e b') : b'.ram = b.ram := by
  rw [translate] at ht
  rcases h.physicalAddress_cases true access address b with
    ⟨_, hr⟩ | ⟨e', c, hr, hram, _⟩ | ⟨_, _, _, _, _, hr, _⟩ <;> rw [hr] at ht
  · cases ht
  · cases ht
    exact hram
  · cases ht

/-- **A translation that succeeds changes memory at most by marking the leaf it found.** -/
lemma translate_ok_ram {h : Hart} {access : Access} {address : UInt64} {b b' : Bus} {pa : UInt64}
    (ht : h.translate access address b = .ok pa b') :
    b'.ram = b.ram ∨ ∃ leaf c, h.Finds access address b leaf c ∧
      b.ram.contains leaf.entry 8 = true ∧
      b'.ram = b.ram.store leaf.entry .double
        (b.ram.load leaf.entry .double ||| access.mark.toUInt64) := by
  rw [translate] at ht
  rcases h.physicalAddress_cases true access address b with
    ⟨_, hr⟩ | ⟨e', c, hr, _⟩ | ⟨leaf, c, b₁, hf, _, hr, _, hram⟩ <;> rw [hr] at ht
  · cases ht
    exact Or.inl rfl
  · cases ht
  · cases ht
    rw [hf.ram_eq] at hram
    rcases hram with hram | ⟨_, hin, hram⟩
    · exact Or.inl hram
    · exact Or.inr ⟨leaf, c, hf, hin, hram⟩

lemma leaves_sameMap_translate (h : Hart) (access : Access) (address : UInt64) :
    Leaves Bus.SameMap (h.translate access address) := by
  intro b
  rw [translate]
  rcases h.physicalAddress_cases true access address b with
    ⟨_, hr⟩ | ⟨_, _, hr, _, hmap⟩ | ⟨_, _, _, hf, _, hr, hmap, _⟩ <;> rw [hr]
  · exact Bus.SameMap.refl b
  · exact hmap
  · exact hf.sameMap.trans hmap

lemma leaves_ramMarked_translate (h : Hart) (access : Access) (address : UInt64) :
    Leaves Bus.RamMarked (h.translate access address) := by
  intro b
  cases ht : h.translate access address b with
  | error e b' =>
      show Memory.Marked b.ram b'.ram
      rw [translate_error_ram ht]
      exact Memory.Marked.refl _
  | ok pa b' =>
      show Memory.Marked b.ram b'.ram
      rcases translate_ok_ram ht with hram | ⟨leaf, c, hf, hin, hram⟩
      · rw [hram]
        exact Memory.Marked.refl _
      · rw [hram]
        exact Memory.marked_store_or hin hf.sound.aligned access.mark_and

/-! ## Translating a row of addresses -/

/-- Translating a row of addresses, in order, marks this byte of memory: it is the lowest byte of
    the leaf that the walk of one of them ends at, once those before it have been translated. -/
def MarkedBy (h : Hart) (access : Access) (row : List UInt64) (b : Bus) (j : Nat) : Prop :=
  ∃ earlier address later, row = earlier ++ address :: later ∧
    ∃ found c leaf c', h.translateAll access earlier b = .ok found c ∧
      h.Finds access address c leaf c' ∧ c.ram.contains leaf.entry 8 = true ∧
      j = c.ram.offset leaf.entry

lemma leaves_translateAll {R : Bus → Bus → Prop} [IsPreorder Bus R] {h : Hart} {access : Access}
    (hone : ∀ address, Leaves R (h.translate access address)) (row : List UInt64) :
    Leaves R (h.translateAll access row) := by
  induction row with
  | nil => exact Leaves.pure _
  | cons address row ih =>
      refine Leaves.bind (hone address) fun pa => ?_
      exact Leaves.bind ih fun rest => Leaves.pure _

lemma finalState_translateAll_cons {h : Hart} {access : Access} {address pa : UInt64} {b c : Bus}
    (ht : h.translate access address b = .ok pa c) (row : List UInt64) :
    finalState (h.translateAll access (address :: row) b) =
      finalState (h.translateAll access row c) := by
  rw [translateAll, bind_run_ok ht]
  cases hrow : h.translateAll access row c with
  | error e t =>
      rw [bind_run_error hrow]
  | ok rest t =>
      rw [bind_run_ok hrow]
      rfl

/-- One translation marks at most the leaf it finds. -/
lemma changed_translate {h : Hart} {access : Access} {address : UInt64} {b : Bus} {j : Nat}
    (later : List UInt64)
    (hj : (finalState (h.translate access address b)).ram.byte j ≠ b.ram.byte j) :
    h.MarkedBy access (address :: later) b j := by
  cases ht : h.translate access address b with
  | error e b' =>
      rw [ht, finalState_error, translate_error_ram ht] at hj
      exact absurd rfl hj
  | ok pa b' =>
      rw [ht, finalState_ok] at hj
      rcases translate_ok_ram ht with hram | ⟨leaf, c, hf, hin, hram⟩
      · rw [hram] at hj
        exact absurd rfl hj
      · rw [hram, Memory.byte_store_or hin] at hj
        refine ⟨[], address, later, rfl, [], b, leaf, c, rfl, hf, hin, ?_⟩
        by_contra hne
        rw [if_neg hne] at hj
        exact hj rfl

/-- A byte that the translations after the first one mark is marked by all of them in a row. -/
lemma MarkedBy.cons {h : Hart} {access : Access} {address pa : UInt64} {row : List UInt64}
    {b c : Bus} {j : Nat} (ht : h.translate access address b = .ok pa c)
    (hm : h.MarkedBy access row c j) : h.MarkedBy access (address :: row) b j := by
  obtain ⟨earlier, a, later, rfl, found, t, leaf, t', hrun, hrest⟩ := hm
  refine ⟨address :: earlier, a, later, rfl, pa :: found, t, leaf, t', ?_, hrest⟩
  simp only [translateAll]
  rw [bind_run_ok ht, bind_run_ok hrun]
  rfl

/-- **Translating a row of addresses changes no byte of memory but those it marks.** -/
lemma changed_translateAll {h : Hart} {access : Access} {row : List UInt64} {b : Bus} {j : Nat}
    (hj : (finalState (h.translateAll access row b)).ram.byte j ≠ b.ram.byte j) :
    h.MarkedBy access row b j := by
  induction row generalizing b with
  | nil => exact absurd rfl hj
  | cons address row ih =>
      cases ht : h.translate access address b with
      | error e c =>
          rw [translateAll, bind_run_error ht, finalState_error, translate_error_ram ht] at hj
          exact absurd rfl hj
      | ok pa c =>
          by_cases hfirst : c.ram.byte j = b.ram.byte j
          · refine MarkedBy.cons ht (ih ?_)
            rw [hfirst]
            intro hrest
            apply hj
            rw [← hrest, finalState_translateAll_cons ht]
          · apply changed_translate
            rw [ht]
            exact hfirst

end Hart

end Rv64Board
