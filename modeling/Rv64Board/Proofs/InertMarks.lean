import Rv64Board.Proofs.DebuggerMemory
import Rv64Board.Proofs.Oblivious

/-!
# Marks that no translation notices

A table may serve several levels, or lead back to itself, so the entry that one walk marks may be
read by any other walk, at any level.  That does no harm, because of the two bits that are set, none
is ever looked at.

* `Bus.MarkedApart` — two buses with the same devices, of which the second has entries marked.
* `Together` — **two runs that keep pace:** they answer alike or raise the same exception, and they
  leave such buses again.  It passes through sequences (`Together.bind`), so walks keep pace because
  reads of entries do (`together_read`, `together_locate`).
* `Memory.SetsBits` — memory with bits set in one byte, which is all that a translation does
  (`translate_effect`).
* `translate_again` — a translation finds its own marks and adds none.
-/

namespace Rv64Board

/-! ## Buses that differ by marks -/

/-- Two buses with the same devices and notices, of which the second has memory with marks. -/
structure Bus.MarkedApart (b c : Bus) : Prop where
  ram : Memory.Marked b.ram c.ram
  regions : c.regions = b.regions
  journal : c.journal = b.journal

lemma Bus.MarkedApart.refl (b : Bus) : b.MarkedApart b := ⟨Memory.Marked.refl _, rfl, rfl⟩

/-- Two runs that answer alike or raise the same exception, and leave buses that differ by marks. -/
inductive Together {ε α : Type} (R : α → α → Prop) :
    EStateM.Result ε Bus α → EStateM.Result ε Bus α → Prop
  | ok {a a' : α} {b c : Bus} : R a a' → b.MarkedApart c → Together R (.ok a b) (.ok a' c)
  | error {e : ε} {b c : Bus} : b.MarkedApart c → Together R (.error e b) (.error e c)

namespace Together

variable {ε ε' α β : Type} {R : α → α → Prop} {Q : β → β → Prop} {b c : Bus}

/-- **Runs that keep pace do so in a row.** -/
lemma bind {x x' : EStateM ε Bus α} {f f' : α → EStateM ε Bus β} (hx : Together R (x b) (x' c))
    (hf : ∀ a a' s t, R a a' → s.MarkedApart t → Together Q (f a s) (f' a' t)) :
    Together Q ((x >>= f) b) ((x' >>= f') c) := by
  generalize hb : x b = r at hx
  generalize hc : x' c = r' at hx
  cases hx with
  | ok ha hst =>
      rw [bind_run_ok hb, bind_run_ok hc]
      exact hf _ _ _ _ ha hst
  | error hst =>
      rw [bind_run_error hb, bind_run_error hc]
      exact error hst

lemma adaptExcept {x x' : EStateM ε Bus α} (g : ε → ε') (hx : Together R (x b) (x' c)) :
    Together R (EStateM.adaptExcept g x b) (EStateM.adaptExcept g x' c) := by
  generalize hb : x b = r at hx
  generalize hc : x' c = r' at hx
  simp only [EStateM.adaptExcept, hb, hc]
  cases hx with
  | ok ha hst => exact ok ha hst
  | error hst => exact error hst

end Together

namespace Sv39

/-! ## Walks that keep pace -/

variable {b c : Bus}

lemma SameEntry.refl (n : Nat) : SameEntry n n := fun _ _ _ => rfl

/-- **A read of an entry** finds the same on both buses, but for marks. -/
lemma together_read (hbc : b.MarkedApart c) {entry : UInt64} (haligned : entry.toNat % 8 = 0) :
    Together (fun v v' : UInt64 => SameEntry v.toNat v'.toNat) (Bus.read entry .double b)
      (Bus.read entry .double c) := by
  have hregion : c.region? entry 8 = b.region? entry 8 := by
    simp only [Bus.region?, hbc.regions]
  have hcontains : c.ram.contains entry 8 = b.ram.contains entry 8 := by
    simp only [Memory.contains, hbc.ram.base, hbc.ram.size]
  cases hram : b.ram.contains entry 8 with
  | true =>
      rw [Bus.read_of_ram (b := b) hram, Bus.read_of_ram (b := c) (hcontains.trans hram)]
      have hoffset : c.ram.offset entry = b.ram.offset entry := by
        rw [Memory.offset, Memory.offset, hbc.ram.base]
      obtain ⟨s, hs, hbytes⟩ := hbc.ram.ofBytes_slice (i := b.ram.offset entry)
        (by rwa [Memory.base_add_offset hram])
      refine Together.ok ?_ hbc
      rw [Memory.toNat_load, Memory.toNat_load, hoffset, Width.bytes, hbytes]
      exact SameEntry.or_marks hs _
  | false =>
      simp only [Bus.read, Width.bytes, hcontains, hram, hregion]
      cases b.region? entry 8 with
      | none => exact Together.error hbc
      | some r =>
          -- the same device answers, and it is the same afterwards
          refine Together.ok (SameEntry.refl _) ⟨hbc.ram, ?_, ?_⟩
          · simp only [Bus.note, Bus.setDevice, hbc.regions]
          · simp only [Bus.note, Bus.setDevice, hbc.journal]

/-- Two leaves at one place that are the same but for marks. -/
structure Alike (leaf leaf' : Paging.Leaf) : Prop where
  depth : leaf'.depth = leaf.depth
  entry : leaf'.entry = leaf.entry
  pte : SameEntry leaf.pte.bits.toNat leaf'.pte.bits.toNat

/-- **Walks end at the same leaf,** or fail in the same way, also where they read from a device. -/
lemma together_locate (hbc : b.MarkedApart c) (access : Access) (va page : UInt64) (depth : Nat) :
    Together Alike (Paging.locate access va depth (page * 0x1000) b)
      (Paging.locate access va depth (page * 0x1000) c) := by
  induction depth generalizing page b c with
  | zero => exact Together.error hbc
  | succ depth ih =>
      have hread := together_read hbc (Paging.toNat_entry_mod page va depth)
      refine Together.bind (hread.adaptExcept _) fun v v' s t hv hst => ?_
      -- what the walk asks of the two entries has the same answer
      have hwell : (Pte.mk v').malformed = (Pte.mk v).malformed := by
        rw [Bool.eq_iff_iff, ← Bool.not_eq_false, ← Bool.not_eq_false, not_iff_not,
          malformed_eq_false_iff, malformed_eq_false_iff, hv 0 (by decide) (by decide),
          hv 1 (by decide) (by decide), hv 2 (by decide) (by decide)]
        exact and_congr_right fun _ => and_congr_right fun _ => ⟨hv.symm.lt_of_lt, hv.lt_of_lt⟩
      have hleaf : (Pte.mk v').isLeaf = (Pte.mk v).isLeaf := by
        rw [Bool.eq_iff_iff, isLeaf_eq_true_iff, isLeaf_eq_true_iff, hv 1 (by decide) (by decide),
          hv 3 (by decide) (by decide)]
      have hpage : (Pte.mk v').page = (Pte.mk v).page := by
        rw [← UInt64.toNat_inj, toNat_page, toNat_page, hv.ppn_eq]
      simp only [hwell, hleaf, hpage]
      split
      · exact Together.error hst
      · split
        · exact ih hst _
        · exact Together.ok ⟨rfl, rfl, hv⟩ hst

namespace Alike

variable {leaf leaf' : Paging.Leaf}

lemma refuses_eq (ha : Alike leaf leaf') (hdepth : leaf.depth < 3) (status : Mstatus)
    (access : Access) (level : Privilege) :
    leaf'.refuses status access level = leaf.refuses status access level := by
  rw [Bool.eq_iff_iff, ← Bool.not_eq_false, ← Bool.not_eq_false, not_iff_not,
    refuses_eq_false_iff hdepth, refuses_eq_false_iff (by rwa [ha.depth]), ha.depth, ha.pte.ppn_eq]
  exact and_congr_left fun _ => ⟨ha.pte.symm.permits, ha.pte.permits⟩

lemma physical_eq (ha : Alike leaf leaf') (hdepth : leaf.depth < 3) (va : UInt64) :
    Paging.physical leaf'.pte leaf'.depth va = Paging.physical leaf.pte leaf.depth va := by
  rw [← UInt64.toNat_inj, toNat_physical _ hdepth, toNat_physical _ (by rwa [ha.depth]), ha.depth,
    ha.pte.physical_eq]

end Alike

/-- The verdict on a leaf does not depend on marks, nor on whether some are to be left. -/
lemma outcome_settle {leaf : Paging.Leaf} (status : Mstatus) (level : Privilege) (update : Bool)
    (access : Access) (va : UInt64) (hsound : leaf.Sound b) :
    outcome (Paging.settle status level update access va leaf b) =
      if leaf.refuses status access level then .error (access.pageFault va)
      else .ok (Paging.physical leaf.pte leaf.depth va) := by
  rcases Paging.settle_cases status level update access va hsound with
    ⟨hrefuses, hs⟩ | ⟨hpermits, b', hs, _⟩
  · rw [hs, if_pos hrefuses]
    rfl
  · rw [hs, hpermits]
    rfl

end Sv39

/-! ## What a translation changes -/

namespace Memory

/-- The second memory is the first with bits set in the byte at one address. -/
structure SetsBits (m m' : Memory) (address : Nat) (bits : UInt8) : Prop where
  base : m'.base = m.base
  size : m'.size = m.size
  byte : ∀ j, m'.byte j = if m.base.toNat + j = address then m.byte j ||| bits else m.byte j

variable {m m' : Memory} {address : UInt64} {s : UInt8}

lemma setsBits_store (hc : m.contains address 8 = true) (s : UInt8) :
    SetsBits m (m.store address .double (m.load address .double ||| s.toUInt64))
      address.toNat s where
  base := base_patch _ _ _
  size := size_patch _ _ _
  byte j := by
    have hbase := base_add_offset hc
    have hplace : j = m.offset address ↔ m.base.toNat + j = address.toNat := by omega
    rw [byte_store_or hc]
    simp only [hplace]

/-- Bits that are all set already. -/
lemma setsBits_self (hc : m.contains address 8 = true)
    (hset : m.load address .double ||| s.toUInt64 = m.load address .double) :
    SetsBits m m address.toNat s where
  base := rfl
  size := rfl
  byte j := by
    have hsame : (m.store address .double (m.load address .double)).byte j = m.byte j := by
      have hnone := byte_store_or hc 0 j
      simpa using hnone
    rw [← (setsBits_store hc s).byte j, hset, hsame]

/-- Once they are set, setting them again changes nothing. -/
lemma SetsBits.load_or (hs : SetsBits m m' address.toNat s) (hc : m.contains address 8 = true) :
    m'.load address .double ||| s.toUInt64 = m'.load address .double := by
  have hbase := base_add_offset hc
  have hoffset : m'.offset address = m.offset address := by rw [offset, offset, hs.base]
  have hbyte : m'.byte (m.offset address) ||| s = m'.byte (m.offset address) := by
    rw [hs.byte, if_pos hbase, UInt8.or_assoc, UInt8.or_self]
  rw [← UInt64.toNat_inj, UInt64.toNat_or, toNat_load, hoffset, Width.bytes, slice_succ,
    UInt8.toNat_toUInt64, ← ofBytes_or, hbyte]

/-- Setting marks of an entry marks memory. -/
lemma SetsBits.marked {entry : Nat} (hs : SetsBits m m' entry s) (haligned : entry % 8 = 0)
    (hmarks : s &&& 0xC0 = s) : Marked m m' where
  base := hs.base
  size := hs.size
  gains j := by
    rw [hs.byte]
    split
    · exact ⟨s, hmarks, rfl⟩
    · exact Gains.refl _
  aligned j hj := by
    rw [hs.byte] at hj
    split at hj
    · next hplace => rwa [hplace]
    · exact absurd rfl hj

end Memory

/-- The marks of a leaf in memory: they are set in its lowest byte, and where they are set already,
    nothing is written. -/
lemma Paging.settle_of_ram {leaf : Leaf} {b : Bus} (hsound : leaf.Sound b)
    (hram : b.ram.contains leaf.entry 8 = true) {status : Mstatus} {level : Privilege}
    {access : Access} (hpermits : leaf.refuses status access level = false) (va : UInt64) :
    ∃ m, settle status level true access va leaf b =
        .ok (physical leaf.pte leaf.depth va) { b with ram := m } ∧
      b.ram.SetsBits m leaf.entry.toNat access.mark ∧
      (b.ram.load leaf.entry .double ||| access.mark.toUInt64 = b.ram.load leaf.entry .double →
        m = b.ram) := by
  have hbits := marked_bits leaf.pte access
  rw [hsound.held hram] at hbits
  have hsame : leaf.pte.marked access = leaf.pte ↔
      b.ram.load leaf.entry .double ||| access.mark.toUInt64 = b.ram.load leaf.entry .double := by
    rw [← hbits, ← hsound.held hram]
    exact ⟨congrArg Pte.bits, fun h => congrArg Pte.mk h⟩
  by_cases hset : leaf.pte.marked access = leaf.pte
  · refine ⟨b.ram, ?_, Memory.setsBits_self hram (hsame.mp hset), fun _ => rfl⟩
    simp only [settle, hpermits, hset, bne_self_eq_false, Bool.and_false]
    rfl
  · refine ⟨b.ram.store leaf.entry .double (leaf.pte.marked access).bits, ?_, ?_,
      fun h => absurd (hsame.mpr h) hset⟩
    · have hwrite : Bus.write leaf.entry .double (leaf.pte.marked access).bits b =
        .ok () { b with ram := b.ram.store leaf.entry .double (leaf.pte.marked access).bits } := by
        simp only [Bus.write, Width.bytes, hram, if_true]
      have hmust : (true && leaf.pte.marked access != leaf.pte) = true := by simpa using hset
      simp only [settle, hpermits, hmust]
      exact bind_run_ok (adaptExcept_eq_ok.mpr hwrite) _
    · rw [hbits]
      exact Memory.setsBits_store hram access.mark

namespace Hart

variable {h : Hart} {access : Access} {b c : Bus} {va : UInt64}

/-- **Every translation has the same result with marks and without,** and it has the same result
    whether it leaves marks or not. -/
lemma outcome_physicalAddress (hbc : b.MarkedApart c) (h : Hart) (update update' : Bool)
    (access : Access) (va : UInt64) :
    outcome (h.physicalAddress update' access va c) =
      outcome (h.physicalAddress update access va b) := by
  by_cases hpaged : h.Paged access
  · rw [physicalAddress_of_paged hpaged, physicalAddress_of_paged hpaged]
    split
    · have hwalk := Sv39.together_locate hbc access va h.csrs.rootPage 3
      generalize hb : Paging.locate access va 3 (h.csrs.rootPage * 0x1000) b = r at hwalk
      generalize hc : Paging.locate access va 3 (h.csrs.rootPage * 0x1000) c = r' at hwalk
      cases hwalk with
      | ok ha _ =>
          obtain ⟨hdepth, hsound⟩ := Paging.locate_ok hb
          rw [bind_run_ok hb, bind_run_ok hc, Sv39.outcome_settle _ _ _ _ _ hsound,
            Sv39.outcome_settle _ _ _ _ _ (Paging.locate_ok hc).2, ha.refuses_eq hdepth,
            ha.physical_eq hdepth]
      | error _ =>
          rw [bind_run_error hb, bind_run_error hc]
          rfl
    · rfl
  · rw [physicalAddress_of_not_paged hpaged, physicalAddress_of_not_paged hpaged]
    rfl

/-- A walk that meets no device ends at a leaf in memory, or fails, and leaves the bus as it was. -/
lemma locate_of_walksMemory (hw : h.WalksMemory access b va) (hpaged : h.Paged access)
    (hcanon : Paging.canonical va = true) :
    (∃ leaf, h.Finds access va b leaf b ∧ b.ram.contains leaf.entry 8 = true) ∨
    ∃ e, Paging.locate access va 3 (h.csrs.rootPage * 0x1000) b = .error e b := by
  have hcanon' := (Sv39.canonical_iff va).mp hcanon
  rcases Sv39.locate_cases access (Nat.le_refl 3) (Sv39.toNat_rootPage h) (Sv39.root_lt h)
      (hw hpaged hcanon') with ⟨leaf, hl, _, hpte, _⟩ | ⟨level, entry, hm, hc⟩ | hfault
  · exact Or.inl ⟨leaf, ⟨hpaged, hcanon, hl⟩, ((Sv39.doubleword?_eq_some_iff _ _ _).mp hpte).1⟩
  · exact Or.inr ⟨_, Sv39.locate_of_strays access ⟨hcanon', level, entry, hm, hc⟩⟩
  · exact Or.inr ⟨_, hfault⟩

/-- **What a translation does.**  It leaves the bus as it was, and with paging on that is a failure,
    or it ends at a leaf in memory and sets its marks in the lowest byte of that leaf. -/
lemma translate_effect (hw : h.WalksMemory access b va) :
    finalState (h.translate access va b) = b ∧
        (h.Paged access → ∃ e, h.translate access va b = .error e b) ∨
    ∃ leaf m, h.Finds access va b leaf b ∧ b.ram.contains leaf.entry 8 = true ∧
      h.translate access va b =
        .ok (Paging.physical leaf.pte leaf.depth va) { b with ram := m } ∧
      b.ram.SetsBits m leaf.entry.toNat access.mark ∧
      (b.ram.load leaf.entry .double ||| access.mark.toUInt64 = b.ram.load leaf.entry .double →
        m = b.ram) := by
  rw [translate]
  by_cases hpaged : h.Paged access
  · rw [physicalAddress_of_paged hpaged]
    cases hcanon : Paging.canonical va with
    | false => exact Or.inl ⟨rfl, fun _ => ⟨_, rfl⟩⟩
    | true =>
        simp only [if_true]
        rcases locate_of_walksMemory hw hpaged hcanon with ⟨leaf, hf, hram⟩ | ⟨e, he⟩
        · rw [bind_run_ok hf.2.2]
          rcases Paging.settle_cases h.csrs.mstatus (h.effectiveLevel access) true access va
              hf.sound with ⟨_, hs⟩ | ⟨hpermits, _⟩
          · rw [hs]
            exact Or.inl ⟨rfl, fun _ => ⟨_, rfl⟩⟩
          · obtain ⟨m, hs, hsets, hself⟩ := Paging.settle_of_ram hf.sound hram hpermits va
            exact Or.inr ⟨leaf, m, hf, hram, hs, hsets, hself⟩
        · rw [bind_run_error he]
          exact Or.inl ⟨rfl, fun _ => ⟨_, rfl⟩⟩
  · rw [physicalAddress_of_not_paged hpaged]
    exact Or.inl ⟨rfl, fun hp => absurd hp hpaged⟩

/-- The bus before and after a translation. -/
lemma markedApart_translate (hw : h.WalksMemory access b va) :
    b.MarkedApart (finalState (h.translate access va b)) := by
  rcases translate_effect hw with ⟨hsame, _⟩ | ⟨leaf, m, hf, _, ht, hsets, _⟩
  · rw [hsame]
    exact Bus.MarkedApart.refl b
  · rw [ht]
    exact ⟨hsets.marked hf.sound.aligned access.mark_and, rfl, rfl⟩

/-- **A translation finds its own marks and adds none.** -/
lemma translate_again (hw : h.WalksMemory access b va) :
    h.translate access va (finalState (h.translate access va b)) = h.translate access va b := by
  have hapart := markedApart_translate hw
  rcases translate_effect hw with ⟨hsame, _⟩ | ⟨leaf, m, hf, hram, ht, hsets, _⟩
  · rw [hsame]
  · rw [ht, finalState_ok] at hapart ⊢
    have hresult : outcome (h.translate access va { b with ram := m }) =
        outcome (h.translate access va b) := outcome_physicalAddress hapart h true true access va
    rw [ht] at hresult
    have hw' : h.WalksMemory access { b with ram := m } va :=
      hw.of_sameTables (Sv39.Marked.sameTables hapart.ram) ⟨hapart.ram.base, hapart.ram.size, rfl⟩
    rcases translate_effect hw' with ⟨_, hfails⟩ | ⟨leaf', m', hf', _, ht', _, hself⟩
    · obtain ⟨e, he⟩ := hfails hf.1
      rw [he] at hresult
      cases hresult
    · -- the second walk ends at the entry that the first one has marked
      have hwalk := Sv39.together_locate hapart access va h.csrs.rootPage 3
      rw [hf.2.2, hf'.2.2] at hwalk
      obtain ⟨halike, _⟩ := hwalk
      rw [halike.entry] at hself
      rw [ht'] at hresult ⊢
      rw [hself (hsets.load_or hram)]
      rw [outcome, outcome, Except.ok.injEq] at hresult
      rw [hresult]

/-- **Marks disturb no translation.**  As long as the walk of an address meets no device, a look at
    it finds what the hart would find, and leaves the bus as it was.  A translation that fails
    leaves it so too, and one that succeeds changes a single byte: in the lowest byte of the leaf at
    which the walk ends, the marks of the access are set.  The same translation again changes
    nothing more, and every translation of every address has the same result afterwards as
    before. -/
theorem marks_disturb_no_translation {c : Bus} (hw : h.WalksMemory access b va)
    (hc : finalState (h.translate access va b) = c) :
    (outcome (h.inspect access va b) = outcome (h.translate access va b) ∧
      finalState (h.inspect access va b) = b) ∧
    (∀ e, outcome (h.translate access va b) = .error e → c = b) ∧
    (∀ pa, outcome (h.translate access va b) = .ok pa →
      (¬h.Paged access → c = b) ∧
      (h.Paged access → ∃ level entry pte, Sv39.EndsAt h b.ram va.toNat level entry pte ∧
        c = { b with ram := c.ram } ∧ b.ram.SetsBits c.ram entry access.mark)) ∧
    h.translate access va c = h.translate access va b ∧
    ∀ access' va', outcome (h.translate access' va' c) = outcome (h.translate access' va' b) := by
  subst hc
  refine ⟨⟨?_, ?_⟩, fun e he => ?_, fun pa hpa => ⟨fun hoff => ?_, fun hpaged => ?_⟩,
    translate_again hw, fun access' va' => ?_⟩
  · exact outcome_physicalAddress (Bus.MarkedApart.refl b) h true false access va
  · rcases inspect_cases hw with ⟨pa, t, _, hi⟩ | ⟨e, _, hi⟩ <;> rw [hi] <;> rfl
  · rcases translate_effect hw with ⟨hsame, _⟩ | ⟨leaf, m, _, _, ht, _⟩
    · exact hsame
    · rw [ht] at he
      cases he
  · rw [translate, physicalAddress_of_not_paged hoff]
    rfl
  · rcases translate_effect hw with ⟨_, hfails⟩ | ⟨leaf, m, hf, hram, ht, hsets, _⟩
    · obtain ⟨e, he⟩ := hfails hpaged
      rw [he] at hpa
      cases hpa
    · rw [ht]
      exact ⟨_, _, _, Sv39.endsAt_of_finds (hw hpaged) hf, rfl, hsets⟩
  · exact outcome_physicalAddress (markedApart_translate hw) h true true access' va'

/-- A store to the entry that it is translated by, in a table that serves all three levels. -/
theorem folded_table_undisturbed :
    Sv39.pagedHart.WalksMemory .store (Bus.ofMemory Debugger.Session.foldedTable) 0x2010 ∧
    ∃ c, Sv39.pagedHart.translate .store 0x2010 (Bus.ofMemory Debugger.Session.foldedTable) =
        .ok 0x80000010 c ∧
      Debugger.Session.foldedTable.byte 0x10 = 0x0F ∧ c.ram.byte 0x10 = 0xCF ∧
      Sv39.pagedHart.translate .store 0x2010 c = .ok 0x80000010 c ∧
      ∀ access' va', outcome (Sv39.pagedHart.translate access' va' c) =
        outcome (Sv39.pagedHart.translate access' va'
          (Bus.ofMemory Debugger.Session.foldedTable)) := by
  have hw : Sv39.pagedHart.WalksMemory .store (Bus.ofMemory Debugger.Session.foldedTable) 0x2010 :=
    Debugger.Session.walksMemory_folded (by decide)
  obtain ⟨pa, c, ht, htest⟩ := ok_of_passes
    (fun pa c => pa == 0x80000010 && c.ram.byte 0x10 == 0xCF)
    (r := Sv39.pagedHart.translate .store 0x2010 (Bus.ofMemory Debugger.Session.foldedTable))
    (by decide +kernel)
  rw [Bool.and_eq_true, beq_iff_eq, beq_iff_eq] at htest
  obtain ⟨rfl, hbyte⟩ := htest
  obtain ⟨_, _, _, hagain, hothers⟩ := marks_disturb_no_translation hw (c := c) (by rw [ht]; rfl)
  rw [ht] at hagain
  exact ⟨hw, c, ht, by decide +kernel, hbyte, hagain, hothers⟩

end Hart

end Rv64Board
