import Rv64Board.Proofs.MarkedTables
import Rv64Board.Proofs.MemoryChanges
import Rv64Board.Proofs.Reachable

/-!
# User memory isolation

What a user can do to memory is up to the page tables.

Two facts do the work.  Below machine level the rights of an access are those of the level
(`Reachable.ownRights`), so a user's store needs a leaf that is writable and the user's.  And the
tables that count are those from before the instruction: the marks that an access leaves on its way
lead no later translation of it astray (`Marked.sameTables`).

* `Hart.Isolated` — a hart at user level, with paging on.
* `UserWritable` — a leaf that lets the user store.
* `userStores_of_wrote`, `leafAt_of_markedBy` — where a changed byte comes from, by the tables from
  before.
* `user_memory_isolation` — **a user's instruction changes memory through such leaves only,** marks
  aside.
-/

namespace Rv64Board

/-- The bytes of an aligned access are in one page, one after the other. -/
lemma Width.toNat_byte_of_aligned {w : Width} {address : UInt64} (ha : w.aligned address = true)
    {k : Nat} (hk : k < w.bytes) :
    (address + UInt64.ofNat k).toNat = address.toNat + k ∧
      (address.toNat + k) / 2 ^ 12 = address.toNat / 2 ^ 12 := by
  have hlt := address.toNat_lt
  rw [Width.aligned, beq_iff_eq] at ha
  have hbytes : w.bytes = 1 ∨ w.bytes = 2 ∨ w.bytes = 4 ∨ w.bytes = 8 := by cases w <;> simp [bytes]
  have hofNat : (UInt64.ofNat k).toNat = k :=
    UInt64.toNat_ofNat_of_lt' (by rw [UInt64.size]; omega)
  rw [UInt64.toNat_add, hofNat]
  rcases hbytes with h | h | h | h <;> rw [h] at ha hk <;> omega

namespace Hart

/-! ## The tables from before -/

/-- Translations leave the tables the same, and the map of addresses too. -/
lemma sameTables_translateAll {h : Hart} {access : Access} {row found : List UInt64} {b c : Bus}
    (hrun : h.translateAll access row b = .ok found c) :
    Sv39.SameTables b.ram c.ram ∧ Bus.SameMap b c :=
  ⟨Sv39.Marked.sameTables
      ((leaves_translateAll (leaves_ramMarked_translate h access) row).of_ok hrun),
    (leaves_translateAll (leaves_sameMap_translate h access) row).of_ok hrun⟩

/-- A hart at user level, with paging on and with the rights of that level. -/
structure Isolated (h : Hart) : Prop where
  user : h.privilege = .user
  paging : h.csrs.sv39Enabled = true
  ownRights : h.OwnRights

variable {h : Hart} {access : Access}

lemma Isolated.effectiveLevel (hh : h.Isolated) (access : Access) :
    h.effectiveLevel access = .user := by
  have hoff : h.csrs.mstatus.test Mstatus.mprv = false :=
    hh.ownRights (by rw [hh.user]; decide)
  rw [Hart.effectiveLevel, hoff, hh.user]
  simp

lemma Isolated.paged (hh : h.Isolated) (access : Access) : h.Paged access :=
  ⟨by rw [hh.effectiveLevel]; decide, hh.paging⟩

end Hart

namespace Sv39

/-- A leaf that lets the user store: valid, readable, writable and the user's. -/
structure UserWritable (pte : Nat) : Prop where
  valid : pte.testBit 0 = true
  readable : pte.testBit 1 = true
  writable : pte.testBit 2 = true
  user : pte.testBit 4 = true

/-- What the user's stores are translated through. -/
lemma userWritable_of_permits {status pte : Nat} (hleaf : IsLeaf pte)
    (hp : Permits status pte .store .user) : UserWritable pte :=
  ⟨hleaf.valid, hleaf.writable hp.1, hp.1, hp.2⟩

lemma SameEntry.userWritable {pte pte' : Nat} (hs : SameEntry pte pte') (hu : UserWritable pte) :
    UserWritable pte' where
  valid := (hs 0 (by decide) (by decide)).trans hu.valid
  readable := (hs 1 (by decide) (by decide)).trans hu.readable
  writable := (hs 2 (by decide) (by decide)).trans hu.writable
  user := (hs 4 (by decide) (by decide)).trans hu.user

/-- The user's stores to `va` go to `pa`. -/
def UserStores (h : Hart) (m : Memory) (va pa : Nat) : Prop :=
  ∃ level entry pte, EndsAt h m va level entry pte ∧ UserWritable pte ∧
    ppn pte % 2 ^ (9 * level) = 0 ∧ pa = physical pte va level

/-- The walk of `va` ends at the leaf entry at `entry`. -/
def LeafAt (h : Hart) (m : Memory) (va entry : Nat) : Prop :=
  ∃ level pte, EndsAt h m va level entry pte

variable {h : Hart} {access : Access} {address : UInt64} {w : Width} {b : Bus} {j : Nat}

/-- A byte that was marked is the lowest byte of a leaf of the tables from before. -/
lemma leafAt_of_markedBy {row : List UInt64}
    (htables : ∀ va ∈ row, InMemoryOrUnmapped h b va.toNat) (hj : h.MarkedBy access row b j) :
    ∃ va ∈ row, LeafAt h b.ram va.toNat (b.ram.base.toNat + j) := by
  obtain ⟨earlier, va, later, rfl, found, c, leaf, c', hrun, hfinds, hin, rfl⟩ := hj
  obtain ⟨hsame, hmap⟩ := Hart.sameTables_translateAll hrun
  have hmem : va ∈ earlier ++ va :: later := by simp
  have hend := endsAt_of_finds ((htables va hmem).of_sameTables hsame hmap) hfinds
  obtain ⟨pte, hend, _⟩ := hend.of_sameTables hsame.symm
  rw [← hmap.base, Memory.base_add_offset hin]
  exact ⟨va, hmem, _, pte, hend⟩

/-- A byte that was stored to is one that a leaf of the tables from before gives to the user. -/
lemma userStores_of_wrote (hh : h.Isolated)
    (htables : ∀ va ∈ Hart.byteAddresses address w, InMemoryOrUnmapped h b va.toNat)
    (hj : h.Wrote address w b j) :
    ∃ va ∈ Hart.byteAddresses address w, UserStores h b.ram va.toNat (b.ram.base.toNat + j) := by
  obtain ⟨earlier, va, later, hrow, found, c, pa, c', k, hrun, hva, hbyte, hk⟩ := hj
  obtain ⟨hsame, hmap⟩ := Hart.sameTables_translateAll hrun
  have hmem : va ∈ Hart.byteAddresses address w := by
    rw [hrow]
    simp
  obtain ⟨level, entry, pte', hend, hpermits, haligned, hpa⟩ := translates_of_translate
    (hh.paged .store) ((htables va hmem).of_sameTables hsame hmap) hva
  rw [hh.effectiveLevel] at hpermits
  have huser := userWritable_of_permits hend.2.2.2 hpermits
  -- the leaf was read after the earlier bytes were translated, and differs from before by marks
  obtain ⟨pte, hend, hentry⟩ := hend.of_sameTables hsame.symm
  replace huser := hentry.userWritable huser
  rw [← hentry.ppn_eq] at haligned
  rw [hbyte, hpa, ← hentry.physical_eq]
  rcases hk with rfl | ⟨rfl, ha, hlt⟩
  · exact ⟨va, hmem, level, entry, pte, hend, huser, haligned, Nat.add_zero _⟩
  · -- the byte is further on in the page that the first address leads to
    obtain ⟨hnat, hpage⟩ := Width.toNat_byte_of_aligned ha hlt
    refine ⟨va + UInt64.ofNat k, List.mem_map.mpr ⟨k, List.mem_range.mpr hlt, rfl⟩, ?_⟩
    rw [hnat]
    exact ⟨level, entry, pte, hend.of_page_eq hpage, huser, haligned,
      (physical_add hpage pte level).symm⟩

end Sv39

namespace Machine

/-! ## Isolation -/

/-- **User memory isolation.**  In every reachable machine that is below machine level, accesses are
    made with the rights of that level.  So at user level, with paging on and with page tables that
    are in memory as far as they exist, an instruction changes a byte of memory, whether it
    completes or faults, only if the tables from before give the byte to the user's stores at one of
    the addresses that it stores to, or if the byte is the lowest of a leaf entry that one of its
    addresses leads to, and then it only gains accessed and dirty bits. -/
theorem user_memory_isolation {m : Machine} (hm : m.Reachable) :
    (m.board.hart.privilege ≠ .machine → m.board.hart.csrs.mstatus.test Mstatus.mprv = false) ∧
    (m.board.hart.privilege = .user → m.board.hart.csrs.sv39Enabled = true →
      ∀ i raw len,
        (∀ access address w, i.access? m.board.hart = some (access, address, w) →
          ∀ va ∈ Hart.byteAddresses address w,
            Sv39.InMemoryOrUnmapped m.board.hart m.board.bus va.toNat) →
        ∀ b', finalState (Board.execute i raw len m.board) = b' →
        ∀ j, b'.bus.ram.byte j ≠ m.board.bus.ram.byte j →
          ∃ access address w, i.access? m.board.hart = some (access, address, w) ∧
            ∃ va ∈ Hart.byteAddresses address w,
              access = .store ∧ Sv39.UserStores m.board.hart m.board.bus.ram va.toNat
                (m.board.bus.ram.base.toNat + j) ∨
              Sv39.LeafAt m.board.hart m.board.bus.ram va.toNat
                (m.board.bus.ram.base.toNat + j) ∧
                Gains (m.board.bus.ram.byte j) (b'.bus.ram.byte j)) := by
  refine ⟨hm.ownRights, ?_⟩
  rintro huser hpaging i raw len htables b' rfl j hj
  have hh : m.board.hart.Isolated := ⟨huser, hpaging, hm.ownRights⟩
  obtain ⟨access, address, w, hi, ⟨rfl, hwrote⟩ | ⟨hmarked, hgains⟩⟩ := Board.execute_changes hj
  · obtain ⟨va, hva, hstores⟩ := Sv39.userStores_of_wrote hh (htables _ _ _ hi) hwrote
    exact ⟨.store, address, w, hi, va, hva, Or.inl ⟨rfl, hstores⟩⟩
  · obtain ⟨va, hva, hleaf⟩ := Sv39.leafAt_of_markedBy (htables _ _ _ hi) hmarked
    exact ⟨access, address, w, hi, va, hva, Or.inr ⟨hleaf, hgains⟩⟩

/-- An image whose first page is also a root table, with a leaf that gives the user the gigabyte of
    memory.  The program around it turns paging on and returns to user level. -/
def sandboxImage : List UInt8 :=
  [0x0180006F, 0, 0, 0, 0x2000001F, 0, 0x00100513, 0x03F51513, 0x000805B7, 0x00B56533, 0x18051073,
    0x00000597, 0x01058593, 0x34159073, 0x30200073].flatMap (LittleEndian.toBytes 4)

/-- A machine with a page of memory and this image. -/
def sandboxLoaded : Except MachineError Machine := do
  let m ← Machine.new { MachineConfig.default with ramSize := 0x1000 }
  m.load sandboxImage

/-- The machine once its program has come to user level. -/
def sandbox : Machine :=
  match sandboxLoaded with
  | .ok m => (m.runFor 10).2
  | .error _ => default

lemma reachable_sandbox : sandbox.Reachable := by
  have hok : sandboxLoaded.isOk = true := by decide +kernel
  rw [sandbox]
  split
  · next m hload =>
    refine Reachable.runFor 10 ?_
    rw [sandboxLoaded] at hload
    cases hnew : Machine.new { MachineConfig.default with ramSize := 0x1000 } with
    | error e =>
        rw [hnew] at hload
        cases hload
    | ok m₀ =>
        rw [hnew] at hload
        exact Reachable.load (Reachable.new hnew) hload
  · next e hload =>
    rw [hload] at hok
    cases hok

/-- A misaligned store of the user. -/
def sandboxStore : Instruction := .store .d Reg.a1 Reg.a0 0

/-- The state of the machine and of its tables, and what the store does to memory. -/
lemma sandbox_state :
    sandbox.board.hart.privilege = .user ∧ sandbox.board.hart.csrs.sv39Enabled = true ∧
    sandbox.board.bus.ram.doubleword? (Sv39.root sandbox.board.hart * 2 ^ 12 + 2 * 8) =
      some 0x2000001F ∧
    (Hart.byteAddresses (sandbox.board.hart.get Reg.a1 + UInt64.ofInt 0) .double).all
      (fun va => decide (Sv39.vpn va.toNat 2 = 2)) = true ∧
    (∀ j ∈ [62, 16], (finalState (Board.execute sandboxStore 0 4 sandbox.board)).bus.ram.byte j ≠
      sandbox.board.bus.ram.byte j) := by
  decide +kernel

/-- The walk of an address in the user's gigabyte stays in memory: it ends at the first entry. -/
lemma inMemory_sandbox {va : Nat} (hva : Sv39.vpn va 2 = 2) :
    Sv39.InMemoryOrUnmapped sandbox.board.hart sandbox.board.bus va := by
  have hleaf := sandbox_state.2.2.1
  intro _ level entry hm
  cases hm with
  | here =>
      rw [hva, hleaf]
      exact Or.inl rfl
  | through hpte hpointer _ =>
      rw [hva, hleaf] at hpte
      obtain rfl := Option.some.inj hpte
      exact absurd hpointer.notReadable (by decide)

/-- The store changes a byte of the user's memory, and the lowest byte of the leaf that gives it to
    the user. -/
theorem sandbox_store_isolated :
    sandbox.board.hart.privilege = .user ∧
    ∃ b', finalState (Board.execute sandboxStore 0 4 sandbox.board) = b' ∧
      ∀ j ∈ [62, 16], b'.bus.ram.byte j ≠ sandbox.board.bus.ram.byte j ∧
        ∃ access address w, sandboxStore.access? sandbox.board.hart = some (access, address, w) ∧
          ∃ va ∈ Hart.byteAddresses address w,
            access = .store ∧ Sv39.UserStores sandbox.board.hart sandbox.board.bus.ram va.toNat
              (sandbox.board.bus.ram.base.toNat + j) ∨
            Sv39.LeafAt sandbox.board.hart sandbox.board.bus.ram va.toNat
              (sandbox.board.bus.ram.base.toNat + j) ∧
              Gains (sandbox.board.bus.ram.byte j) (b'.bus.ram.byte j) := by
  obtain ⟨huser, hpaging, _, hvpn, hchanged⟩ := sandbox_state
  refine ⟨huser, _, rfl, fun j hj => ⟨hchanged j hj, ?_⟩⟩
  refine (user_memory_isolation reachable_sandbox).2 huser hpaging sandboxStore 0 4 ?_ _ rfl j
    (hchanged j hj)
  intro access address w hi va hva
  have haccess : (Access.store, sandbox.board.hart.get Reg.a1 + UInt64.ofInt 0, Width.double) =
      (access, address, w) := Option.some.inj hi
  rw [Prod.mk.injEq, Prod.mk.injEq] at haccess
  obtain ⟨_, rfl, rfl⟩ := haccess
  exact inMemory_sandbox (of_decide_eq_true (List.all_eq_true.mp hvpn va hva))

end Machine

end Rv64Board
