import Rv64Board.Board.Execute
import Rv64Board.Proofs.Walk

/-!
# What loads and stores leave

The hart reaches memory for data in two ways: aligned accesses, which are one access to the bus, and
misaligned ones, which go byte by byte.

* `Instruction.access?` — the addresses that an instruction asks for, and what for.
* `changed_load` — a load changes memory only by the marks of its translations, whether it answers
  or faults, and though it may read from devices on the way.
* `writeEach_of_backed` — **a row of bytes that is backed is written to its end.**  The fault in the
  middle of such a row is never taken.
* `TranslatedOnly` — a bus that differs from an earlier one only by what translations did.  It holds
  after every store that faults (`store_error`), whichever of its bytes is at fault: nothing has
  been stored, neither in memory nor in a device.
-/

namespace Rv64Board

/-- The data that an instruction accesses: what for, from which address on, and how much. -/
def Instruction.access? (h : Hart) : Instruction → Option (Access × UInt64 × Width)
  | .load kind _ rs1 offset => some (.load, h.get rs1 + UInt64.ofInt offset, kind.width.1)
  | .store kind rs1 _ offset => some (.store, h.get rs1 + UInt64.ofInt offset, kind.width)
  | .loadReserved kind _ rs1 => some (.load, h.get rs1, kind.width)
  | .storeConditional kind _ rs1 _ => some (.store, h.get rs1, kind.width)
  | .amo _ kind _ rs1 _ => some (.store, h.get rs1, kind.width)
  | _ => none

namespace Hart

/-! ## Rows of bytes -/

/-- The first byte of an access stands at its address. -/
lemma byteAddresses_eq_cons (address : UInt64) (w : Width) :
    ∃ later, byteAddresses address w = address :: later := by
  have hfirst : address + UInt64.ofNat 0 = address := by simp
  cases w <;> exact ⟨_, by rw [byteAddresses, Width.bytes, List.range_succ_eq_map, List.map_cons,
    hfirst]⟩

lemma MarkedBy.append {h : Hart} {access : Access} {row : List UInt64} {b : Bus} {j : Nat}
    (hm : h.MarkedBy access row b j) (more : List UInt64) :
    h.MarkedBy access (row ++ more) b j := by
  obtain ⟨earlier, address, later, rfl, hrest⟩ := hm
  exact ⟨earlier, address, later ++ more, by simp, hrest⟩

lemma leaves_readEach {R : Bus → Bus → Prop} [IsPreorder Bus R]
    (hread : ∀ a w, Leaves R (Bus.read a w)) (fault : Exception) (row : List UInt64) :
    Leaves R (readEach fault row) := by
  induction row with
  | nil => exact Leaves.pure _
  | cons a row ih =>
      refine Leaves.bind (hread _ _).adaptExcept fun v => ?_
      exact Leaves.bind ih fun rest => Leaves.pure _

/-- **A row of bytes that is backed is written to its end.** -/
lemma writeEach_of_backed (fault : Exception) (row : List (UInt64 × UInt8)) (b : Bus)
    (hb : ∀ p ∈ row, b.contains p.1 1 = true) : ∃ b', writeEach fault row b = .ok () b' := by
  induction row generalizing b with
  | nil => exact ⟨b, rfl⟩
  | cons p row ih =>
      obtain ⟨a, v⟩ := p
      obtain ⟨c, hwrite⟩ := Bus.write_of_contains (w := .byte) (hb (a, v) (List.mem_cons_self ..))
        v.toUInt64
      have hmap := (Bus.leaves_sameMap_write _ _ _).of_ok hwrite
      obtain ⟨b', hrest⟩ := ih c fun p hp => by
        rw [hmap.contains_eq]
        exact hb p (List.mem_cons_of_mem _ hp)
      refine ⟨b', ?_⟩
      rw [writeEach, bind_run_ok (adaptExcept_eq_ok.mpr hwrite)]
      exact hrest

/-! ## Loads -/

/-- **A load changes memory by the marks of its translations only,** also if it faults. -/
lemma changed_load {h : Hart} {address : UInt64} {w : Width} {b : Bus} {j : Nat}
    (hj : (finalState (h.load address w b)).ram.byte j ≠ b.ram.byte j) :
    h.MarkedBy .load (byteAddresses address w) b j := by
  rw [load] at hj
  split at hj
  · obtain ⟨later, hrow⟩ := byteAddresses_eq_cons address w
    rw [hrow]
    apply changed_translate
    intro heq
    apply hj
    rw [← heq]
    cases ht : h.translate .load address b with
    | error e c => rw [bind_run_error ht]
    | ok pa c =>
        rw [bind_run_ok ht, (Bus.leaves_sameRam_read _ _).adaptExcept c]
        rfl
  · apply changed_translateAll
    intro heq
    apply hj
    rw [← heq]
    cases ht : h.translateAll .load (byteAddresses address w) b with
    | error e c =>
        rw [bind_run_error ht]
        rfl
    | ok row c =>
        rw [bind_run_ok ht]
        cases hr : readEach (.loadAccessFault address) row c with
        | error e t =>
            rw [bind_run_error hr]
            exact congrArg (·.byte j) ((leaves_readEach Bus.leaves_sameRam_read _ _).of_error hr)
        | ok bytes t =>
            rw [bind_run_ok hr]
            exact congrArg (·.byte j) ((leaves_readEach Bus.leaves_sameRam_read _ _).of_ok hr)

lemma leaves_ramMarked_load (h : Hart) (address : UInt64) (w : Width) :
    Leaves Bus.RamMarked (h.load address w) := by
  rw [load]
  split
  · exact Leaves.bind (leaves_ramMarked_translate h .load address) fun pa =>
      (Bus.leaves_ramMarked_read pa w).adaptExcept
  · refine Leaves.bind (leaves_translateAll (leaves_ramMarked_translate h .load) _) fun row => ?_
    exact Leaves.bind (leaves_readEach Bus.leaves_ramMarked_read _ row) fun bytes => Leaves.pure _

/-- An aligned load is one translation and one access. -/
lemma load_of_aligned {address : UInt64} {w : Width} (ha : w.aligned address = true) (h : Hart) :
    h.load address w = h.translate .load address >>= fun pa =>
      EStateM.adaptExcept (fun _ => Exception.loadAccessFault address) (Bus.read pa w) := by
  rw [load, if_pos ha]

/-! ## Stores that fault -/

/-- A bus after some of the bytes of a store have been translated, and nothing else has been
    done. -/
def TranslatedOnly (h : Hart) (address : UInt64) (w : Width) (b b' : Bus) : Prop :=
  ∃ n, finalState (h.translateAll .store ((byteAddresses address w).take n) b) = b'

lemma TranslatedOnly.refl (h : Hart) (address : UInt64) (w : Width) (b : Bus) :
    h.TranslatedOnly address w b b := ⟨0, rfl⟩

/-- One translation, of the address of the access. -/
lemma TranslatedOnly.one (h : Hart) (address : UInt64) (w : Width) (b : Bus) :
    h.TranslatedOnly address w b (finalState (h.translate .store address b)) := by
  refine ⟨1, ?_⟩
  obtain ⟨later, hrow⟩ := byteAddresses_eq_cons address w
  rw [hrow, List.take_succ_cons, List.take_zero]
  cases ht : h.translate .store address b with
  | error e c =>
      rw [translateAll, bind_run_error ht]
      rfl
  | ok pa c =>
      rw [finalState_translateAll_cons ht]
      rfl

/-- All translations. -/
lemma TranslatedOnly.all (h : Hart) (address : UInt64) (w : Width) (b : Bus) :
    h.TranslatedOnly address w b
      (finalState (h.translateAll .store (byteAddresses address w) b)) :=
  ⟨(byteAddresses address w).length, by rw [List.take_length]⟩

lemma TranslatedOnly.marked {h : Hart} {address : UInt64} {w : Width} {b b' : Bus}
    (ht : h.TranslatedOnly address w b b') : Memory.Marked b.ram b'.ram := by
  obtain ⟨n, rfl⟩ := ht
  exact leaves_translateAll (leaves_ramMarked_translate h .store) _ b

lemma TranslatedOnly.changed {h : Hart} {address : UInt64} {w : Width} {b b' : Bus}
    (ht : h.TranslatedOnly address w b b') {j : Nat} (hj : b'.ram.byte j ≠ b.ram.byte j) :
    h.MarkedBy .store (byteAddresses address w) b j := by
  obtain ⟨n, rfl⟩ := ht
  have hm := (changed_translateAll hj).append ((byteAddresses address w).drop n)
  rwa [List.take_append_drop] at hm

/-- **A store that faults has stored nothing,** in memory or in a device: all it has done is to
    translate. -/
lemma store_error {h : Hart} {address : UInt64} {w : Width} {value : UInt64} {b b' : Bus}
    {e : Exception} (hs : h.store address w value b = .error e b') :
    h.TranslatedOnly address w b b' := by
  rw [store] at hs
  split at hs
  · rcases bind_eq_error hs with ht | ⟨pa, c, ht, hw⟩
    · have hone := TranslatedOnly.one h address w b
      rwa [ht] at hone
    · rw [adaptExcept_eq_error] at hw
      obtain ⟨f, _, hw⟩ := hw
      have hone := TranslatedOnly.one h address w b
      rw [ht] at hone
      rw [Bus.eq_of_write_error hw]
      exact hone
  · have hall := TranslatedOnly.all h address w b
    rcases bind_eq_error hs with ht | ⟨row, c, ht, hrest⟩
    · rwa [ht] at hall
    · rw [ht, finalState_ok] at hall
      obtain hbacked | ⟨all, c', hbacked, hrest⟩ := bind_eq_error hrest
      · cases hbacked
      · cases hbacked
        split at hrest
        · next hevery =>
          -- every byte is backed, so the row is written to its end
          obtain ⟨b'', hw⟩ := writeEach_of_backed (.storeAccessFault address)
            (row.zip (LittleEndian.toBytes w.bytes value.toNat)) c fun p hp => by
              rw [List.all_eq_true] at hevery
              exact hevery p.1 (List.of_mem_zip hp).1
          rw [hw] at hrest
          cases hrest
        · cases hrest
          exact hall

lemma atomicAddress_error {h : Hart} {address : UInt64} {w : Width} {b b' : Bus} {e : Exception}
    (ha : h.atomicAddress address w b = .error e b') : h.TranslatedOnly address w b b' := by
  rw [atomicAddress] at ha
  split at ha
  · have hone := TranslatedOnly.one h address w b
    rwa [ha] at hone
  · cases ha
    exact TranslatedOnly.refl h address w b

lemma atomicAddress_ok {h : Hart} {address : UInt64} {w : Width} {b b' : Bus} {pa : UInt64}
    (ha : h.atomicAddress address w b = .ok pa b') :
    w.aligned address = true ∧ h.translate .store address b = .ok pa b' := by
  rw [atomicAddress] at ha
  split at ha
  · exact ⟨by assumption, ha⟩
  · cases ha

lemma TranslatedOnly.of_translate_ok {h : Hart} {address : UInt64} (w : Width) {b b' : Bus}
    {pa : UInt64} (ht : h.translate .store address b = .ok pa b') :
    h.TranslatedOnly address w b b' := by
  have hone := TranslatedOnly.one h address w b
  rwa [ht] at hone

end Hart

end Rv64Board
