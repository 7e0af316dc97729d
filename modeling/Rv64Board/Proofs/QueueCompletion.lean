import Mathlib.Data.Nat.ModEq
import Rv64Board.Proofs.QueueLayout

/-!
# Requests complete once and in order

The driver posts requests in the available ring and the device reports them in the used ring.  Both
rings have an index that runs freely through 16 bits, and a request may go wrong at many points; it
is reported all the same.

* `chain_run` — the links of a request depend on the descriptors only.
* `sameIn_serve` — a request that spares the tables leaves them alone, **however it ends.**
* `pushUsed_run`, with the lemmas on `withReport` — a report takes the next slot of the used ring
  and changes nothing else.
* `Completed`, `Served` — one entry of the available ring dealt with, and the first `j` of them;
  `Served.step` leads from one to the next and `Served.run` to the last.
* `requests_complete_in_order` — **a step of the device reports every request that waits, in the
  order of the available ring,** also where the indices run over.
-/

namespace Rv64Board

open Rv64Board.Span

namespace VirtioBlock

open Transfer VirtioQueue

variable {q : VirtioQueue} {m m' : Memory} {t u : Transfer}

lemma read_run {address : UInt64} {w : Width} (h : (stretch address w.bytes).Within t.ram.span) :
    Transfer.read address w t = .ok (t.ram.load address w) t := by
  rw [Transfer.read, if_pos (Memory.contains_of_within h)]

lemma write_run {address : UInt64} {w : Width} (value : UInt64)
    (h : (stretch address w.bytes).Within t.ram.span) :
    Transfer.write address w value t = .ok () ⟨t.ram.store address w value, t.disk⟩ := by
  rw [Transfer.write, if_pos (Memory.contains_of_within h)]

/-! ## Requests -/

/-- **A table in memory can be read,** and two memories with the same table have the same
    descriptors. -/
lemma descriptor_run (hq : q.Placed m) {index : UInt16} (hi : index.toNat < q.size.toNat) :
    ∃ d, ∀ t : Transfer, Memory.SameIn q.descriptorTable m t.ram →
      descriptor q index t = .ok d t := by
  refine ⟨⟨m.load (q.descriptors + 16 * index.toUInt64) .double,
    (m.load (q.descriptors + 16 * index.toUInt64 + 8) .word).toUInt32,
    (m.load (q.descriptors + 16 * index.toUInt64 + 12) .half).toUInt16,
    (m.load (q.descriptors + 16 * index.toUInt64 + 14) .half).toUInt16⟩, fun t ht => ?_⟩
  have hread {address : UInt64} {w : Width}
      (hin : (stretch address w.bytes).Within q.descriptorTable) :
      Transfer.read address w t = .ok (m.load address w) t := by
    rw [read_run (hin.trans (ht.holds hq.descriptors).within), ht.load_eq hq.descriptors.within hin]
  have hfirst : (stretch (q.descriptors + 16 * index.toUInt64) 8).Within q.descriptorTable := by
    rw [← UInt64.add_zero (q.descriptors + _)]
    exact hq.within_descriptor hi (by decide) (by decide)
  rw [descriptor, bind_run_ok (hread hfirst),
    bind_run_ok (hread (w := .word) (hq.within_descriptor hi (by decide) (by decide))),
    bind_run_ok (hread (w := .half) (hq.within_descriptor hi (by decide) (by decide))),
    bind_run_ok (hread (w := .half) (hq.within_descriptor hi (by decide) (by decide)))]
  rfl

/-- **The links of a request** depend on the table only. -/
lemma chain_run (hq : q.Placed m) (room : Nat) (index : UInt16) :
    ∃ links, ∀ t : Transfer, Memory.SameIn q.descriptorTable m t.ram →
      chain q room index t = .ok links t := by
  induction room generalizing index with
  | zero => exact ⟨[], fun t _ => rfl⟩
  | succ room ih =>
      obtain ⟨d, hd⟩ := descriptor_run hq (mod_size_lt hq.bounded hq.nonempty index)
      obtain ⟨rest, hrest⟩ := ih d.next
      cases hnext : d.hasNext with
      | true =>
          refine ⟨d :: rest, fun t ht => ?_⟩
          rw [chain, bind_run_ok (hd t ht), if_pos hnext, bind_run_ok (hrest t ht)]
          rfl
      | false =>
          refine ⟨[d], fun t ht => ?_⟩
          rw [chain, bind_run_ok (hd t ht), if_neg (by simp [hnext])]
          rfl

lemma mem_following {ε σ α : Type} {r : EStateM.Result ε σ α} {log : α → σ → List MemoryWrite}
    {x : MemoryWrite} (hx : x ∈ following r log) : ∃ a s, r = .ok a s ∧ x ∈ log a s := by
  cases r with
  | ok a s => exact ⟨a, s, rfl, hx⟩
  | error e s => cases hx

lemma length_moveWrites {direction : Direction} {position : Nat} {buffers : List Descriptor}
    {x : MemoryWrite} (hx : x ∈ moveWrites direction position buffers t) :
    ∃ d ∈ buffers, stretch x.address x.bytes.length = stretch d.address d.len.toNat := by
  induction buffers generalizing position t with
  | nil => cases direction <;> cases hx
  | cons d rest ih =>
      cases direction with
      | toDisk => cases hx
      | fromDisk =>
          rw [moveWrites, List.mem_cons] at hx
          rcases hx with rfl | hx
          · exact ⟨d, List.mem_cons_self, by rw [Memory.length_slice]⟩
          · obtain ⟨-, u, -, hx⟩ := mem_following hx
            obtain ⟨d', hd', hsame⟩ := ih hx
            exact ⟨d', List.mem_cons_of_mem _ hd', hsame⟩

lemma length_performWrites {limit : Nat} {kind : UInt32} {sector : UInt64}
    {buffers : List Descriptor} {x : MemoryWrite}
    (hx : x ∈ performWrites limit kind sector buffers t) :
    ∃ d ∈ buffers, stretch x.address x.bytes.length = stretch d.address d.len.toNat := by
  rw [performWrites] at hx
  split at hx
  · cases hx
  · split at hx
    · exact length_moveWrites hx
    · cases hx

/-- **A request writes to its own stretches only.** -/
lemma targets_of_serveWrites {head : UInt16} {links : List Descriptor}
    (hlinks : chain q q.size.toNat head t = .ok links u) {x : MemoryWrite}
    (hx : x ∈ serveWrites q head t) : stretch x.address x.bytes.length ∈ targets links := by
  rw [serveWrites, hlinks, following] at hx
  split at hx
  · next header second rest last hlast =>
    have htail : (second :: rest).getLast? = some last := by
      rwa [List.getLast?_cons_cons] at hlast
    rw [targets, List.tail_cons, htail]
    split at hx
    · obtain ⟨kind, t₁, -, hx⟩ := mem_following hx
      obtain ⟨sector, t₂, -, hx⟩ := mem_following hx
      rcases List.mem_append.mp hx with hx | hx
      · obtain ⟨d, hd, hsame⟩ := length_performWrites hx
        rw [hsame]
        exact List.mem_append_left _ (List.mem_map_of_mem hd)
      · obtain ⟨r, -, -, hx⟩ := mem_following hx
        rw [List.mem_singleton] at hx
        subst hx
        exact List.mem_append_right _ (List.mem_singleton_self _)
    · cases hx
  · cases hx

/-- **A request that spares the tables leaves them alone,** however it ends. -/
lemma sameIn_serve {disk : Memory} {head : UInt16} (hq : q.Placed m)
    (hspares : q.Spares m disk head) (ht : Memory.SameIn q.descriptorTable m t.ram) :
    Memory.SameIn q.descriptorTable t.ram (finalState (serve q head t)).ram ∧
      Memory.SameIn q.availableRing t.ram (finalState (serve q head t)).ram ∧
      Memory.SameIn q.usedRing t.ram (finalState (serve q head t)).ram := by
  obtain ⟨links, hlinks⟩ := chain_run hq q.size.toNat head
  have hapart := hspares links ⟨m, disk⟩ (hlinks ⟨m, disk⟩ (Memory.SameIn.refl _ m))
  have hwrites (x) (hx : x ∈ serveWrites q head t) :=
    hapart _ (targets_of_serveWrites (hlinks t ht) hx)
  have hmade := makes_serve q head t
  rw [Makes] at hmade
  rw [hmade]
  exact ⟨Memory.sameIn_replay fun x hx => (hwrites x hx).1,
    Memory.sameIn_replay fun x hx => (hwrites x hx).2.1,
    Memory.sameIn_replay fun x hx => (hwrites x hx).2.2⟩

/-! ## Reports -/

/-- Memory after a report in a slot of the used ring. -/
def withReport (q : VirtioQueue) (m : Memory) (slot : Nat) (head : UInt16) (len : UInt32)
    (next : UInt16) : Memory :=
  let entry := q.device + 4 + 8 * UInt64.ofNat slot
  ((m.store entry .word head.toUInt64).store (entry + 4) .word len.toUInt64).store (q.device + 2)
    .half next.toUInt64

/-- **A used ring in memory takes every report.** -/
lemma pushUsed_run (hq : q.Placed t.ram) (head : UInt16) (len : UInt32) :
    pushUsed q head len t = .ok () ⟨withReport q t.ram ((q.usedIndex t.ram).toNat % q.size.toNat)
      head len (q.usedIndex t.ram + 1), t.disk⟩ := by
  have hslot : (q.usedIndex t.ram).toNat % q.size.toNat < q.size.toNat := Nat.mod_lt _ hq.nonempty
  have hused := hq.used.within
  rw [pushUsed, bind_run_ok (read_run (hq.within_usedIndex.trans hused)),
    ← usedIndex, hq.toUInt64_mod (q.usedIndex t.ram),
    bind_run_ok (write_run _ ((hq.within_usedHead hslot).trans hused)),
    bind_run_ok (write_run _ ?_), write_run]
  · rfl
  · simpa using hq.within_usedIndex.trans hused
  · simpa using (hq.within_usedLength hslot).trans hused

section Report

variable (hq : q.Placed m) {slot : Nat} (hslot : slot < q.size.toNat) (head : UInt16) (len : UInt32)
  (next : UInt16)
include hq

lemma usedIndex_withReport : q.usedIndex (withReport q m slot head len next) = next := by
  have hfits : next.toUInt64.toNat < 2 ^ (8 * Width.half.bytes) := by
    rw [UInt16.toNat_toUInt64]
    exact next.toNat_lt
  rw [usedIndex, withReport, Memory.load_store_of_lt _ hfits]
  · simp
  · simpa using hq.within_usedIndex.trans hq.used.within

include hslot

/-- A report changes an entry of the used ring and the index, and nothing else. -/
lemma sameIn_withReport {s : Span}
    (hentry : s.Disjoint (stretch (q.device + 4 + 8 * UInt64.ofNat slot) 8))
    (hindex : s.Disjoint (stretch (q.device + 2) 2)) :
    Memory.SameIn s m (withReport q m slot head len next) := by
  have hused := hq.used.within
  have hhalf {p : UInt64} {k : Nat}
      (hp : p.toNat = (q.device + 4 + 8 * UInt64.ofNat slot).toNat + k) (hk : k + 4 ≤ 8) :
      s.Disjoint (stretch p Width.word.bytes) := (hentry.symm.mono (stretch_within hp hk)).symm
  refine ((Memory.sameIn_store ?_ _ ?_).trans (Memory.sameIn_store ?_ _ ?_)).trans
    (Memory.sameIn_store ?_ _ hindex)
  · exact (hq.within_usedHead hslot).trans hused
  · exact hhalf (Nat.add_zero _).symm (by decide)
  · simpa using (hq.within_usedLength hslot).trans hused
  · refine hhalf ?_ le_rfl
    rw [hq.toNat_usedLength hslot, hq.toNat_usedHead hslot]
    omega
  · simpa using hq.within_usedIndex.trans hused

lemma sameIn_withReport_of_disjoint {s : Span} (hs : s.Disjoint q.usedRing) :
    Memory.SameIn s m (withReport q m slot head len next) := by
  refine sameIn_withReport hq hslot head len next (hs.symm.mono ?_).symm
    (hs.symm.mono hq.within_usedIndex).symm
  exact stretch_within (hq.toNat_usedHead hslot) (by omega)

lemma usedHead_withReport :
    q.usedHead (withReport q m slot head len next) slot = head.toUInt32 := by
  have hfits : head.toUInt64.toNat < 2 ^ (8 * Width.word.bytes) := by
    rw [UInt16.toNat_toUInt64]
    exact lt_trans head.toNat_lt (by decide)
  have hused := hq.used.within
  have hheadAt := hq.toNat_usedHead hslot
  have hlengthAt := hq.toNat_usedLength hslot
  have hindexAt := hq.toNat_usedIndex
  rw [usedHead, withReport, Memory.load_store_of_disjoint, Memory.load_store_of_disjoint,
    Memory.load_store_of_lt ((hq.within_usedHead hslot).trans hused) hfits]
  · simp
  · simpa using (hq.within_usedLength hslot).trans hused
  · simpa using (hq.within_usedHead hslot).trans hused
  · refine stretch_disjoint (Or.inl ?_)
    rw [Width.bytes]
    omega
  · simpa using hq.within_usedIndex.trans hused
  · simpa using (hq.within_usedHead hslot).trans hused
  · refine stretch_disjoint (Or.inr ?_)
    rw [Width.bytes]
    omega

/-- A report leaves the other slots alone. -/
lemma usedHead_withReport_of_ne {other : Nat} (hother : other < q.size.toNat) (hne : other ≠ slot) :
    q.usedHead (withReport q m slot head len next) other = q.usedHead m other := by
  have hotherAt := hq.toNat_usedHead hother
  have hheadAt := hq.toNat_usedHead hslot
  have hindexAt := hq.toNat_usedIndex
  have hword : Width.word.bytes = 4 := rfl
  have hsame : Memory.SameIn (stretch (q.device + 4 + 8 * UInt64.ofNat other) Width.word.bytes) m
      (withReport q m slot head len next) :=
    sameIn_withReport hq hslot head len next (stretch_disjoint (by omega))
      (stretch_disjoint (by omega))
  rw [usedHead, usedHead, hsame.load_eq ((hq.within_usedHead hother).trans hq.used.within)
    ⟨le_rfl, le_rfl⟩]

end Report

/-! ## Entries of the available ring -/

/-- An entry of the available ring has been dealt with. -/
structure Completed (q : VirtioQueue) (p p' : Progress) : Prop where
  descriptors : Memory.SameIn q.descriptorTable p.transfer.ram p'.transfer.ram
  available : Memory.SameIn q.availableRing p.transfer.ram p'.transfer.ram
  lastAvailable : p'.lastAvailable = p.lastAvailable + 1
  interruptStatus : p'.interruptStatus = p.interruptStatus ||| 1
  usedIndex : q.usedIndex p'.transfer.ram = q.usedIndex p.transfer.ram + 1
  entry : q.usedHead p'.transfer.ram ((q.usedIndex p.transfer.ram).toNat % q.size.toNat) =
    (q.availableHead p.transfer.ram (p.lastAvailable.toNat % q.size.toNat)).toUInt32
  others : ∀ slot < q.size.toNat, slot ≠ (q.usedIndex p.transfer.ram).toNat % q.size.toNat →
    q.usedHead p'.transfer.ram slot = q.usedHead p.transfer.ram slot

/-- What is left after a request that has spared the tables, and then its report. -/
lemma completed_withReport {p : Progress} (hq : q.Placed p.transfer.ram)
    (hdescriptors : Memory.SameIn q.descriptorTable p.transfer.ram u.ram)
    (havailable : Memory.SameIn q.availableRing p.transfer.ram u.ram)
    (hused : Memory.SameIn q.usedRing p.transfer.ram u.ram) (len : UInt32) (notices : List Notice) :
    Completed q p
      ⟨⟨withReport q u.ram ((q.usedIndex u.ram).toNat % q.size.toNat)
          (q.availableHead p.transfer.ram (p.lastAvailable.toNat % q.size.toNat)) len
          (q.usedIndex u.ram + 1), u.disk⟩,
        p.lastAvailable + 1, p.interruptStatus ||| 1, notices⟩ := by
  have hu : q.Placed u.ram := hq.of_extent hused.base hused.size
  have hslot : (q.usedIndex u.ram).toNat % q.size.toNat < q.size.toNat := Nat.mod_lt _ hq.nonempty
  have hindex := hq.usedIndex_eq hused
  exact {
    descriptors := hdescriptors.trans
      (sameIn_withReport_of_disjoint hu hslot _ _ _ hq.descriptorsUsed)
    available := havailable.trans (sameIn_withReport_of_disjoint hu hslot _ _ _ hq.availableUsed)
    lastAvailable := rfl
    interruptStatus := rfl
    usedIndex := (usedIndex_withReport hu _ _ _).trans (by rw [hindex])
    entry := by
      rw [← hindex]
      exact usedHead_withReport hu hslot _ _ _
    others := fun slot hlt hne => by
      rw [← hindex] at hne
      exact (usedHead_withReport_of_ne hu hslot _ _ _ hlt hne).trans (hq.usedHead_eq hlt hused) }

/-- **Every entry completes,** whatever comes of its request. -/
lemma serveEntry_completed {p : Progress} {disk : Memory} (hq : q.Placed m)
    (hsame : Memory.SameIn q.descriptorTable m p.transfer.ram)
    (hspares : q.Spares m disk
      (q.availableHead p.transfer.ram (p.lastAvailable.toNat % q.size.toNat))) :
    ∃ p', serveEntry q p = (true, p') ∧ Completed q p p' := by
  have hslot : p.lastAvailable.toNat % q.size.toNat < q.size.toNat := Nat.mod_lt _ hq.nonempty
  have hram : q.Placed p.transfer.ram := hq.of_extent hsame.base hsame.size
  have hread := read_run (t := p.transfer) ((hram.within_availableHead hslot).trans
    hram.available.within)
  obtain ⟨hdescriptors, havailable, hused⟩ := sameIn_serve hq hspares hsame
  have hreport (len : UInt32) := pushUsed_run (hram.of_extent hused.base hused.size)
    (q.availableHead p.transfer.ram (p.lastAvailable.toNat % q.size.toNat)) len
  have hdone := completed_withReport hram hdescriptors havailable hused
  rw [serveEntry]
  simp only [hq.toUInt64_mod, hread]
  rw [← availableHead]
  -- answered, malformed or faulting: the report is made from the state that the request leaves
  cases hserved : serve q (q.availableHead p.transfer.ram
      (p.lastAvailable.toNat % q.size.toNat)) p.transfer with
  | error fault u =>
      rw [hserved, finalState_error] at hreport hdone
      simp only [hreport]
      exact ⟨_, rfl, hdone _ _⟩
  | ok outcome u =>
      rw [hserved, finalState_ok] at hreport hdone
      cases outcome <;> simp only [hreport] <;> exact ⟨_, rfl, hdone _ _⟩

/-- The first `j` of the waiting entries have been dealt with. -/
structure Served (q : VirtioQueue) (ram : Memory) (last : UInt16) (j : Nat) (p : Progress) :
    Prop where
  descriptors : Memory.SameIn q.descriptorTable ram p.transfer.ram
  available : Memory.SameIn q.availableRing ram p.transfer.ram
  lastAvailable : p.lastAvailable = last + UInt16.ofNat j
  usedIndex : q.usedIndex p.transfer.ram = q.usedIndex ram + UInt16.ofNat j
  entries : ∀ i < j, q.usedHead p.transfer.ram (((q.usedIndex ram).toNat + i) % q.size.toNat) =
    (q.availableHead ram ((last.toNat + i) % q.size.toNat)).toUInt32
  interrupt : 0 < j → p.interruptStatus &&& 1 = 1

lemma served_zero (transfer : Transfer) (last : UInt16) (interruptStatus : UInt32)
    (notices : List Notice) :
    Served q transfer.ram last 0 ⟨transfer, last, interruptStatus, notices⟩ where
  descriptors := Memory.SameIn.refl _ _
  available := Memory.SameIn.refl _ _
  lastAvailable := (UInt16.add_zero _).symm
  usedIndex := (UInt16.add_zero _).symm
  entries _ hi := absurd hi (Nat.not_lt_zero _)
  interrupt hj := absurd hj (lt_irrefl 0)

/-- The slot of an index that has moved on, also past the end of its 16 bits: the size of the queue
    divides their range. -/
lemma slot_add {n k : Nat} (hsize : n = 2 ^ k) (hmax : n ≤ 64) (i : UInt16) (j : Nat) :
    (i + UInt16.ofNat j).toNat % n = (i.toNat + j) % n := by
  have hk : k ≤ 16 := by
    by_contra hk
    have hpow := Nat.pow_lt_pow_right (show 1 < 2 by decide) (not_le.mp hk)
    omega
  have hdvd : n ∣ 2 ^ 16 := hsize ▸ Nat.pow_dvd_pow 2 hk
  rw [UInt16.toNat_add, UInt16.toNat_ofNat', Nat.add_mod_mod, Nat.mod_mod_of_dvd _ hdvd]

/-- Less than one turn apart, two slots differ. -/
lemma slot_ne {n i j : Nat} (a : Nat) (hij : i < j) (hj : j < n) : (a + i) % n ≠ (a + j) % n := by
  intro heq
  have hmod : i ≡ j [MOD n] := Nat.ModEq.add_left_cancel' a heq
  exact absurd (hmod.eq_of_lt_of_lt (lt_trans hij hj) hj) (ne_of_lt hij)

section Run

variable {ram disk : Memory} {last : UInt16} {k : Nat} (hq : q.Placed ram)
  (hsize : q.size.toNat = 2 ^ k)
include hq hsize

/-- **One more entry is dealt with,** if there is room for its report. -/
lemma Served.step {j : Nat} {p : Progress} (h : Served q ram last j p) (hj : j < q.size.toNat)
    (hspares : q.Spares ram disk (q.availableHead ram ((last.toNat + j) % q.size.toNat))) :
    ∃ p', serveEntry q p = (true, p') ∧ Served q ram last (j + 1) p' := by
  have hnext (i : UInt16) : i + UInt16.ofNat j + 1 = i + UInt16.ofNat (j + 1) := by
    rw [UInt16.ofNat_add, UInt16.add_assoc]
    rfl
  have hlast : p.lastAvailable.toNat % q.size.toNat = (last.toNat + j) % q.size.toNat := by
    rw [h.lastAvailable, slot_add hsize hq.bounded]
  have hused : (q.usedIndex p.transfer.ram).toNat % q.size.toNat =
      ((q.usedIndex ram).toNat + j) % q.size.toNat := by
    rw [h.usedIndex, slot_add hsize hq.bounded]
  have hhead : q.availableHead p.transfer.ram (p.lastAvailable.toNat % q.size.toNat) =
      q.availableHead ram ((last.toNat + j) % q.size.toNat) := by
    rw [hlast]
    exact hq.availableHead_eq (Nat.mod_lt _ hq.nonempty) h.available
  rw [← hhead] at hspares
  obtain ⟨p', hrun, hdone⟩ := serveEntry_completed hq h.descriptors hspares
  refine ⟨p', hrun, ?_⟩
  exact {
    descriptors := h.descriptors.trans hdone.descriptors
    available := h.available.trans hdone.available
    lastAvailable := by rw [hdone.lastAvailable, h.lastAvailable, hnext]
    usedIndex := by rw [hdone.usedIndex, h.usedIndex, hnext]
    entries := fun i hi => by
      rcases Nat.lt_succ_iff_lt_or_eq.mp hi with hi | rfl
      · -- the slots of the earlier entries are not this one's
        rw [hdone.others _ (Nat.mod_lt _ hq.nonempty), h.entries i hi]
        rw [hused]
        exact slot_ne _ hi hj
      · rw [← hused, hdone.entry, hhead]
    interrupt := fun _ => by
      rw [hdone.interruptStatus]
      exact UInt32.toNat_inj.mp (by simp) }

/-- **A row of entries is dealt with** one after the other. -/
lemma Served.run {n : Nat} (hroom : n ≤ q.size.toNat)
    (hspares : ∀ j < n, q.Spares ram disk (q.availableHead ram ((last.toNat + j) % q.size.toNat)))
    (count : Nat) {j : Nat} {p : Progress} (h : Served q ram last j p) (hn : j + count = n) :
    Served q ram last n (serveEntries q count p) := by
  induction count generalizing j p with
  | zero =>
      rw [serveEntries]
      rwa [← hn]
  | succ count ih =>
      obtain ⟨p', hrun, hserved⟩ := h.step hq hsize (by omega) (hspares j (by omega))
      rw [serveEntries, hrun]
      exact ih hserved (by omega)

/-- A queue that is set up is served to its end. -/
lemma served_serveQueue (hready : q.ready = true)
    (hroom : (q.availableIndex ram - last).toNat ≤ q.size.toNat)
    (hspares : ∀ j < (q.availableIndex ram - last).toNat,
      q.Spares ram disk (q.availableHead ram ((last.toNat + j) % q.size.toNat)))
    (interruptStatus : UInt32) :
    Served q ram last (q.availableIndex ram - last).toNat
      (serveQueue q ⟨⟨ram, disk⟩, last, interruptStatus, []⟩) := by
  have hnonzero : (q.size == 0) = false := by
    rw [beq_eq_false_iff_ne]
    intro hzero
    have hpos := hq.nonempty
    rw [hzero] at hpos
    exact absurd hpos (by decide)
  have hin : ram.contains (q.driver + 2) 2 = true :=
    Memory.contains_of_within (hq.within_availableIndex.trans hq.available.within)
  rw [serveQueue, hready, hnonzero, if_neg (by decide), if_pos hin]
  exact (served_zero ⟨ram, disk⟩ last interruptStatus []).run hq hsize hroom hspares _
    (Nat.zero_add _)

end Run

/-- A device with a request to report raises its source. -/
lemma raise_of_pending {v : VirtioBlock} (h : v.interruptStatus &&& 1 = 1) (lines : Lines) :
    v.raise lines = { lines with sources := lines.sources ||| 1 <<< source } := by
  rw [raise, if_neg]
  intro hzero
  rw [hzero] at h
  exact absurd h (by decide)

/-- The number of requests that wait in the available ring. -/
def waiting (v : VirtioBlock) (ram : Memory) : UInt16 :=
  v.queue.availableIndex ram - v.lastAvailable

/-- The request that waits in the ring at a distance from the one to serve next. -/
def waitingHead (v : VirtioBlock) (ram : Memory) (j : Nat) : UInt16 :=
  v.queue.availableHead ram ((v.lastAvailable.toNat + j) % v.queue.size.toNat)

/-- **Every request that waits completes, once and in order.**  The requests may be well-formed or
    not, of a known kind or not, within the disk and memory or not; and the indices may run past the
    end of their 16 bits. -/
theorem requests_complete_in_order {v : VirtioBlock} {disk ram : Memory} {k : Nat} (lines : Lines)
    (hdisk : v.disk = some disk) (hready : v.queue.ready = true) (hnotified : v.notified = true)
    (hsize : v.queue.size.toNat = 2 ^ k) (hplaced : v.queue.Placed ram)
    (hroom : (v.waiting ram).toNat ≤ v.queue.size.toNat)
    (hspares : ∀ j < (v.waiting ram).toNat, v.queue.Spares ram disk (v.waitingHead ram j)) :
    ∃ v' ram' lines' notices,
      (Device.virtio v).tick ram lines = ⟨.virtio v', ram', lines', notices⟩ ∧
      v'.lastAvailable = v.queue.availableIndex ram ∧
      v.queue.usedIndex ram' = v.queue.usedIndex ram + v.waiting ram ∧
      (∀ j < (v.waiting ram).toNat,
        v.queue.usedHead ram' (((v.queue.usedIndex ram).toNat + j) % v.queue.size.toNat) =
          (v.waitingHead ram j).toUInt32) ∧
      (0 < v.waiting ram → v'.interruptStatus &&& 1 = 1 ∧
        lines' = { lines with sources := lines.sources ||| 1 <<< source }) := by
  have hserved := served_serveQueue hplaced hsize hready hroom hspares v.interruptStatus
  simp only [Device.tick, answer, hnotified, hdisk]
  refine ⟨_, _, _, _, rfl, ?_, ?_, hserved.entries, fun hpos => ?_⟩
  · refine hserved.lastAvailable.trans ?_
    rw [UInt16.ofNat_toNat, UInt16.add_comm, UInt16.sub_add_cancel]
  · exact hserved.usedIndex.trans (by rw [UInt16.ofNat_toNat, waiting])
  · have hset := hserved.interrupt (UInt16.lt_iff_toNat_lt.mp hpos)
    exact ⟨hset, raise_of_pending hset lines⟩

/-- A memory with a queue of four entries whose indices are about to run over.  Three requests wait:
    a read of 16 bytes, one that is a status without a header, and one with a header outside of
    memory. -/
def overrunMemory : Memory :=
  (Memory.zeroed 0x80000000 0x1000).patch 0 <|
    [ -- the descriptors
      0x80000080, 0, 16, 0x00010001, 0x800000A0, 0, 16, 0x00020003,
      0x80000090, 0, 1, 2, 0, 0, 16, 0x00020001,
      -- the available ring, and the start of the used ring
      0x00010000, 0x00000003, 0x00020000, 0xFFFF0000].flatMap (LittleEndian.toBytes 4)

def overrunDevice : VirtioBlock :=
  { new (some (diskOf (List.replicate 512 1))) with
    queue := ⟨4, true, 0x80000000, 0x80000040, 0x8000004C⟩
    lastAvailable := 0xFFFE
    notified := true }

/-- The three requests are reported in the last slot and in the first two. -/
theorem overrun_requests_complete :
    ∃ v' ram' lines' notices,
      (Device.virtio overrunDevice).tick overrunMemory Lines.idle =
        ⟨.virtio v', ram', lines', notices⟩ ∧
      v'.lastAvailable = 1 ∧ overrunDevice.queue.usedIndex ram' = 2 ∧
      overrunDevice.queue.usedHead ram' 3 = 0 ∧ overrunDevice.queue.usedHead ram' 0 = 2 ∧
      overrunDevice.queue.usedHead ram' 1 = 3 ∧ v'.interruptStatus &&& 1 = 1 ∧
      lines'.sources = 2 := by
  have hqueue : overrunDevice.queue.Placed overrunMemory ∧
      overrunDevice.waiting overrunMemory = 3 ∧
      overrunDevice.queue.availableIndex overrunMemory = 1 ∧
      overrunDevice.queue.usedIndex overrunMemory = 0xFFFF ∧
      overrunDevice.waitingHead overrunMemory 0 = 0 ∧
      overrunDevice.waitingHead overrunMemory 1 = 2 ∧
      overrunDevice.waitingHead overrunMemory 2 = 3 ∧
      ∀ j < 3, overrunDevice.queue.Spares overrunMemory (diskOf (List.replicate 512 1))
        (overrunDevice.waitingHead overrunMemory j) := by
    decide +kernel
  obtain ⟨hplaced, hwaiting, havailable, hused, hfirst, hsecond, hthird, hspares⟩ := hqueue
  obtain ⟨v', ram', lines', notices, htick, hlast, hindex, hheads, hraised⟩ :=
    requests_complete_in_order (k := 2) Lines.idle rfl rfl rfl rfl hplaced
      (by rw [hwaiting]; decide)
      (by rw [hwaiting]; exact hspares)
  rw [hwaiting] at hindex hheads hraised
  rw [hused] at hindex hheads
  obtain ⟨hstatus, hlines⟩ := hraised (by decide)
  exact ⟨v', ram', lines', notices, htick, hlast.trans havailable, hindex,
    (hheads 0 (by decide)).trans (by rw [hfirst]; rfl),
    (hheads 1 (by decide)).trans (by rw [hsecond]; rfl),
    (hheads 2 (by decide)).trans (by rw [hthird]; rfl), hstatus, by rw [hlines]; rfl⟩

end VirtioBlock

end Rv64Board
