import Mathlib.Order.Interval.Finset.Nat
import Rv64Board.Proofs.QueueCompletion

/-!
# Requests of the disk

A request names the memory for its data in any number of pieces.  The device goes through them with
a position on the disk that moves along, so what counts is the bytes in a row.

* `Memory.gather` — the bytes of some stretches, one stretch after the other.
* `Linked`, `Request`, `Posted` — links that follow each other in the table, and a request that the
  driver has posted: a header, stretches for the data and a byte for the status, all of it in
  memory.
* `chain_of_linked` — **the device finds all links of a request,** as many as there may be.
* `moveData_toDisk`, `moveData_fromDisk` — the data of a request as one row of bytes.
* `serve_toDisk`, `serve_fromDisk` — **requests within the disk succeed,** and what they do.
-/

namespace Rv64Board

open Rv64Board.Span

/-! ## Rows of bytes -/

namespace Memory

variable {m m' : Memory} {s : Span} {address : UInt64} {len : Nat}

/-- Two rows of bytes, written one behind the other. -/
lemma patch_append (m : Memory) (i : Nat) (bs cs : List UInt8) :
    m.patch i (bs ++ cs) = (m.patch i bs).patch (i + bs.length) cs := by
  induction bs generalizing m i with
  | nil => rfl
  | cons b bs ih =>
      rw [List.cons_append, patch, ih, patch, List.length_cons, Nat.add_right_comm, Nat.add_assoc]

/-- The bytes of a stretch do not change where two memories agree. -/
lemma SameIn.slice_eq (h : SameIn s m m') (hm : s.Within m.span)
    (hin : (stretch address len).Within s) :
    m'.slice (m'.offset address) len = m.slice (m.offset address) len := by
  have haddress := base_add_offset (contains_of_within (hin.trans hm))
  rw [offset, h.base, ← offset]
  refine List.map_congr_left fun j hj => h.byte j ?_
  rw [List.mem_range'_1] at hj
  obtain ⟨hlow, hhigh⟩ := hin
  simp only [stretch] at hlow hhigh
  exact ⟨by omega, by omega⟩

end Memory

namespace VirtioBlock

open Transfer VirtioQueue

/-- The stretch of memory that a link describes. -/
def Descriptor.span (d : Descriptor) : Span := stretch d.address d.len.toNat

end VirtioBlock

open VirtioBlock

namespace Memory

/-- The bytes of some stretches, one stretch after the other. -/
def gather (m : Memory) (buffers : List Descriptor) : List UInt8 :=
  buffers.flatMap fun d => m.slice (m.offset d.address) d.len.toNat

lemma gather_cons (m : Memory) (d : Descriptor) (rest : List Descriptor) :
    m.gather (d :: rest) = m.slice (m.offset d.address) d.len.toNat ++ m.gather rest :=
  List.flatMap_cons

lemma length_gather (m : Memory) (buffers : List Descriptor) :
    (m.gather buffers).length = totalLength buffers := by
  induction buffers with
  | nil => rfl
  | cons d rest ih =>
      rw [gather_cons, List.length_append, length_slice, ih]
      rfl

lemma gather_congr {m m' : Memory} {buffers : List Descriptor}
    (hin : ∀ d ∈ buffers, d.span.Within m.span) (h : ∀ d ∈ buffers, SameIn d.span m m') :
    m'.gather buffers = m.gather buffers :=
  List.flatMap_congr fun d hd => (h d hd).slice_eq (hin d hd) ⟨le_rfl, le_rfl⟩

end Memory

/-! ## Room in memory -/

/-- The addresses of a row of stretches. -/
def Span.union (within : Span) (row : List Span) : Finset Nat :=
  (Finset.Ico within.low within.high).filter fun a => ∃ s ∈ row, s.low ≤ a ∧ a < s.high

/-- **Stretches that share no address find room in memory side by side.** -/
lemma Span.sum_le_card_union {within : Span} {row : List Span} (hin : ∀ s ∈ row, s.Within within)
    (hapart : row.Pairwise Span.Disjoint) :
    row.foldr (fun s n => (s.high - s.low) + n) 0 ≤ (within.union row).card := by
  induction row with
  | nil => exact Nat.zero_le _
  | cons s rest ih =>
      obtain ⟨hfirst, hrest⟩ := List.pairwise_cons.mp hapart
      have hown : Finset.Ico s.low s.high ⊆ within.union (s :: rest) := by
        intro a ha
        obtain ⟨hlow, hhigh⟩ := Finset.mem_Ico.mp ha
        obtain ⟨hwlow, hwhigh⟩ := hin s List.mem_cons_self
        exact Finset.mem_filter.mpr ⟨Finset.mem_Ico.mpr ⟨by omega, by omega⟩, s, List.mem_cons_self,
          hlow, hhigh⟩
      have hothers : within.union rest ⊆ within.union (s :: rest) := by
        intro a ha
        obtain ⟨hin, t, ht, hcovered⟩ := Finset.mem_filter.mp ha
        exact Finset.mem_filter.mpr ⟨hin, t, List.mem_cons_of_mem _ ht, hcovered⟩
      have hnone (a : Nat) (ha : a ∈ Finset.Ico s.low s.high) : a ∉ within.union rest := by
        intro hother
        obtain ⟨-, t, ht, hcovered⟩ := Finset.mem_filter.mp hother
        exact hfirst t ht a (Finset.mem_Ico.mp ha) hcovered
      have hcount := Finset.card_le_card (Finset.union_subset hown hothers)
      rw [Finset.card_union_of_disjoint (Finset.disjoint_left.mpr hnone), Nat.card_Ico] at hcount
      have := ih (fun t ht => hin t (List.mem_cons_of_mem _ ht)) hrest
      rw [List.foldr_cons]
      omega

/-- Data and status, side by side in memory. -/
lemma Memory.totalLength_lt_size {m : Memory} {buffers : List Descriptor} {status : UInt64}
    (hin : ∀ d ∈ buffers, d.span.Within m.span) (hstatus : (stretch status 1).Within m.span)
    (hapart : buffers.Pairwise fun d e => d.span.Disjoint e.span)
    (hfree : ∀ d ∈ buffers, d.span.Disjoint (stretch status 1)) :
    totalLength buffers < m.size.toNat := by
  have hrow : ∀ s ∈ stretch status 1 :: buffers.map Descriptor.span, s.Within m.span := by
    intro s hs
    rcases List.mem_cons.mp hs with rfl | hs
    · exact hstatus
    · obtain ⟨d, hd, rfl⟩ := List.mem_map.mp hs
      exact hin d hd
  have hpairs : (stretch status 1 :: buffers.map Descriptor.span).Pairwise Span.Disjoint := by
    refine List.pairwise_cons.mpr ⟨fun s hs => ?_, List.pairwise_map.mpr hapart⟩
    obtain ⟨d, hd, rfl⟩ := List.mem_map.mp hs
    exact (hfree d hd).symm
  have hsum : (buffers.map Descriptor.span).foldr (fun s n => (s.high - s.low) + n) 0 =
      totalLength buffers := by
    rw [List.foldr_map, totalLength]
    simp only [Descriptor.span, stretch, Nat.add_sub_cancel_left]
  have hcount := Span.sum_le_card_union hrow hpairs
  have hmost : (m.span.union (stretch status 1 :: buffers.map Descriptor.span)).card ≤
      m.span.high - m.span.low := by
    rw [← Nat.card_Ico]
    exact Finset.card_filter_le _ _
  have hsize : m.span.high - m.span.low = m.size.toNat := Nat.add_sub_cancel_left ..
  have hone : (stretch status 1).high - (stretch status 1).low = 1 := Nat.add_sub_cancel_left ..
  rw [List.foldr_cons, hsum, hone] at hcount
  omega

namespace VirtioBlock

open Transfer VirtioQueue

deriving instance DecidableEq for Descriptor

/-! ## Requests that are posted -/

/-- Where the table has the descriptor of an index. -/
def descriptorPlace (q : VirtioQueue) (index : UInt16) : UInt64 :=
  q.descriptors + 16 * (index % q.size.toUInt16).toUInt64

/-- The descriptor of an index, as memory has it. -/
def descriptorIn (q : VirtioQueue) (m : Memory) (index : UInt16) : Descriptor :=
  let place := descriptorPlace q index
  ⟨m.load place .double, (m.load (place + 8) .word).toUInt32, (m.load (place + 12) .half).toUInt16,
    (m.load (place + 14) .half).toUInt16⟩

/-- Links that follow each other in the table, from an index on. -/
def Linked (q : VirtioQueue) (m : Memory) : UInt16 → List Descriptor → Prop
  | _, [] => False
  | index, [d] => m.Holds (stretch (descriptorPlace q index) 16) ∧ descriptorIn q m index = d
  | index, d :: rest =>
    (m.Holds (stretch (descriptorPlace q index) 16) ∧ descriptorIn q m index = d) ∧
      d.hasNext = true ∧ Linked q m d.next rest

instance decidableLinked (q : VirtioQueue) (m : Memory) :
    (index : UInt16) → (links : List Descriptor) → Decidable (Linked q m index links)
  | _, [] => isFalse id
  | _, [_] => inferInstanceAs (Decidable (_ ∧ _))
  | _, d :: second :: tail =>
    have := decidableLinked q m d.next (second :: tail)
    inferInstanceAs (Decidable ((_ ∧ _) ∧ d.hasNext = true ∧ Linked q m d.next (second :: tail)))

/-- The parts of a request. -/
structure Request where
  header : Descriptor
  buffers : List Descriptor
  /-- Its first byte is for the status. -/
  status : Descriptor

namespace Request

def links (r : Request) : List Descriptor := r.header :: (r.buffers ++ [r.status])

/-- What is asked for: 0 to read from the disk, 1 to write to it. -/
def kind (r : Request) (m : Memory) : UInt32 := (m.load r.header.address .word).toUInt32

def sector (r : Request) (m : Memory) : UInt64 := m.load (r.header.address + 8) .double

/-- Where the status goes. -/
def statusSpan (r : Request) : Span := stretch r.status.address 1

end Request

/-- The driver has posted a request at an index of the table, and all its parts are in memory.
    There may be as many links as the queue has entries; only then may the last one claim to have a
    next one. -/
structure Posted (q : VirtioQueue) (m : Memory) (head : UInt16) (r : Request) : Prop where
  linked : Linked q m head r.links
  fits : r.links.length ≤ q.size.toNat
  last : r.status.hasNext = false ∨ r.links.length = q.size.toNat
  header : m.Holds (stretch r.header.address 16)
  buffers : ∀ d ∈ r.buffers, d.span.Within m.span
  status : r.statusSpan.Within m.span
  writable : r.status.writable = true

instance (q : VirtioQueue) (m : Memory) (head : UInt16) (r : Request) :
    Decidable (Posted q m head r) :=
  decidable_of_iff
    (Linked q m head r.links ∧ r.links.length ≤ q.size.toNat ∧
      (r.status.hasNext = false ∨ r.links.length = q.size.toNat) ∧
      m.Holds (stretch r.header.address 16) ∧ (∀ d ∈ r.buffers, d.span.Within m.span) ∧
      r.statusSpan.Within m.span ∧ r.status.writable = true)
    ⟨fun ⟨h₁, h₂, h₃, h₄, h₅, h₆, h₇⟩ => ⟨h₁, h₂, h₃, h₄, h₅, h₆, h₇⟩,
      fun ⟨h₁, h₂, h₃, h₄, h₅, h₆, h₇⟩ => ⟨h₁, h₂, h₃, h₄, h₅, h₆, h₇⟩⟩

variable {q : VirtioQueue} {m ram disk : Memory} {head : UInt16} {r : Request}

/-! ## The links -/

lemma descriptor_of_holds {index : UInt16}
    (h : m.Holds (stretch (descriptorPlace q index) 16)) (disk : Memory) :
    descriptor q (index % q.size.toUInt16) ⟨m, disk⟩ = .ok (descriptorIn q m index) ⟨m, disk⟩ := by
  have hread (field : UInt64) {w : Width} (hfield : field.toNat + w.bytes ≤ 16) :
      Transfer.read (descriptorPlace q index + field) w ⟨m, disk⟩ =
        .ok (m.load (descriptorPlace q index + field) w) ⟨m, disk⟩ := by
    have hpos : 0 < w.bytes := by cases w <;> decide
    have hfits : (descriptorPlace q index).toNat + 16 ≤ 2 ^ 64 := h.fits
    have haddress := toNat_add_of_lt (a := descriptorPlace q index) (b := field) (by omega)
    exact read_run ((stretch_within haddress hfield).trans h.within)
  have hfirst := hread 0 (w := .double) (by decide)
  rw [UInt64.add_zero] at hfirst
  rw [descriptor, ← descriptorPlace, bind_run_ok hfirst,
    bind_run_ok (hread _ (w := .word) (by decide)), bind_run_ok (hread _ (w := .half) (by decide)),
    bind_run_ok (hread _ (w := .half) (by decide))]
  rfl

/-- **The device finds all links of a request.** -/
lemma chain_of_linked {links : List Descriptor} {room : Nat} {index : UInt16}
    (h : Linked q m index links) (hfits : links.length ≤ room)
    (hlast : (∀ d ∈ links.getLast?, d.hasNext = false) ∨ links.length = room) (disk : Memory) :
    chain q room index ⟨m, disk⟩ = .ok links ⟨m, disk⟩ := by
  induction links generalizing room index with
  | nil => cases h
  | cons d rest ih =>
      obtain ⟨room, rfl⟩ : ∃ n, room = n + 1 := ⟨room - 1, by rw [List.length_cons] at hfits; omega⟩
      cases rest with
      | nil =>
          obtain ⟨hplace, rfl⟩ := h
          rw [chain, bind_run_ok (descriptor_of_holds hplace disk)]
          split
          · next hnext =>
            -- the link claims to have a next one, but there is no room for it
            rcases hlast with hlast | hfull
            · have hnone : (descriptorIn q m index).hasNext = false := hlast _ rfl
              rw [hnone] at hnext
              cases hnext
            · obtain rfl : room = 0 := by simpa using hfull.symm
              rfl
          · rfl
      | cons second tail =>
          obtain ⟨⟨hplace, rfl⟩, hnext, hrest⟩ := h
          have htail := ih hrest (Nat.le_of_succ_le_succ hfits) (hlast.imp (fun h d hd => h d (by
            rwa [List.getLast?_cons_cons])) Nat.succ.inj)
          rw [chain, bind_run_ok (descriptor_of_holds hplace disk), if_pos hnext, bind_run_ok htail]
          rfl

lemma Request.getLast?_links (r : Request) : r.links.getLast? = some r.status := by
  rw [links, List.getLast?_cons, List.getLast?_concat]
  rfl

/-- A request writes to its stretches and to the byte for its status. -/
lemma Request.targets_links (r : Request) :
    targets r.links = r.buffers.map Descriptor.span ++ [r.statusSpan] := by
  rw [targets, links, List.tail_cons, List.dropLast_concat, List.getLast?_concat]
  rfl

lemma chain_of_posted (h : Posted q m head r) (disk : Memory) :
    chain q q.size.toNat head ⟨m, disk⟩ = .ok r.links ⟨m, disk⟩ := by
  refine chain_of_linked h.linked h.fits (h.last.imp_left fun hnone d hd => ?_) disk
  rw [r.getLast?_links] at hd
  cases hd
  exact hnone

/-- A posted request is carried out as its header says, and its status is written. -/
lemma serve_of_posted (h : Posted q m head r) (disk : Memory) :
    serve q head ⟨m, disk⟩ =
      (do
        let (status, written) ←
          perform (sectors disk * sectorSize) (r.kind m) (r.sector m) r.buffers
        Transfer.write r.status.address .byte status
        return Outcome.answered (written + 1)) ⟨m, disk⟩ := by
  have hfits : r.header.address.toNat + 16 ≤ 2 ^ 64 := h.header.fits
  have hkind := read_run (t := ⟨m, disk⟩) (w := .word)
    ((stretch_within (Nat.add_zero _).symm (show 0 + 4 ≤ 16 by decide)).trans h.header.within)
  have hsector := read_run (t := ⟨m, disk⟩) (w := .double) ((stretch_within
    (toNat_add_of_lt (b := 8) (show r.header.address.toNat + 8 < 2 ^ 64 by omega))
    (show 8 + 8 ≤ 16 by decide)).trans h.header.within)
  obtain ⟨second, tail, hrest⟩ : ∃ second tail, r.buffers ++ [r.status] = second :: tail :=
    List.exists_cons_of_ne_nil (by simp)
  have hdata : (second :: tail).dropLast = r.buffers := by rw [← hrest, List.dropLast_concat]
  have hget : (get : EStateM AccessFault Transfer Transfer) ⟨m, disk⟩ =
      .ok ⟨m, disk⟩ ⟨m, disk⟩ := rfl
  rw [serve, bind_run_ok (chain_of_posted h disk), r.getLast?_links]
  rw [Request.links, hrest]
  simp only [h.writable, if_true, hdata]
  rw [bind_run_ok hkind, bind_run_ok hsector, bind_run_ok hget]
  rfl

/-! ## The data -/

section Data

variable {buffers : List Descriptor} (hin : ∀ d ∈ buffers, d.span.Within ram.span)
include hin

/-- **What goes to the disk is the stretches of the request in a row.** -/
lemma moveData_toDisk (position : Nat) (disk : Memory) :
    moveData .toDisk position buffers ⟨ram, disk⟩ =
      .ok 0 ⟨ram, disk.patch position (ram.gather buffers)⟩ := by
  induction buffers generalizing position disk with
  | nil => rfl
  | cons d rest ih =>
      obtain ⟨hfirst, hrest⟩ := List.forall_mem_cons.mp hin
      have hmove : toDisk position d.address d.len.toNat ⟨ram, disk⟩ =
          .ok () ⟨ram, disk.patch position (ram.slice (ram.offset d.address) d.len.toNat)⟩ := by
        rw [toDisk, if_pos (Memory.contains_of_within hfirst)]
      rw [moveData, bind_run_ok hmove, ih hrest, Memory.gather_cons, Memory.patch_append,
        Memory.length_slice]

omit hin in
/-- What comes from the disk goes to the stretches of the request only. -/
lemma sameIn_moveData {s : Span} (hapart : ∀ d ∈ buffers, s.Disjoint d.span) (direction : Direction)
    (position : Nat) (t : Transfer) :
    Memory.SameIn s t.ram (finalState (moveData direction position buffers t)).ram := by
  have hmade := makes_moveData direction position buffers t
  rw [Makes] at hmade
  rw [hmade]
  refine Memory.sameIn_replay fun x hx => ?_
  obtain ⟨d, hd, hsame⟩ := length_moveWrites hx
  rw [hsame]
  exact hapart d hd

/-- **What comes from the disk fills the stretches of the request in a row,** if they do not
    meet. -/
lemma moveData_fromDisk (hapart : buffers.Pairwise fun d e => d.span.Disjoint e.span)
    (position : Nat) (disk : Memory) :
    ∃ ram', moveData .fromDisk position buffers ⟨ram, disk⟩ =
        .ok (UInt32.ofNat (totalLength buffers)) ⟨ram', disk⟩ ∧
      ram'.gather buffers = disk.slice position (totalLength buffers) := by
  induction buffers generalizing position ram with
  | nil => exact ⟨ram, rfl, rfl⟩
  | cons d rest ih =>
      obtain ⟨hfirst, hrest⟩ := List.forall_mem_cons.mp hin
      obtain ⟨hapartFirst, hapartRest⟩ := List.pairwise_cons.mp hapart
      have hcontains := Memory.contains_of_within hfirst
      set ram₁ := ram.patch (ram.offset d.address) (disk.slice position d.len.toNat) with hram₁
      have hmove : fromDisk position d.address d.len.toNat ⟨ram, disk⟩ = .ok () ⟨ram₁, disk⟩ := by
        rw [fromDisk, if_pos hcontains]
      have hspan : ram₁.span = ram.span := by
        rw [Memory.span, Memory.span, hram₁, Memory.base_patch, Memory.size_patch]
      rw [← hspan] at hfirst hrest
      obtain ⟨ram', hrun, hgather⟩ := ih hrest hapartRest (position + d.len.toNat)
      have htotal : totalLength (d :: rest) = d.len.toNat + totalLength rest := rfl
      refine ⟨ram', ?_, ?_⟩
      · rw [moveData, bind_run_ok hmove, bind_run_ok hrun, htotal, UInt32.ofNat_add,
          UInt32.ofNat_toNat]
        rfl
      · -- the first stretch has its bytes, and the others do not touch it
        have hkept := sameIn_moveData (t := ⟨ram₁, disk⟩) hapartFirst .fromDisk
          (position + d.len.toNat)
        rw [hrun, finalState_ok] at hkept
        have hwritten : ram₁.slice (ram₁.offset d.address) d.len.toNat =
            disk.slice position d.len.toNat := by
          have hroom : ram.offset d.address + (disk.slice position d.len.toNat).length ≤
              ram.size.toNat := by
            rw [Memory.length_slice]
            exact Memory.offset_add_le hcontains
          have hback := Memory.slice_patch ram hroom
          rw [Memory.length_slice] at hback
          rw [Memory.offset, hram₁, Memory.base_patch, ← Memory.offset, hback]
        rw [Memory.gather_cons, hkept.slice_eq hfirst ⟨le_rfl, le_rfl⟩, hwritten, hgather, htotal,
          Memory.slice_append]

end Data

/-- A request that writes to the disk. -/
lemma perform_toDisk (hin : ∀ d ∈ r.buffers, d.span.Within ram.span) {limit : Nat} {sector : UInt64}
    (hrange : sector.toNat * sectorSize + totalLength r.buffers ≤ limit) (disk : Memory) :
    perform limit 1 sector r.buffers ⟨ram, disk⟩ =
      .ok (0, 0) ⟨ram, disk.patch (sector.toNat * sectorSize) (ram.gather r.buffers)⟩ := by
  rw [perform, show direction? 1 = some .toDisk from rfl]
  simp only [hrange, if_true]
  rw [bind_run_ok (moveData_toDisk hin _ disk)]
  rfl

/-- A request that reads from the disk. -/
lemma perform_fromDisk (hin : ∀ d ∈ r.buffers, d.span.Within ram.span)
    (hapart : r.buffers.Pairwise fun d e => d.span.Disjoint e.span) {limit : Nat} {sector : UInt64}
    (hrange : sector.toNat * sectorSize + totalLength r.buffers ≤ limit) (disk : Memory) :
    ∃ ram', perform limit 0 sector r.buffers ⟨ram, disk⟩ =
        .ok (0, UInt32.ofNat (totalLength r.buffers)) ⟨ram', disk⟩ ∧
      ram'.span = ram.span ∧
      ram'.gather r.buffers = disk.slice (sector.toNat * sectorSize) (totalLength r.buffers) := by
  obtain ⟨ram', hrun, hgather⟩ := moveData_fromDisk hin hapart (sector.toNat * sectorSize) disk
  refine ⟨ram', ?_, ?_, hgather⟩
  · rw [perform, show direction? 0 = some .fromDisk from rfl]
    simp only [hrange, if_true]
    rw [bind_run_ok hrun]
    rfl
  · have hmade := makes_moveData .fromDisk (sector.toNat * sectorSize) r.buffers ⟨ram, disk⟩
    rw [Makes, hrun] at hmade
    obtain ⟨hbase, hsize⟩ := Memory.extent_replay ram
      (moveWrites .fromDisk (sector.toNat * sectorSize) r.buffers ⟨ram, disk⟩)
    rw [← hmade] at hbase hsize
    exact congrArg₂ (fun base size : UInt64 => Span.mk base.toNat (base.toNat + size.toNat)) hbase
      hsize

/-- A request that is carried out with success is answered so. -/
lemma serve_of_performed (h : Posted q m head r) {ram' disk' : Memory} (written : UInt32)
    (hspan : ram'.span = m.span)
    (hrun : perform (sectors disk * sectorSize) (r.kind m) (r.sector m) r.buffers ⟨m, disk⟩ =
      .ok (0, written) ⟨ram', disk'⟩) :
    serve q head ⟨m, disk⟩ =
        .ok (.answered (written + 1)) ⟨ram'.store r.status.address .byte 0, disk'⟩ ∧
      (ram'.store r.status.address .byte 0).load r.status.address .byte = 0 := by
  have hstatus : (stretch r.status.address Width.byte.bytes).Within ram'.span := by
    rw [hspan]
    exact h.status
  refine ⟨?_, Memory.load_store_of_lt hstatus (by decide)⟩
  rw [serve_of_posted h, bind_run_ok hrun]
  simp only
  rw [bind_run_ok (write_run 0 hstatus)]
  rfl

/-! ## Requests that succeed -/

lemma sectors_patch (disk : Memory) (i : Nat) (bytes : List UInt8) :
    sectors (disk.patch i bytes) = sectors disk := by
  rw [sectors, sectors, Memory.size_patch]

/-- **A write to the disk succeeds,** and changes the disk where it was told to and nowhere else. -/
lemma serve_toDisk (h : Posted q ram head r) (hkind : r.kind ram = 1)
    (hrange : (r.sector ram).toNat * sectorSize + totalLength r.buffers ≤
      sectors disk * sectorSize) :
    serve q head ⟨ram, disk⟩ = .ok (.answered 1) ⟨ram.store r.status.address .byte 0,
        disk.patch ((r.sector ram).toNat * sectorSize) (ram.gather r.buffers)⟩ ∧
      (ram.store r.status.address .byte 0).load r.status.address .byte = 0 :=
  serve_of_performed h 0 rfl (hkind ▸ perform_toDisk h.buffers hrange disk)

/-- **A read from the disk succeeds,** if its stretches and the status byte do not meet.  What has
    been read stands in them in a row. -/
lemma serve_fromDisk (h : Posted q ram head r) (hkind : r.kind ram = 0)
    (hrange : (r.sector ram).toNat * sectorSize + totalLength r.buffers ≤ sectors disk * sectorSize)
    (hapart : r.buffers.Pairwise fun d e => d.span.Disjoint e.span)
    (hfree : ∀ d ∈ r.buffers, d.span.Disjoint r.statusSpan) :
    ∃ ram', serve q head ⟨ram, disk⟩ =
        .ok (.answered (UInt32.ofNat (totalLength r.buffers + 1))) ⟨ram', disk⟩ ∧
      ram'.load r.status.address .byte = 0 ∧
      ram'.gather r.buffers =
        disk.slice ((r.sector ram).toNat * sectorSize) (totalLength r.buffers) := by
  obtain ⟨ram', hrun, hspan, hgather⟩ := perform_fromDisk h.buffers hapart hrange disk
  rw [← hkind] at hrun
  obtain ⟨hserve, hstatus⟩ := serve_of_performed h _ hspan hrun
  refine ⟨_, ?_, hstatus, ?_⟩
  · rw [hserve, UInt32.ofNat_add]
    rfl
  · -- the status is written last, and beside the data
    have hin : (stretch r.status.address Width.byte.bytes).Within ram'.span := by
      rw [hspan]
      exact h.status
    rw [← hgather]
    refine Memory.gather_congr (fun d hd => ?_) fun d hd => ?_
    · rw [hspan]
      exact h.buffers d hd
    · exact Memory.sameIn_store hin 0 (hfree d hd)

end VirtioBlock

end Rv64Board
