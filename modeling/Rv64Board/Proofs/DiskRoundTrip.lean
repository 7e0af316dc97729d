import Rv64Board.Proofs.DiskRequests

/-!
# What is written to the disk can be read back

A request that reads sectors may cut the data up in another way than the one that wrote them.  When
a request is done, the device reports it to the driver in the next slot of the used ring.

* `VirtioQueue.usedLength`, `Waits`, `Reported` — an entry of the available ring that waits for the
  device, and the slot of the used ring that reports its request with a length.
* `reported_of_posted` — a request that is reported keeps its status and its data, if neither meets
  the used ring.
* `written_sectors_read_back` — **a read gives back what was written, however the two cut it up,**
  and the rest of the disk stays as it was.
* `reports_replace_data_and_wrap` — **what the conditions are for:** a report replaces the data that
  it meets, and a length of 4 GiB is reported as none.
-/

namespace Rv64Board

open Rv64Board.Span

lemma Memory.SameIn.span_eq {s : Span} {m m' : Memory} (h : SameIn s m m') : m'.span = m.span := by
  rw [span, span, h.base, h.size]

namespace VirtioQueue

/-- The number of bytes that a slot of the used ring reports. -/
def usedLength (q : VirtioQueue) (m : Memory) (slot : Nat) : UInt32 :=
  (m.load (q.device + 4 + 8 * UInt64.ofNat slot + 4) .word).toUInt32

end VirtioQueue

namespace VirtioBlock

open Transfer VirtioQueue

variable {q : VirtioQueue} {m : Memory} {head : UInt16} {r : Request}

/-! ## Reports -/

lemma usedLength_withReport (hq : q.Placed m) {slot : Nat} (hslot : slot < q.size.toNat)
    (head : UInt16) (len : UInt32) (next : UInt16) :
    q.usedLength (withReport q m slot head len next) slot = len := by
  have hfits : len.toUInt64.toNat < 2 ^ (8 * Width.word.bytes) := by
    rw [UInt32.toNat_toUInt64]
    exact len.toNat_lt
  have hused := hq.used.within
  have hlengthAt := hq.toNat_usedLength hslot
  have hindexAt := hq.toNat_usedIndex
  rw [usedLength, withReport, Memory.load_store_of_disjoint, Memory.load_store_of_lt _ hfits]
  · simp
  · simpa using (hq.within_usedLength hslot).trans hused
  · simpa using hq.within_usedIndex.trans hused
  · simpa using (hq.within_usedLength hslot).trans hused
  · refine stretch_disjoint (Or.inr ?_)
    rw [Width.bytes]
    omega

/-- An entry of the available ring waits for the device: the tables are in memory, and the entry
    names the request at an index. -/
structure Waits (q : VirtioQueue) (p : Progress) (head : UInt16) : Prop where
  placed : q.Placed p.transfer.ram
  entry : q.availableHead p.transfer.ram (p.lastAvailable.toNat % q.size.toNat) = head

instance (q : VirtioQueue) (p : Progress) (head : UInt16) : Decidable (Waits q p head) :=
  decidable_of_iff (q.Placed p.transfer.ram ∧
      q.availableHead p.transfer.ram (p.lastAvailable.toNat % q.size.toNat) = head)
    ⟨fun ⟨h₁, h₂⟩ => ⟨h₁, h₂⟩, fun ⟨h₁, h₂⟩ => ⟨h₁, h₂⟩⟩

/-- The entry has been served, and the next slot of the used ring reports its request with a
    length. -/
structure Reported (q : VirtioQueue) (p : Progress) (head : UInt16) (len : UInt32)
    (p' : Progress) : Prop where
  served : serveEntry q p = (true, p')
  index : q.usedIndex p'.transfer.ram = q.usedIndex p.transfer.ram + 1
  request : q.usedHead p'.transfer.ram ((q.usedIndex p.transfer.ram).toNat % q.size.toNat) =
    head.toUInt32
  length : q.usedLength p'.transfer.ram ((q.usedIndex p.transfer.ram).toNat % q.size.toNat) = len

/-- **A request that is answered and leaves the used ring alone is reported there,** and the report
    leaves alone what does not meet the ring. -/
lemma reported_of_answered {p : Progress} {u : Transfer} {len : UInt32} (h : Waits q p head)
    (hserve : serve q head p.transfer = .ok (.answered len) u)
    (hused : Memory.SameIn q.usedRing p.transfer.ram u.ram) :
    ∃ p', Reported q p head len p' ∧ p'.transfer.disk = u.disk ∧
      ∀ s : Span, s.Disjoint q.usedRing → Memory.SameIn s u.ram p'.transfer.ram := by
  obtain ⟨hq, rfl⟩ := h
  have hu : q.Placed u.ram := hq.of_extent hused.base hused.size
  have hslot : (q.usedIndex u.ram).toNat % q.size.toNat < q.size.toNat := Nat.mod_lt _ hq.nonempty
  have hindex := hq.usedIndex_eq hused
  have hread := read_run (t := p.transfer) ((hq.within_availableHead
    (Nat.mod_lt p.lastAvailable.toNat hq.nonempty)).trans hq.available.within)
  have hpush := pushUsed_run hu
    (q.availableHead p.transfer.ram (p.lastAvailable.toNat % q.size.toNat)) len
  rw [hindex] at hpush hslot
  have hrun : serveEntry q p = (true, ⟨⟨withReport q u.ram
      ((q.usedIndex p.transfer.ram).toNat % q.size.toNat)
      (q.availableHead p.transfer.ram (p.lastAvailable.toNat % q.size.toNat)) len
      (q.usedIndex p.transfer.ram + 1), u.disk⟩, p.lastAvailable + 1, p.interruptStatus ||| 1,
      p.notices⟩) := by
    rw [serveEntry]
    simp only [hq.toUInt64_mod, hread]
    rw [← availableHead]
    simp only [hserve, hpush]
  exact ⟨_, ⟨hrun, usedIndex_withReport hu _ _ _, usedHead_withReport hu hslot _ _ _,
    usedLength_withReport hu hslot _ _ _⟩, rfl,
    fun s hs => sameIn_withReport_of_disjoint hu hslot _ _ _ hs⟩

/-- **A request writes to its own stretches only.** -/
lemma sameIn_serve_of_posted {s : Span} (h : Posted q m head r)
    (hbuffers : ∀ d ∈ r.buffers, s.Disjoint d.span) (hstatus : s.Disjoint r.statusSpan)
    (disk : Memory) : Memory.SameIn s m (finalState (serve q head ⟨m, disk⟩)).ram := by
  have hmade := makes_serve q head ⟨m, disk⟩
  rw [Makes] at hmade
  rw [hmade]
  refine Memory.sameIn_replay fun x hx => ?_
  have htarget := targets_of_serveWrites (chain_of_posted h disk) hx
  rw [r.targets_links, List.mem_append, List.mem_map, List.mem_singleton] at htarget
  rcases htarget with ⟨d, hd, hspan⟩ | hspan
  · rw [← hspan]
    exact hbuffers d hd
  · rw [hspan]
    exact hstatus

/-- **A request that is reported keeps its status and its data,** where the used ring meets
    neither. -/
lemma reported_of_posted {m' disk disk' : Memory} {len : UInt32} {p : Progress}
    (h : Posted q m head r)
    (hserve : serve q head ⟨m, disk⟩ = .ok (.answered len) ⟨m', disk'⟩)
    (hkept : Memory.SameIn q.usedRing m m') (hstatus : r.statusSpan.Disjoint q.usedRing)
    (hp : p.transfer = ⟨m, disk⟩) (hwaits : Waits q p head) :
    ∃ p', Reported q p head len p' ∧ p'.transfer.disk = disk' ∧
      p'.transfer.ram.load r.status.address .byte = m'.load r.status.address .byte ∧
      ((∀ d ∈ r.buffers, d.span.Disjoint q.usedRing) →
        p'.transfer.ram.gather r.buffers = m'.gather r.buffers) := by
  have hspan := hkept.span_eq
  have hram : p.transfer.ram = m := congrArg Transfer.ram hp
  rw [← hp] at hserve
  obtain ⟨p', hreport, hdisk, hrest⟩ := reported_of_answered hwaits hserve (hram ▸ hkept)
  refine ⟨p', hreport, hdisk, ?_, fun hbuffers => ?_⟩
  · exact (hrest _ hstatus).load_eq (hspan ▸ h.status) ⟨le_rfl, le_rfl⟩
  · exact Memory.gather_congr (fun d hd => hspan ▸ h.buffers d hd)
      fun d hd => hrest _ (hbuffers d hd)

/-! ## Writing and reading back -/

/-- **What is written to the disk can be read back.**  A request that writes to sectors within the
    disk succeeds, and changes no other byte of the disk.  A later request that reads as many bytes
    from there succeeds too, whatever has become of memory and the queue in between; it leaves the
    disk alone, and its stretches then hold, one after the other, what those of the first request
    held.  The two may cut the data up in any way, as long as those that are read into neither meet
    each other nor the status.

    Where the used ring meets none of these stretches nor the status, it reports both requests and
    leaves the data alone.  The report of the second one counts the bytes and the status in 32 bits:
    in a memory of a size that a machine may have, these suffice unless data and status fill
    4 GiB. -/
theorem written_sectors_read_back {q : VirtioQueue} {ram disk : Memory} {head : UInt16}
    {out : Request} {sector : UInt64} {n : Nat} (hout : Posted q ram head out)
    (hkind : out.kind ram = 1) (hsector : out.sector ram = sector)
    (hlength : totalLength out.buffers = n)
    (hrange : sector.toNat * sectorSize + n ≤ sectors disk * sectorSize) :
    ∃ ram' disk', serve q head ⟨ram, disk⟩ = .ok (.answered 1) ⟨ram', disk'⟩ ∧
      ram'.load out.status.address .byte = 0 ∧
      (∀ i, ¬(sector.toNat * sectorSize ≤ i ∧ i < sector.toNat * sectorSize + n) →
        disk'.byte i = disk.byte i) ∧
      (∀ p, p.transfer = ⟨ram, disk⟩ → Waits q p head → out.statusSpan.Disjoint q.usedRing →
        ∃ p', Reported q p head 1 p' ∧ p'.transfer.disk = disk' ∧
          p'.transfer.ram.load out.status.address .byte = 0) ∧
      ∀ (q₂ : VirtioQueue) (ram₂ : Memory) (head₂ : UInt16) (back : Request),
        Posted q₂ ram₂ head₂ back → back.kind ram₂ = 0 → back.sector ram₂ = sector →
        totalLength back.buffers = n →
        (back.buffers.Pairwise fun d e => d.span.Disjoint e.span) →
        (∀ d ∈ back.buffers, d.span.Disjoint back.statusSpan) →
        ∃ ram₂' written, serve q₂ head₂ ⟨ram₂, disk'⟩ = .ok (.answered written) ⟨ram₂', disk'⟩ ∧
          ram₂'.load back.status.address .byte = 0 ∧
          ram₂'.gather back.buffers = ram.gather out.buffers ∧
          written.toNat = (n + 1) % 2 ^ 32 ∧ n + 1 ≤ ram₂.size.toNat ∧
          (ram₂.size ≤ maxRamSize → n + 1 ≠ 2 ^ 32 → written.toNat = n + 1) ∧
          ∀ p, p.transfer = ⟨ram₂, disk'⟩ → Waits q₂ p head₂ →
            (∀ d ∈ back.buffers, d.span.Disjoint q₂.usedRing) →
            back.statusSpan.Disjoint q₂.usedRing →
            ∃ p', Reported q₂ p head₂ written p' ∧ p'.transfer.disk = disk' ∧
              p'.transfer.ram.load back.status.address .byte = 0 ∧
              p'.transfer.ram.gather back.buffers = ram.gather out.buffers := by
  subst hsector hlength
  have hwhole : sectors disk * sectorSize ≤ disk.size.toNat := Nat.div_mul_le_self _ _
  have hfits : (out.sector ram).toNat * sectorSize + (ram.gather out.buffers).length ≤
      disk.size.toNat := by
    rw [Memory.length_gather]
    exact Nat.le_trans hrange hwhole
  obtain ⟨hserve, hstatus⟩ := serve_toDisk hout hkind hrange
  refine ⟨_, _, hserve, hstatus, fun i hi => ?_, ?_, ?_⟩
  · rw [Memory.byte_patch _ _ _ _ hfits, Memory.length_gather, if_neg hi]
  · intro p hp hwaits hused
    have hin : (stretch out.status.address Width.byte.bytes).Within ram.span := hout.status
    obtain ⟨p', hreport, hdisk, hkept, -⟩ := reported_of_posted hout hserve
      (Memory.sameIn_store hin 0 hused.symm) hused hp hwaits
    exact ⟨p', hreport, hdisk, hkept.trans hstatus⟩
  · intro q₂ ram₂ head₂ back hback hkind₂ hsector₂ hlength₂ hapart hfree
    have hroom := Memory.totalLength_lt_size hback.buffers hback.status hapart hfree
    have hrange₂ : (back.sector ram₂).toNat * sectorSize + totalLength back.buffers ≤
        sectors (disk.patch ((out.sector ram).toNat * sectorSize) (ram.gather out.buffers)) *
          sectorSize := by
      rw [hsector₂, hlength₂, sectors_patch]
      exact hrange
    obtain ⟨ram₂', hserve₂, hstatus₂, hgather⟩ := serve_fromDisk hback hkind₂ hrange₂ hapart hfree
    have hdata : ram₂'.gather back.buffers = ram.gather out.buffers := by
      rw [hgather, hsector₂, hlength₂, ← Memory.length_gather ram, Memory.slice_patch _ hfits]
    have hwritten : (UInt32.ofNat (totalLength back.buffers + 1)).toNat =
        (totalLength out.buffers + 1) % 2 ^ 32 := by
      rw [UInt32.toNat_ofNat', hlength₂]
    refine ⟨ram₂', _, hserve₂, hstatus₂, hdata, hwritten, by omega, fun hsize hfull => ?_, ?_⟩
    · have hmax : ram₂.size.toNat ≤ 2 ^ 32 := UInt64.le_iff_toNat_le.mp hsize
      rw [hwritten]
      exact Nat.mod_eq_of_lt (by omega)
    · intro p hp hwaits hbuffers hused
      have hkept := sameIn_serve_of_posted hback (fun d hd => (hbuffers d hd).symm) hused.symm
        (disk.patch ((out.sector ram).toNat * sectorSize) (ram.gather out.buffers))
      rw [hserve₂, finalState_ok] at hkept
      obtain ⟨p', hreport, hdisk, hstatus', hgather'⟩ :=
        reported_of_posted hback hserve₂ hkept hused hp hwaits
      exact ⟨p', hreport, hdisk, hstatus'.trans hstatus₂, (hgather' hbuffers).trans hdata⟩

/-- A queue of eight entries, two requests long. -/
def splitQueue : VirtioQueue := ⟨8, true, 0x80000000, 0x800000E0, 0x80000200⟩

/-- A memory with a request to write seven bytes to sector 1, as two and five, and one to read them
    into four and three. -/
def splitMemory : Memory :=
  (Memory.zeroed 0x80000000 0x1000).patch 0 <|
    [ -- the descriptors
      0x80000080, 0, 16, 0x00010001, 0x800000C0, 0, 2, 0x00020001,
      0x800000C8, 0, 5, 0x00030001, 0x800000A0, 0, 1, 2,
      0x80000090, 0, 16, 0x00050001, 0x800000D8, 0, 4, 0x00060003,
      0x800000D0, 0, 3, 0x00070003, 0x800000A1, 0, 1, 2,
      -- the headers, the bytes for the status, the data and the available ring
      1, 0, 1, 0, 0, 0, 1, 0, 0xFFFF, 0, 0, 0, 0, 0, 0, 0, 0x0201, 0, 0x06050403, 7,
      0, 0, 0, 0, 0x00020000, 0x00040000].flatMap (LittleEndian.toBytes 4)

def splitStart : Progress := ⟨⟨splitMemory, Memory.zeroed 0 1024⟩, 0, 0, []⟩

def splitOut : Request where
  header := ⟨0x80000080, 16, 1, 1⟩
  buffers := [⟨0x800000C0, 2, 1, 2⟩, ⟨0x800000C8, 5, 1, 3⟩]
  status := ⟨0x800000A0, 1, 2, 0⟩

def splitBack : Request where
  header := ⟨0x80000090, 16, 1, 5⟩
  buffers := [⟨0x800000D8, 4, 3, 6⟩, ⟨0x800000D0, 3, 3, 7⟩]
  status := ⟨0x800000A1, 1, 2, 0⟩

/-- The seven bytes come back, in another place and cut up differently, and both requests are
    reported. -/
theorem split_write_read_back :
    ∃ p p', Reported splitQueue splitStart 0 1 p ∧ Reported splitQueue p 4 8 p' ∧
      p'.transfer.disk = p.transfer.disk ∧ p.transfer.disk.byte 511 = 0 ∧
      p.transfer.ram.load 0x800000A0 .byte = 0 ∧ p'.transfer.ram.load 0x800000A1 .byte = 0 ∧
      p'.transfer.ram.gather splitBack.buffers = [1, 2, 3, 4, 5, 6, 7] := by
  have hout : Posted splitQueue splitMemory 0 splitOut ∧ splitOut.kind splitMemory = 1 ∧
      splitOut.sector splitMemory = 1 ∧
      splitMemory.gather splitOut.buffers = [1, 2, 3, 4, 5, 6, 7] := by
    decide +kernel
  obtain ⟨hposted, hkind, hsector, hdata⟩ := hout
  have hroom : (1 : UInt64).toNat * sectorSize + 7 ≤
      sectors (Memory.zeroed 0 1024) * sectorSize := by
    decide
  obtain ⟨_, disk', -, -, hrest, hreports, hback⟩ := written_sectors_read_back (n := 7)
    hposted hkind hsector rfl hroom
  have hwaits : Waits splitQueue splitStart 0 := by decide +kernel
  obtain ⟨p, hreport, rfl, hstatus⟩ := hreports splitStart rfl hwaits (by decide)
  -- the second request is found in memory as the first and its report have left it
  have hnext : let p := (serveEntry splitQueue splitStart).2
      Posted splitQueue p.transfer.ram 4 splitBack ∧ splitBack.kind p.transfer.ram = 0 ∧
        splitBack.sector p.transfer.ram = 1 ∧ Waits splitQueue p 4 := by
    decide +kernel
  rw [hreport.served] at hnext
  obtain ⟨hposted₂, hkind₂, hsector₂, hwaits₂⟩ := hnext
  obtain ⟨_, written, -, -, -, hwritten, -, -, hreports₂⟩ :=
    hback splitQueue _ 4 splitBack hposted₂ hkind₂ hsector₂ rfl (by decide) (by decide)
  obtain ⟨p', hreport', hdisk, hstatus', hgather⟩ :=
    hreports₂ p rfl hwaits₂ (by decide) (by decide)
  obtain rfl : written = 8 := UInt32.toNat_inj.mp hwritten
  exact ⟨p, p', hreport, hreport', hdisk,
    (hrest 511 (by decide)).trans (Memory.byte_zeroed _ _ _), hstatus, hstatus',
    hgather.trans hdata⟩

end VirtioBlock

/-! ## What the conditions are for -/

/-- A part of a row of bytes that has been written. -/
lemma Memory.slice_patch_part (m : Memory) {bs : List UInt8} {i k len : Nat}
    (hroom : i + bs.length ≤ m.size.toNat) (hpart : k + len ≤ bs.length) :
    (m.patch i bs).slice (i + k) len = (bs.drop k).take len := by
  obtain ⟨more, hmore⟩ := Nat.exists_eq_add_of_le hpart
  have hwhole := slice_patch m hroom
  rw [hmore, slice_append, slice_append, List.append_assoc] at hwhole
  have hfront := congrArg (fun row => (row.drop k).take len) hwhole
  simpa only [List.drop_left' (length_slice _ _ _), List.take_left' (length_slice _ _ _)]
    using hfront

namespace VirtioBlock

open Transfer VirtioQueue

/-- A table with one request, at the start of a memory of the largest size.  All but the last byte
    of it is for the data, and the last byte is for the status. -/
def fullTable (kind : Nat) : List UInt8 :=
  [0x80000040, 0, 16, 0x00010001, 0x80000000, 0, 0xFFFFFFFF, 0x00020003, 0x7FFFFFFF, 1, 1, 2,
    0, 0, 0, 0, kind, 0, 0, 0].flatMap (LittleEndian.toBytes 4)

def fullMemory (kind : Nat) : Memory :=
  (Memory.zeroed 0x80000000 maxRamSize).patch 0 (fullTable kind)

def fullQueue : VirtioQueue := ⟨4, true, 0x80000000, 0x80000100, 0x80000200⟩

def fullLink : Descriptor := ⟨0x80000000, 0xFFFFFFFF, 3, 2⟩

def fullRequest : Request where
  header := ⟨0x80000040, 16, 1, 1⟩
  buffers := [fullLink]
  status := ⟨0x17FFFFFFF, 1, 2, 0⟩

def fullDisk : Memory := Memory.zeroed 0 0x100000000

variable {kind : Nat}

lemma load_fullMemory {address : UInt64} {w : Width}
    (h : (address - 0x80000000).toNat + w.bytes ≤ 80) :
    (fullMemory kind).load address w = UInt64.ofNat (LittleEndian.ofBytes
      (((fullTable kind).drop (address - 0x80000000).toNat).take w.bytes)) := by
  have hlength : (fullTable kind).length = 80 := by simp [fullTable]
  have hoffset : (fullMemory kind).offset address = 0 + (address - 0x80000000).toNat := by
    rw [Memory.offset, fullMemory, Memory.base_patch, Nat.zero_add]
    rfl
  rw [Memory.load, hoffset, fullMemory, Memory.slice_patch_part]
  · rw [hlength]
    decide
  · rwa [hlength]

lemma holds_fullMemory {s : Span} (hlow : 0x80000000 ≤ s.low) (hhigh : s.high ≤ 0x180000000) :
    (fullMemory kind).Holds s := by
  have hspan : (fullMemory kind).span = ⟨0x80000000, 0x180000000⟩ := by
    rw [Memory.span, fullMemory, Memory.base_patch, Memory.size_patch]
    rfl
  exact ⟨hspan ▸ ⟨hlow, hhigh⟩, hhigh.trans (by decide)⟩

lemma posted_fullMemory (hkind : kind = 0 ∨ kind = 1) :
    Posted fullQueue (fullMemory kind) 0 fullRequest ∧
      fullRequest.kind (fullMemory kind) = UInt32.ofNat kind ∧
      fullRequest.sector (fullMemory kind) = 0 := by
  have hlinks : descriptorIn fullQueue (fullMemory kind) 0 = fullRequest.header ∧
      descriptorIn fullQueue (fullMemory kind) 1 = fullLink ∧
      descriptorIn fullQueue (fullMemory kind) 2 = fullRequest.status := by
    refine ⟨?_, ?_, ?_⟩ <;> rw [descriptorIn] <;>
      rw [load_fullMemory, load_fullMemory, load_fullMemory, load_fullMemory] <;>
      rcases hkind with rfl | rfl <;> decide
  obtain ⟨hheader, hbuffer, hstatus⟩ := hlinks
  refine ⟨⟨⟨⟨?_, hheader⟩, rfl, ⟨?_, hbuffer⟩, rfl, ?_, hstatus⟩, by decide, Or.inl rfl, ?_,
    List.forall_mem_singleton.mpr (holds_fullMemory (by decide) (by decide)).within,
    (holds_fullMemory (by decide) (by decide)).within, rfl⟩, ?_, ?_⟩
  · exact holds_fullMemory (by decide) (by decide)
  · exact holds_fullMemory (by decide) (by decide)
  · exact holds_fullMemory (by decide) (by decide)
  · exact holds_fullMemory (by decide) (by decide)
  · rw [Request.kind, load_fullMemory] <;> rcases hkind with rfl | rfl <;> decide
  · rw [Request.sector, load_fullMemory] <;> rcases hkind with rfl | rfl <;> decide

/-- The memory of the two requests, but what is read goes to the slot of the used ring that reports
    the second one. -/
def overlaidMemory : Memory := splitMemory.store 0x80000050 .word 0x8000020C

def overlaidBack : Request :=
  { splitBack with buffers := [⟨0x8000020C, 4, 3, 6⟩, ⟨0x800000D0, 3, 3, 7⟩] }

def overlaidStart : Progress := ⟨⟨overlaidMemory, Memory.zeroed 0 1024⟩, 0, 0, []⟩

/-- The progress with one request served. -/
def overlaidNext : Progress := (serveEntry splitQueue overlaidStart).2

/-- **Data under the used ring is lost, and a length of 4 GiB too.**  A read into the used ring
    brings the data, and its own report then takes their place.  A read that fills the largest
    memory together with its status is reported as one of no bytes. -/
theorem reports_replace_data_and_wrap :
    (Posted splitQueue overlaidMemory 0 splitOut ∧ splitOut.kind overlaidMemory = 1 ∧
      splitOut.sector overlaidMemory = 1 ∧ Waits splitQueue overlaidStart 0 ∧
      overlaidMemory.gather splitOut.buffers = [1, 2, 3, 4, 5, 6, 7] ∧
      (serveEntry splitQueue overlaidStart).1 = true ∧
      Posted splitQueue overlaidNext.transfer.ram 4 overlaidBack ∧
      overlaidBack.kind overlaidNext.transfer.ram = 0 ∧
      overlaidBack.sector overlaidNext.transfer.ram = 1 ∧ Waits splitQueue overlaidNext 4 ∧
      (overlaidBack.buffers.Pairwise fun d e => d.span.Disjoint e.span) ∧
      (∀ d ∈ overlaidBack.buffers, d.span.Disjoint overlaidBack.statusSpan) ∧
      (serveEntry splitQueue overlaidNext).1 = true ∧
      (serveEntry splitQueue overlaidNext).2.transfer.ram.gather overlaidBack.buffers =
        [4, 0, 0, 0, 5, 6, 7]) ∧
    (Posted fullQueue (fullMemory 1) 0 fullRequest ∧ fullRequest.kind (fullMemory 1) = 1 ∧
      Posted fullQueue (fullMemory 0) 0 fullRequest ∧ fullRequest.kind (fullMemory 0) = 0 ∧
      fullRequest.sector (fullMemory 1) = fullRequest.sector (fullMemory 0) ∧
      (∀ d ∈ fullRequest.buffers, d.span.Disjoint fullRequest.statusSpan) ∧
      totalLength fullRequest.buffers + 1 = 2 ^ 32 ∧
      ∃ ram₁ disk₁ ram₂,
        serve fullQueue 0 ⟨fullMemory 1, fullDisk⟩ = .ok (.answered 1) ⟨ram₁, disk₁⟩ ∧
        serve fullQueue 0 ⟨fullMemory 0, disk₁⟩ = .ok (.answered 0) ⟨ram₂, disk₁⟩) := by
  obtain ⟨hout, hkind, hsector⟩ := posted_fullMemory (.inr rfl)
  obtain ⟨hback, hkind₂, hsector₂⟩ := posted_fullMemory (.inl rfl)
  have hfree : ∀ d ∈ fullRequest.buffers, d.span.Disjoint fullRequest.statusSpan :=
    List.forall_mem_singleton.mpr (by decide)
  have hrange : (fullRequest.sector (fullMemory 1)).toNat * sectorSize +
      totalLength fullRequest.buffers ≤ sectors fullDisk * sectorSize := by
    rw [hsector]
    decide
  obtain ⟨hserve, -⟩ := serve_toDisk hout hkind hrange
  rw [hsector, ← hsector₂, ← sectors_patch fullDisk _ ((fullMemory 1).gather fullRequest.buffers)]
    at hrange
  obtain ⟨ram₂, hserve₂, -⟩ :=
    serve_fromDisk hback hkind₂ hrange (List.pairwise_singleton _ _) hfree
  have hzero : UInt32.ofNat (totalLength fullRequest.buffers + 1) = 0 := by decide
  rw [hzero] at hserve₂
  exact ⟨by decide +kernel, hout, hkind, hback, hkind₂, hsector.trans hsector₂.symm, hfree,
    by decide, _, _, ram₂, hserve, hserve₂⟩

end VirtioBlock

end Rv64Board
