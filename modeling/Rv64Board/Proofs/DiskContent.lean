import Mathlib.Data.List.GetD
import Rv64Board.Device.VirtioBlock
import Rv64Board.Proofs.Effects

/-!
# What a disk holds

A disk is kept in pages, so two disks with the same bytes could still differ past their end, in the
rest of the last page.  They never do: requests are served within whole sectors of the disk.

* `Memory.ext_byte` — a memory is determined by its extent, its pages' number and its bytes.
* `VirtioBlock.IsDisk` — **a disk is the one made of its content,** so that disks with the same
  content are equal.
* `Framed R` — a relation that holds of writes to memory and to the sectors of a disk.  Then it
  holds of requests and of the whole queue: `Framed.moveData`, `Framed.serve`, `Framed.serveQueue`
  go from the bytes of one request to a step of the device.
* `Transfer.Kept` — such a relation: the extents of memory and disk stay, and the disk stays one
  (`kept_answer`).
-/

namespace Rv64Board

/-! ## Memory byte by byte -/

lemma Page.ext_get {p q : Page} (h : ∀ i hi, p.get i hi = q.get i hi) : p = q := by
  obtain ⟨⟨p⟩, hp⟩ := p
  obtain ⟨⟨q⟩, hq⟩ := q
  have hpq : p = q := by
    refine Array.ext (hp.trans hq.symm) fun i hi _ => ?_
    exact h i (hp ▸ hi)
  cases hpq
  rfl

namespace Memory

/-- The bytes of a memory from its first to its last. -/
def content (m : Memory) : List UInt8 :=
  m.slice 0 m.size.toNat

@[simp] lemma length_content (m : Memory) : m.content.length = m.size.toNat := by
  simp [content, slice]

lemma getD_content (m : Memory) {i : Nat} (hi : i < m.size.toNat) :
    m.content.getD i 0 = m.byte i := by
  simp [content, slice, hi]

@[simp] lemma size_pages_patch (m : Memory) (i : Nat) (bs : List UInt8) :
    (m.patch i bs).pages.size = m.pages.size := by
  induction bs generalizing m i with
  | nil => rfl
  | cons b bs ih => rw [patch, ih, setByte, Array.size_modify]

lemma get_page (m : Memory) {k j : Nat} (hk : k < m.pages.size) (hj : j < pageSize) :
    m.pages[k].get j hj = m.byte (k * pageSize + j) := by
  have hquot : (k * pageSize + j) / pageSize = k := by
    rw [Nat.mul_comm, Nat.mul_add_div (by decide), Nat.div_eq_of_lt hj, Nat.add_zero]
  have hrem : (k * pageSize + j) % pageSize = j := by
    rw [Nat.mul_comm, Nat.mul_add_mod, Nat.mod_eq_of_lt hj]
  simp only [byte, hquot, hrem, dif_pos hk]

/-- **A memory is determined by its extent, the number of its pages and its bytes.** -/
lemma ext_byte {m n : Memory} (hbase : m.base = n.base) (hsize : m.size = n.size)
    (hpages : m.pages.size = n.pages.size) (hbyte : ∀ i, m.byte i = n.byte i) : m = n := by
  have harray : m.pages = n.pages := by
    refine Array.ext hpages fun k hk hk' => Page.ext_get fun j hj => ?_
    rw [get_page m hk hj, get_page n hk' hj]
    exact hbyte _
  cases m
  cases n
  cases hbase
  cases hsize
  cases harray
  rfl

end Memory

namespace VirtioBlock

/-! ## Disks -/

/-- A disk is the one made of its content. -/
def IsDisk (disk : Memory) : Prop :=
  disk = diskOf disk.content

lemma byte_diskOf {bytes : List UInt8} (hlen : bytes.length < UInt64.size) (i : Nat) :
    (diskOf bytes).byte i = bytes.getD i 0 := by
  have hsize : (UInt64.ofNat bytes.length).toNat = bytes.length :=
    UInt64.toNat_ofNat_of_lt hlen
  have hfits : 0 + bytes.length ≤ (Memory.zeroed 0 (UInt64.ofNat bytes.length)).size.toNat := by
    simp [Memory.zeroed, hsize]
  rw [diskOf, Memory.byte_patch _ _ _ _ hfits]
  split
  · rfl
  · next hout =>
    have hend : bytes.length ≤ i := by omega
    rw [Memory.byte_zeroed, List.getD_eq_default _ _ hend]

/-- No trace past the end: the pages reach just far enough, and what is left of them is zero. -/
lemma isDisk_iff {disk : Memory} :
    IsDisk disk ↔ disk.base = 0 ∧ disk.pages.size = (disk.size.toNat + (pageSize - 1)) / pageSize ∧
      ∀ i, disk.size.toNat ≤ i → disk.byte i = 0 := by
  have hlen : disk.content.length < UInt64.size := by
    rw [Memory.length_content]
    exact disk.size.toNat_lt
  have hsize : (diskOf disk.content).size = disk.size := by
    simp [diskOf, Memory.zeroed]
  have hpages : (diskOf disk.content).pages.size
      = (disk.size.toNat + (pageSize - 1)) / pageSize := by
    simp [diskOf, Memory.zeroed]
  constructor
  · intro hdisk
    refine ⟨?_, ?_, fun i hi => ?_⟩
    · rw [hdisk]
      simp [diskOf, Memory.zeroed]
    · conv_lhs => rw [hdisk]
      exact hpages
    · rw [hdisk, byte_diskOf hlen]
      exact List.getD_eq_default _ _ (by rwa [Memory.length_content])
  · rintro ⟨hbase, hcount, hrest⟩
    refine Memory.ext_byte ?_ hsize.symm (hcount.trans hpages.symm) fun i => ?_
    · simp [hbase, diskOf, Memory.zeroed]
    · rw [byte_diskOf hlen]
      rcases Nat.lt_or_ge i disk.size.toNat with hi | hi
      · exact (Memory.getD_content disk hi).symm
      · rw [hrest i hi, List.getD_eq_default _ _ (by rwa [Memory.length_content])]

lemma isDisk_diskOf {bytes : List UInt8} (hlen : bytes.length < UInt64.size) :
    IsDisk (diskOf bytes) := by
  have hsize : (diskOf bytes).size.toNat = bytes.length := by
    rw [diskOf, Memory.size_patch, Memory.zeroed]
    exact UInt64.toNat_ofNat_of_lt hlen
  refine isDisk_iff.mpr ⟨by simp [diskOf, Memory.zeroed], ?_, fun i hi => ?_⟩
  · have hsize' : (UInt64.ofNat bytes.length).toNat = bytes.length := UInt64.toNat_ofNat_of_lt hlen
    rw [hsize, diskOf, Memory.size_pages_patch, Memory.zeroed, Array.size_replicate, hsize']
  · rw [byte_diskOf hlen]
    exact List.getD_eq_default _ _ (by rwa [← hsize])

/-- What is written within a disk leaves a disk. -/
lemma IsDisk.patch {disk : Memory} (hdisk : IsDisk disk) {position : Nat} {bytes : List UInt8}
    (hin : position + bytes.length ≤ disk.size.toNat) : IsDisk (disk.patch position bytes) := by
  obtain ⟨hbase, hpages, hrest⟩ := isDisk_iff.mp hdisk
  refine isDisk_iff.mpr ⟨?_, ?_, fun i hi => ?_⟩
  · rw [Memory.base_patch, hbase]
  · rw [Memory.size_pages_patch, Memory.size_patch, hpages]
  · rw [Memory.size_patch] at hi
    rw [Memory.byte_patch _ _ _ _ hin, if_neg (by omega)]
    exact hrest i hi

/-! ## Requests -/

namespace Transfer

/-- What requests keep. -/
structure Kept (t t' : Transfer) : Prop where
  base : t'.ram.base = t.ram.base
  size : t'.ram.size = t.ram.size
  diskSize : t'.disk.size = t.disk.size
  disk : IsDisk t.disk → IsDisk t'.disk

lemma Kept.refl (t : Transfer) : Kept t t := ⟨rfl, rfl, rfl, id⟩

lemma Kept.trans {t u v : Transfer} (htu : Kept t u) (huv : Kept u v) : Kept t v where
  base := huv.base.trans htu.base
  size := huv.size.trans htu.size
  diskSize := huv.diskSize.trans htu.diskSize
  disk := huv.disk ∘ htu.disk

instance : IsPreorder Transfer Kept where
  refl := Kept.refl
  trans _ _ _ := Kept.trans

lemma kept_patch (t : Transfer) (i : Nat) (bytes : List UInt8) :
    Kept t ⟨t.ram.patch i bytes, t.disk⟩ where
  base := Memory.base_patch _ _ _
  size := Memory.size_patch _ _ _
  diskSize := rfl
  disk := id

end Transfer

open Transfer

/-- What requests do, as far as a relation tells: they write to memory, and to whole sectors of a
    disk whose size stays the same. -/
structure Framed (R : Transfer → Transfer → Prop) : Prop where
  memory (t : Transfer) (i : Nat) (bytes : List UInt8) : R t ⟨t.ram.patch i bytes, t.disk⟩
  disk (t : Transfer) {i : Nat} {bytes : List UInt8} :
    i + bytes.length ≤ sectors t.disk * sectorSize → R t ⟨t.ram, t.disk.patch i bytes⟩
  size {t u : Transfer} : R t u → u.disk.size = t.disk.size

lemma framed_kept : Framed Kept where
  memory := kept_patch
  disk t _ _ hin := by
    have hsectors : sectors t.disk * sectorSize ≤ t.disk.size.toNat := Nat.div_mul_le_self _ _
    exact ⟨rfl, rfl, Memory.size_patch _ _ _, fun hdisk => hdisk.patch (Nat.le_trans hin hsectors)⟩
  size := Kept.diskSize

variable {R : Transfer → Transfer → Prop} [IsPreorder Transfer R]

/-- Reading changes nothing. -/
lemma leaves_read (address : UInt64) (w : Width) : Leaves R (Transfer.read address w) := by
  intro t
  rw [Transfer.read]
  split <;> exact refl t

lemma leaves_descriptor (q : VirtioQueue) (index : UInt16) : Leaves R (descriptor q index) := by
  refine Leaves.bind (leaves_read _ _) fun _ => Leaves.bind (leaves_read _ _) fun _ => ?_
  refine Leaves.bind (leaves_read _ _) fun _ => Leaves.bind (leaves_read _ _) fun _ => ?_
  exact Leaves.pure _

lemma leaves_chain (q : VirtioQueue) (room : Nat) (index : UInt16) :
    Leaves R (chain q room index) := by
  induction room generalizing index with
  | zero => exact Leaves.pure _
  | succ room ih =>
      refine Leaves.bind (leaves_descriptor _ _) fun d => ?_
      split
      · exact Leaves.bind (ih _) fun _ => Leaves.pure _
      · exact Leaves.pure _

namespace Framed

variable (hR : Framed R)
include hR

lemma write (address : UInt64) (w : Width) (value : UInt64) :
    Leaves R (Transfer.write address w value) := by
  intro t
  rw [Transfer.write]
  split
  · exact hR.memory t _ _
  · exact refl t

lemma fromDisk (position : Nat) (address : UInt64) (len : Nat) :
    Leaves R (fromDisk position address len) := by
  intro t
  rw [Transfer.fromDisk]
  split
  · exact hR.memory t _ _
  · exact refl t

lemma toDisk {position len : Nat} (address : UInt64) {t : Transfer}
    (hin : position + len ≤ sectors t.disk * sectorSize) :
    R t (finalState (toDisk position address len t)) := by
  rw [Transfer.toDisk]
  split
  · exact hR.disk t (by simpa [Memory.slice] using hin)
  · exact refl t

/-- Data stays within the sectors if the whole request does: the position moves on by what the links
    so far have taken. -/
lemma moveData (direction : Direction) {position : Nat} {buffers : List Descriptor} {t : Transfer}
    (hin : position + totalLength buffers ≤ sectors t.disk * sectorSize) :
    R t (finalState (moveData direction position buffers t)) := by
  induction buffers generalizing position t with
  | nil => exact refl t
  | cons d rest ih =>
      have htotal : totalLength (d :: rest) = d.len.toNat + totalLength rest := rfl
      have hrest {u : Transfer} (hu : R t u) :
          position + d.len.toNat + totalLength rest ≤ sectors u.disk * sectorSize := by
        rw [sectors, hR.size hu, ← sectors]
        omega
      cases direction with
      | fromDisk =>
          have hfirst := hR.fromDisk position d.address d.len.toNat
          refine Leaves.bind_at (hfirst t) fun _ u hu => ?_
          exact Leaves.bind_at (ih (hrest (hfirst.of_ok hu))) fun _ v _ => refl v
      | toDisk =>
          have hfirst : R t (finalState (Transfer.toDisk position d.address d.len.toNat t)) :=
            hR.toDisk d.address (by omega)
          refine Leaves.bind_at hfirst fun _ u hu => ih (hrest ?_)
          rwa [hu] at hfirst

lemma perform {limit : Nat} (kind : UInt32) (sector : UInt64) (buffers : List Descriptor)
    {t : Transfer} (hlimit : limit ≤ sectors t.disk * sectorSize) :
    R t (finalState (perform limit kind sector buffers t)) := by
  rw [VirtioBlock.perform]
  cases direction? kind with
  | none => exact refl t
  | some direction =>
      simp only
      split
      · next hin =>
        exact Leaves.bind_at (hR.moveData direction (Nat.le_trans hin hlimit)) fun _ u _ => refl u
      · exact refl t

lemma serve (q : VirtioQueue) (head : UInt16) : Leaves R (serve q head) := by
  refine Leaves.bind (leaves_chain q _ head) fun links => ?_
  split
  · split
    · refine Leaves.bind (leaves_read _ _) fun kind =>
        Leaves.bind (leaves_read _ _) fun sector => ?_
      -- the limit is read off the disk as it is now
      intro t
      refine Leaves.bind_at (refl t) fun u t' hget => ?_
      cases hget
      refine Leaves.bind_at (hR.perform _ _ _ (Nat.le_refl _)) fun outcome u _ => ?_
      exact Leaves.bind (hR.write _ _ _) (fun _ => Leaves.pure _) u
    · exact Leaves.pure _
  · exact Leaves.pure _

lemma pushUsed (q : VirtioQueue) (head : UInt16) (len : UInt32) :
    Leaves R (pushUsed q head len) := by
  refine Leaves.bind (leaves_read _ _) fun used => Leaves.bind (hR.write _ _ _) fun _ => ?_
  exact Leaves.bind (hR.write _ _ _) fun _ => hR.write _ _ _

/-! ## The queue -/

lemma serveEntry (q : VirtioQueue) (p : Progress) :
    R p.transfer (serveEntry q p).2.transfer := by
  have hslot : R p.transfer _ := leaves_read
    (q.driver + 4 + 2 * (p.lastAvailable % q.size.toUInt16).toUInt64) .half p.transfer
  rw [VirtioBlock.serveEntry]
  simp only
  split
  · next hrun => rwa [hrun] at hslot
  · next slot t hrun =>
    rw [hrun] at hslot
    have hserve := hR.serve q slot.toUInt16 t
    -- whatever came of the request, it is reported
    split <;> next hdone =>
      rw [hdone] at hserve
      refine IsTrans.trans _ _ _ (IsTrans.trans _ _ _ hslot hserve) ?_
      split
      · next hpush => exact (hR.pushUsed _ _ _).of_ok hpush
      · next hpush => exact (hR.pushUsed _ _ _).of_error hpush

lemma serveEntries (q : VirtioQueue) (count : Nat) (p : Progress) :
    R p.transfer (serveEntries q count p).transfer := by
  induction count generalizing p with
  | zero => exact refl _
  | succ count ih =>
      have hfirst := hR.serveEntry q p
      rw [VirtioBlock.serveEntries]
      split
      · next hrun =>
        rw [hrun] at hfirst
        exact IsTrans.trans _ _ _ hfirst (ih _)
      · next hrun => rwa [hrun] at hfirst

/-- **What requests do one by one, they do together.** -/
lemma serveQueue (q : VirtioQueue) (p : Progress) :
    R p.transfer (serveQueue q p).transfer := by
  rw [VirtioBlock.serveQueue]
  split
  · exact refl _
  · split
    · exact hR.serveEntries q _ p
    · exact refl _

end Framed

/-- **A step of the device keeps the extent of memory, and leaves a disk where there was one.** -/
lemma kept_answer (v : VirtioBlock) (ram : Memory) :
    (v.answer ram).2.1.base = ram.base ∧ (v.answer ram).2.1.size = ram.size ∧
      ((∀ disk ∈ v.disk, IsDisk disk) → ∀ disk ∈ (v.answer ram).1.disk, IsDisk disk) := by
  rw [answer]
  split
  · next disk _ hdisk =>
    have hkept := framed_kept.serveQueue v.queue
      ⟨⟨ram, disk⟩, v.lastAvailable, v.interruptStatus, []⟩
    refine ⟨hkept.base, hkept.size, fun hall disk' hin => ?_⟩
    cases hin
    exact hkept.disk (hall disk hdisk)
  · exact ⟨rfl, rfl, id⟩

end VirtioBlock

end Rv64Board
