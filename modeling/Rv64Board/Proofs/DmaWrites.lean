import Rv64Board.Proofs.DiskContent
import Rv64Board.Proofs.WriteLog

/-!
# The writes that devices make

Of the devices only the disk touches memory.  When it serves its queue it writes data, a status for
each request, and the used ring, all of it where the driver's tables in memory say.

* `VirtioBlock.serveWrites`, `VirtioBlock.pushWrites`, `VirtioBlock.answerWrites` — the writes of a
  request, of its report, and of a step of the disk.
* `Bus.tickWrites` — the writes of a step of all devices.
* `Bus.ram_tick` — **a step of the devices does to memory what these writes do, no more and no
  less.**
-/

namespace Rv64Board

namespace VirtioBlock

open Transfer

/-! ## Accesses of the device -/

lemma ram_read (address : UInt64) (w : Width) (t : Transfer) :
    (finalState (Transfer.read address w t)).ram = t.ram := by
  rw [Transfer.read]
  split <;> rfl

lemma makes_write (address : UInt64) (w : Width) (value : UInt64) (t : Transfer) :
    Makes Transfer.ram (Transfer.write address w value) t
      [⟨address, LittleEndian.toBytes w.bytes value.toNat⟩] := by
  rw [Makes, Memory.replay_cons, Memory.replay_nil, Memory.applied_store, Transfer.write]
  split <;> rfl

lemma makes_fromDisk (position : Nat) (address : UInt64) (len : Nat) (t : Transfer) :
    Makes Transfer.ram (fromDisk position address len) t
      [⟨address, t.disk.slice position len⟩] := by
  rw [Makes, Memory.replay_cons, Memory.replay_nil, Memory.applied, fromDisk, Memory.length_slice]
  split <;> rfl

lemma ram_toDisk (position : Nat) (address : UInt64) (len : Nat) (t : Transfer) :
    (finalState (toDisk position address len t)).ram = t.ram := by
  rw [toDisk]
  split <;> rfl

/-- Two transfers with the same memory. -/
abbrev SameMemory (t t' : Transfer) : Prop := t'.ram = t.ram

instance : IsPreorder Transfer SameMemory where
  refl _ := rfl
  trans _ _ _ htu huv := Eq.trans huv htu

/-! ## Requests -/

/-- The writes of a transfer of data: one for each stretch, if it comes from the disk. -/
def moveWrites : Direction → Nat → List Descriptor → Transfer → List MemoryWrite
  | .toDisk, _, _, _ => []
  | .fromDisk, _, [], _ => []
  | .fromDisk, position, d :: rest, t =>
    ⟨d.address, t.disk.slice position d.len.toNat⟩ ::
      following (fromDisk position d.address d.len.toNat t) fun _ u =>
        moveWrites .fromDisk (position + d.len.toNat) rest u

def performWrites (limit : Nat) (kind : UInt32) (sector : UInt64) (buffers : List Descriptor)
    (t : Transfer) : List MemoryWrite :=
  match direction? kind with
  | none => []
  | some direction =>
    if sector.toNat * sectorSize + totalLength buffers ≤ limit then
      moveWrites direction (sector.toNat * sectorSize) buffers t
    else []

/-- The writes of a request: its data, and then its status. -/
def serveWrites (q : VirtioQueue) (head : UInt16) (t : Transfer) : List MemoryWrite :=
  following (chain q q.size.toNat head t) fun links t =>
    match links, links.getLast? with
    | header :: rest@(_ :: _), some last =>
      if last.writable then
        following (Transfer.read header.address .word t) fun kind t =>
          following (Transfer.read (header.address + 8) .double t) fun sector t =>
            let limit := sectors t.disk * sectorSize
            performWrites limit kind.toUInt32 sector rest.dropLast t ++
              following (perform limit kind.toUInt32 sector rest.dropLast t) fun r _ =>
                [⟨last.address, LittleEndian.toBytes 1 r.1.toNat⟩]
      else []
    | _, _ => []

/-- The writes of a report in the used ring: an entry of two words, and then the index. -/
def pushWrites (q : VirtioQueue) (head : UInt16) (len : UInt32) (t : Transfer) :
    List MemoryWrite :=
  following (Transfer.read (q.device + 2) .half t) fun used t =>
    let entry := q.device + 4 + 8 * (used.toUInt16 % q.size.toUInt16).toUInt64
    ⟨entry, LittleEndian.toBytes 4 head.toUInt64.toNat⟩ ::
      following (Transfer.write entry .word head.toUInt64 t) fun _ t =>
        ⟨entry + 4, LittleEndian.toBytes 4 len.toUInt64.toNat⟩ ::
          following (Transfer.write (entry + 4) .word len.toUInt64 t) fun _ _ =>
            [⟨q.device + 2, LittleEndian.toBytes 2 (used.toUInt16 + 1).toUInt64.toNat⟩]

lemma makes_moveData (direction : Direction) (position : Nat) (buffers : List Descriptor)
    (t : Transfer) :
    Makes Transfer.ram (moveData direction position buffers) t
      (moveWrites direction position buffers t) := by
  induction buffers generalizing position t with
  | nil => cases direction <;> rfl
  | cons d rest ih =>
      cases direction with
      | fromDisk =>
          refine Makes.bind (makes_fromDisk position d.address d.len.toNat t) fun _ u _ => ?_
          exact Makes.before_silent (ih _ u) fun _ _ => rfl
      | toDisk =>
          have hfirst : Makes Transfer.ram (toDisk position d.address d.len.toNat) t [] :=
            ram_toDisk position d.address d.len.toNat t
          rw [moveWrites]
          refine Makes.before_silent hfirst fun _ u => ?_
          have hrest := ih (position + d.len.toNat) u
          rwa [moveWrites] at hrest

lemma makes_perform (limit : Nat) (kind : UInt32) (sector : UInt64) (buffers : List Descriptor)
    (t : Transfer) :
    Makes Transfer.ram (perform limit kind sector buffers) t
      (performWrites limit kind sector buffers t) := by
  rw [perform, performWrites]
  cases direction? kind with
  | none => exact Makes.pure _
  | some direction =>
      simp only
      split
      · exact Makes.before_silent (makes_moveData _ _ _ t) fun _ _ => rfl
      · exact Makes.pure _

lemma makes_serve (q : VirtioQueue) (head : UInt16) (t : Transfer) :
    Makes Transfer.ram (serve q head) t (serveWrites q head t) := by
  refine Makes.after_silent (leaves_chain (R := SameMemory) q _ head t) fun links t _ => ?_
  cases links with
  | nil => exact Makes.pure _
  | cons header rest =>
      cases rest with
      | nil => exact Makes.pure _
      | cons second rest =>
          cases (header :: second :: rest).getLast? with
          | none => exact Makes.pure _
          | some last =>
              simp only
              split
              · refine Makes.after_silent (ram_read _ _ t) fun kind t _ => ?_
                refine Makes.after_silent (ram_read _ _ t) fun sector t _ => ?_
                -- the limit is read off the disk as it is now
                have hget : (get : EStateM AccessFault Transfer Transfer) t = .ok t t := rfl
                rw [Makes, bind_run_ok hget]
                refine Makes.bind (makes_perform _ _ _ _ t) fun r u _ => ?_
                exact Makes.before_silent (makes_write _ .byte _ u) fun _ _ => rfl
              · exact Makes.pure _

lemma makes_pushUsed (q : VirtioQueue) (head : UInt16) (len : UInt32) (t : Transfer) :
    Makes Transfer.ram (pushUsed q head len) t (pushWrites q head len t) := by
  refine Makes.after_silent (ram_read _ _ t) fun used t _ => ?_
  refine Makes.bind (makes_write _ .word _ t) fun _ t _ => ?_
  exact Makes.bind (makes_write _ .word _ t) fun _ t _ => makes_write _ .half _ t

/-! ## The queue -/

/-- The writes for an entry of the available ring: those of its request and of the report, whatever
    came of the request. -/
def entryWrites (q : VirtioQueue) (p : Progress) : List MemoryWrite :=
  let slot := q.driver + 4 + 2 * (p.lastAvailable % q.size.toUInt16).toUInt64
  following (Transfer.read slot .half p.transfer) fun head t =>
    serveWrites q head.toUInt16 t ++
      match serve q head.toUInt16 t with
      | .ok (.answered written) t => pushWrites q head.toUInt16 written t
      | .ok .malformed t => pushWrites q head.toUInt16 0 t
      | .error _ t => pushWrites q head.toUInt16 0 t

def entriesWrites (q : VirtioQueue) : Nat → Progress → List MemoryWrite
  | 0, _ => []
  | count + 1, p =>
    entryWrites q p ++
      if (serveEntry q p).1 then entriesWrites q count (serveEntry q p).2 else []

def queueWrites (q : VirtioQueue) (p : Progress) : List MemoryWrite :=
  if !q.ready || q.size == 0 then []
  else if p.transfer.ram.contains (q.driver + 2) 2 then
    let available := (p.transfer.ram.load (q.driver + 2) .half).toUInt16
    entriesWrites q (available - p.lastAvailable).toNat p
  else []

/-- The writes of a step of the disk. -/
def answerWrites (v : VirtioBlock) (ram : Memory) : List MemoryWrite :=
  match v.notified, v.disk with
  | true, some disk => queueWrites v.queue ⟨⟨ram, disk⟩, v.lastAvailable, v.interruptStatus, []⟩
  | _, _ => []

lemma ram_serveEntry (q : VirtioQueue) (p : Progress) :
    (serveEntry q p).2.transfer.ram = p.transfer.ram.replay (entryWrites q p) := by
  have hslot := ram_read (q.driver + 4 + 2 * (p.lastAvailable % q.size.toUInt16).toUInt64) .half
    p.transfer
  rw [serveEntry, entryWrites]
  simp only
  cases hread : Transfer.read (q.driver + 4 + 2 * (p.lastAvailable % q.size.toUInt16).toUInt64)
      .half p.transfer with
  | error fault t =>
      rw [hread] at hslot
      exact hslot
  | ok head t =>
      rw [hread, finalState_ok] at hslot
      simp only [following, Memory.replay_append, ← hslot]
      have hserve := makes_serve q head.toUInt16 t
      rw [Makes] at hserve
      rw [← hserve]
      have hreport (len : UInt32) (u : Transfer) := makes_pushUsed q head.toUInt16 len u
      simp only [Makes] at hreport
      cases hserved : serve q head.toUInt16 t with
      | error fault u =>
          simp only [finalState_error]
          rw [← hreport]
          cases pushUsed q head.toUInt16 0 u <;> rfl
      | ok outcome u =>
          cases outcome with
          | malformed =>
              simp only [finalState_ok]
              rw [← hreport]
              cases pushUsed q head.toUInt16 0 u <;> rfl
          | answered written =>
              simp only [finalState_ok]
              rw [← hreport]
              cases pushUsed q head.toUInt16 written u <;> rfl

lemma ram_serveEntries (q : VirtioQueue) (count : Nat) (p : Progress) :
    (serveEntries q count p).transfer.ram = p.transfer.ram.replay (entriesWrites q count p) := by
  induction count generalizing p with
  | zero => rfl
  | succ count ih =>
      have hfirst := ram_serveEntry q p
      rw [serveEntries, entriesWrites, Memory.replay_append, ← hfirst]
      cases hentry : serveEntry q p with
      | mk goOn p' =>
          cases goOn with
          | true => exact ih p'
          | false => rfl

lemma ram_serveQueue (q : VirtioQueue) (p : Progress) :
    (serveQueue q p).transfer.ram = p.transfer.ram.replay (queueWrites q p) := by
  rw [serveQueue, queueWrites]
  split
  · rfl
  · split
    · exact ram_serveEntries q _ p
    · rfl

lemma ram_answer (v : VirtioBlock) (ram : Memory) :
    (v.answer ram).2.1 = ram.replay (v.answerWrites ram) := by
  rw [answer, answerWrites]
  cases v.notified with
  | false => rfl
  | true =>
      cases v.disk with
      | none => rfl
      | some disk => exact ram_serveQueue v.queue _

end VirtioBlock

/-! ## All devices -/

/-- The writes of a step of a device. -/
def Device.tickWrites (d : Device) (ram : Memory) : List MemoryWrite :=
  match d with
  | .virtio v => v.answerWrites ram
  | _ => []

lemma Device.ram_tick (d : Device) (ram : Memory) (lines : Lines) :
    (d.tick ram lines).ram = ram.replay (d.tickWrites ram) := by
  cases d with
  | virtio v => exact v.ram_answer ram
  | finisher | clint | plic | uart => rfl

namespace Bus

/-- The writes of a step of some regions, in order of addresses. -/
def regionsWrites : List Region → Memory → List MemoryWrite
  | [], _ => []
  | r :: rs, ram =>
    r.device.tickWrites ram ++ regionsWrites rs (ram.replay (r.device.tickWrites ram))

/-- The writes of a step of all devices. -/
def tickWrites (b : Bus) : List MemoryWrite := regionsWrites b.regions b.ram

lemma ram_tickRegions (regions : List Region) (ram : Memory) (lines : Lines) :
    (tickRegions regions ram lines).2.1 = ram.replay (regionsWrites regions ram) := by
  induction regions generalizing ram lines with
  | nil => rfl
  | cons r regions ih =>
      rw [regionsWrites, Memory.replay_append, ← r.device.ram_tick ram lines]
      exact ih _ _

/-- **What a step of the devices does to memory is what its writes do.** -/
lemma ram_tick (b : Bus) (lines : Lines) : (b.tick lines).1.ram = b.ram.replay b.tickWrites :=
  ram_tickRegions b.regions b.ram _

end Bus

end Rv64Board
