import Rv64Board.Proofs.QueueLayout

/-!
# The disk with every step checked

Whoever drives the disk may put anything into its registers and tables.  This file has the device
once more, with a check in front of every step that could go wrong, and two loops that count their
rounds.

* `Checked.Crash` — what the checks are for: sums of addresses that do not fit, a division by zero,
  a range that is not in the disk, a number of bytes that does not fit, and loops that do not end.
* `Checked.answer` — a step of the device, checked.  A request may take as many rounds as the queue
  has entries, and a step may serve 65535 requests.
* `VirtioQueue.Fits` — the sums of addresses of a queue fit 64 bits.
* `Follows`, `Agrees` — a checked computation comes to what the plain one does.  This passes through
  sequences (`Follows.bind`), so each function of the device has one lemma about it.
* `Checked.agrees_answer` — **the checks never fail but for such a sum,** and the checked step does
  what the device does.
-/

namespace Rv64Board

/-- The sums of addresses that the device forms fit 64 bits: in the descriptors and the two rings,
    and behind the start of any header that is in memory. -/
structure VirtioQueue.Fits (q : VirtioQueue) (ram : Memory) : Prop where
  descriptors : q.descriptors.toNat + 16 * q.size.toNat ≤ 2 ^ 64
  driver : q.driver.toNat + 4 + 2 * q.size.toNat ≤ 2 ^ 64
  device : q.device.toNat + 4 + 8 * q.size.toNat ≤ 2 ^ 64
  header : ∀ address, ram.contains address 4 = true → address.toNat + 8 < 2 ^ 64

namespace VirtioBlock

namespace Checked

/-! ## Checks -/

/-- What a check has found. -/
inductive Crash
  /-- A sum of addresses does not fit 64 bits. -/
  | addressOverflow
  | zeroDivisor
  /-- A range of bytes is not in the disk. -/
  | outsideDisk
  /-- A number of bytes does not fit 32 bits. -/
  | lengthOverflow
  /-- A loop goes on after its last round. -/
  | endless
  deriving DecidableEq

/-- What ends a checked computation early: an access that memory refuses, or a check. -/
inductive Stop
  | fault (f : AccessFault)
  | crash (c : Crash)

variable {α β : Type}

def attempt (x : EStateM AccessFault Transfer α) : EStateM Stop Transfer α :=
  EStateM.adaptExcept Stop.fault x

def addAddress (a b : UInt64) : EStateM Stop Transfer UInt64 :=
  if a.toNat + b.toNat < 2 ^ 64 then return a + b else throw (.crash .addressOverflow)

def addLength (a b : UInt32) : EStateM Stop Transfer UInt32 :=
  if a.toNat + b.toNat < 2 ^ 32 then return a + b else throw (.crash .lengthOverflow)

def remainder (a b : UInt16) : EStateM Stop Transfer UInt16 :=
  if b = 0 then throw (.crash .zeroDivisor) else return a % b

/-- Some bytes from a position on are in the disk. -/
def inDisk (position len : Nat) : EStateM Stop Transfer Unit := fun t =>
  if position + len ≤ t.disk.size.toNat then .ok () t else .error (.crash .outsideDisk) t

/-- What came of a computation, once crashes are set apart. -/
def settled : EStateM.Result Stop Transfer α → Except Crash (EStateM.Result AccessFault Transfer α)
  | .ok a t => .ok (.ok a t)
  | .error (.fault f) t => .ok (.error f t)
  | .error (.crash c) _ => .error c

/-! ## The device, checked -/

def descriptor (q : VirtioQueue) (index : UInt16) : EStateM Stop Transfer Descriptor := do
  let base ← addAddress q.descriptors (16 * index.toUInt64)
  let address ← attempt (Transfer.read base .double)
  let len ← attempt (Transfer.read (← addAddress base 8) .word)
  let flags ← attempt (Transfer.read (← addAddress base 12) .half)
  let next ← attempt (Transfer.read (← addAddress base 14) .half)
  return ⟨address, len.toUInt32, flags.toUInt16, next.toUInt16⟩

/-- The links of a request, after those that have been taken.  The loop ends with a link that has no
    next one, or when there are as many links as the queue has entries. -/
def chain (q : VirtioQueue) : Nat → Nat → UInt16 → EStateM Stop Transfer (List Descriptor)
  | 0, _, _ => throw (.crash .endless)
  | rounds + 1, taken, index => do
    let d ← descriptor q (← remainder index q.size.toUInt16)
    if d.hasNext && taken + 1 < q.size.toNat then
      return d :: (← chain q rounds (taken + 1) d.next)
    else return [d]

/-- Moves data as long as it is within the disk, and counts the bytes written to memory. -/
def moveData (direction : Direction) :
    UInt32 → Nat → List Descriptor → EStateM Stop Transfer UInt32
  | written, _, [] => return written
  | written, position, d :: rest => do
    inDisk position d.len.toNat
    match direction with
    | .fromDisk =>
      attempt (Transfer.fromDisk position d.address d.len.toNat)
      moveData direction (← addLength written d.len) (position + d.len.toNat) rest
    | .toDisk =>
      attempt (Transfer.toDisk position d.address d.len.toNat)
      moveData direction written (position + d.len.toNat) rest

def perform (limit : Nat) (kind : UInt32) (sector : UInt64) (buffers : List Descriptor) :
    EStateM Stop Transfer (UInt64 × UInt32) := do
  match direction? kind with
  | none => return (2, 0)
  | some direction =>
    let start := sector.toNat * sectorSize
    if start + totalLength buffers ≤ limit then
      return (0, ← moveData direction 0 start buffers)
    else return (1, 0)

def serve (q : VirtioQueue) (head : UInt16) : EStateM Stop Transfer Outcome := do
  let links ← chain q q.size.toNat 0 head
  match links, links.getLast? with
  | header :: rest@(_ :: _), some last =>
    if last.writable then
      let kind ← attempt (Transfer.read header.address .word)
      let sector ← attempt (Transfer.read (← addAddress header.address 8) .double)
      let limit := sectors (← get).disk * sectorSize
      let (status, written) ← perform limit kind.toUInt32 sector rest.dropLast
      attempt (Transfer.write last.address .byte status)
      return .answered (← addLength written 1)
    else return .malformed
  | _, _ => return .malformed

def pushUsed (q : VirtioQueue) (head : UInt16) (len : UInt32) : EStateM Stop Transfer Unit := do
  let used ← attempt (Transfer.read (← addAddress q.device 2) .half)
  let slot ← remainder used.toUInt16 q.size.toUInt16
  let entry ← addAddress (← addAddress q.device 4) (8 * slot.toUInt64)
  attempt (Transfer.write entry .word head.toUInt64)
  attempt (Transfer.write (← addAddress entry 4) .word len.toUInt64)
  attempt (Transfer.write (← addAddress q.device 2) .half (used.toUInt16 + 1).toUInt64)

/-- The entry of the available ring at an index. -/
def availableHead (q : VirtioQueue) (index : UInt16) : EStateM Stop Transfer UInt64 := do
  let slot ← remainder index q.size.toUInt16
  attempt (Transfer.read (← addAddress (← addAddress q.driver 4) (2 * slot.toUInt64)) .half)

/-- Reports a request, and moves on in the available ring. -/
def finish (q : VirtioQueue) (p : Progress) (head : UInt16) (len : UInt32) (t : Transfer)
    (notices : List Notice) : Except Crash (Bool × Progress) := do
  match ← settled (pushUsed q head len t) with
  | .ok _ t => return (true, ⟨t, p.lastAvailable + 1, p.interruptStatus ||| 1, notices⟩)
  | .error fault t =>
    return (false, ⟨t, p.lastAvailable, p.interruptStatus, .usedRingFault fault :: notices⟩)

def serveEntry (q : VirtioQueue) (p : Progress) : Except Crash (Bool × Progress) := do
  match ← settled (availableHead q p.lastAvailable p.transfer) with
  | .error fault t =>
    return (false, ⟨t, p.lastAvailable, p.interruptStatus, .availableRingFault fault :: p.notices⟩)
  | .ok head t =>
    match ← settled (serve q head.toUInt16 t) with
    | .ok (.answered written) t => finish q p head.toUInt16 written t p.notices
    | .ok .malformed t =>
      finish q p head.toUInt16 0 t (.malformedRequest head.toUInt16 :: p.notices)
    | .error fault t => finish q p head.toUInt16 0 t (.requestFault fault :: p.notices)

/-- Serves entries until the index of the available ring is reached, or one cannot be reported. -/
def serveUpTo (q : VirtioQueue) (available : UInt16) : Nat → Progress → Except Crash Progress
  | 0, p => if p.lastAvailable = available then return p else throw .endless
  | rounds + 1, p => do
    if p.lastAvailable = available then return p
    match ← serveEntry q p with
    | (true, p) => serveUpTo q available rounds p
    | (false, p) => return p

def serveQueue (q : VirtioQueue) (p : Progress) : Except Crash Progress := do
  if !q.ready || q.size == 0 then return { p with notices := .queueNotReady :: p.notices }
  match ← settled ((do attempt (Transfer.read (← addAddress q.driver 2) .half)) p.transfer) with
  | .ok available _ => serveUpTo q available.toUInt16 65535 p
  | .error _ _ => return { p with notices := .availableRingMissing q.driver :: p.notices }

/-- A step of the device, checked. -/
def answer (v : VirtioBlock) (ram : Memory) :
    Except Crash (VirtioBlock × Memory × List Notice) := do
  match v.notified, v.disk with
  | true, some disk =>
    let p ← serveQueue v.queue ⟨⟨ram, disk⟩, v.lastAvailable, v.interruptStatus, []⟩
    return ({ v with
        disk := some p.transfer.disk
        lastAvailable := p.lastAvailable
        interruptStatus := p.interruptStatus
        notified := false }, p.transfer.ram, p.notices)
  | _, _ => return ({ v with notified := false }, ram, [])

/-! ## Agreement -/

/-- A checked computation comes to the plain answer.  It may stop at a sum of addresses instead, but
    not if they fit. -/
def Agrees (fits : Prop) (r : Except Crash α) (a : α) : Prop :=
  r = .ok a ∨ ¬fits ∧ r = .error .addressOverflow

/-- The run of a checked computation comes to that of the plain one. -/
def Follows (fits : Prop) (g : EStateM Stop Transfer α) (x : EStateM AccessFault Transfer α)
    (t : Transfer) : Prop :=
  Agrees fits (settled (g t)) (x t)

variable {fits : Prop}

lemma Agrees.pure (a : α) : Agrees fits (Pure.pure a) a := Or.inl rfl

lemma Agrees.bind {r : Except Crash α} {f : α → Except Crash β} {a : α} {b : β}
    (hr : Agrees fits r a) (hf : Agrees fits (f a) b) : Agrees fits (r >>= f) b := by
  rcases hr with rfl | ⟨hfits, rfl⟩
  · exact hf
  · exact Or.inr ⟨hfits, rfl⟩

namespace Follows

variable {g : EStateM Stop Transfer α} {g' : α → EStateM Stop Transfer β}
  {x : EStateM AccessFault Transfer α} {x' : α → EStateM AccessFault Transfer β} {t : Transfer}

lemma pure (a : α) : Follows fits (Pure.pure a) (Pure.pure a) t := Or.inl rfl

lemma attempt (x : EStateM AccessFault Transfer α) : Follows fits (attempt x) x t := by
  rw [Follows, Checked.attempt, EStateM.adaptExcept]
  cases x t <;> exact Or.inl rfl

/-- **Agreement passes through sequences.** -/
lemma bind (hg : Follows fits g x t) (hg' : ∀ a u, x t = .ok a u → Follows fits (g' a) (x' a) u) :
    Follows fits (g >>= g') (x >>= x') t := by
  rw [Follows] at hg ⊢
  cases hrun : g t with
  | ok a u =>
      rw [hrun] at hg
      rw [bind_run_ok hrun]
      rcases hg with hx | ⟨_, hx⟩
      · cases hxt : x t with
        | ok b v =>
            rw [hxt] at hx
            cases hx
            rw [bind_run_ok hxt]
            exact hg' a u hxt
        | error f v =>
            rw [hxt] at hx
            cases hx
      · cases hx
  | error e u =>
      rw [hrun] at hg
      rw [bind_run_error hrun]
      cases e with
      | crash c =>
          rcases hg with hx | ⟨hfits, hx⟩
          · cases hx
          · cases hx
            exact Or.inr ⟨hfits, rfl⟩
      | fault f =>
          rcases hg with hx | ⟨_, hx⟩
          · have hxt : x t = .error f u := (Except.ok.inj hx).symm
            rw [bind_run_error hxt]
            exact Or.inl rfl
          · cases hx

lemma addAddress {a b : UInt64} {f : UInt64 → EStateM Stop Transfer α}
    (hfits : fits → a.toNat + b.toNat < 2 ^ 64) (hf : Follows fits (f (a + b)) x t) :
    Follows fits (addAddress a b >>= f) x t := by
  rw [Checked.addAddress]
  split
  · exact hf
  · next hover => exact Or.inr ⟨fun h => hover (hfits h), rfl⟩

lemma addLength {a b : UInt32} {f : UInt32 → EStateM Stop Transfer α}
    (hlen : a.toNat + b.toNat < 2 ^ 32) (hf : Follows fits (f (a + b)) x t) :
    Follows fits (addLength a b >>= f) x t := by
  rw [Checked.addLength, if_pos hlen]
  exact hf

lemma remainder {a b : UInt16} {f : UInt16 → EStateM Stop Transfer α} (hb : b ≠ 0)
    (hf : Follows fits (f (a % b)) x t) : Follows fits (remainder a b >>= f) x t := by
  rw [Checked.remainder, if_neg hb]
  exact hf

lemma inDisk {position len : Nat} {f : Unit → EStateM Stop Transfer α}
    (hin : position + len ≤ t.disk.size.toNat) (hf : Follows fits (f ()) x t) :
    Follows fits (inDisk position len >>= f) x t := by
  have hrun : Checked.inDisk position len t = .ok () t := if_pos hin
  rw [Follows, bind_run_ok hrun]
  exact hf

end Follows

/-! ## Requests -/

open Transfer
open VirtioQueue (toNat_add_of_lt toNat_scaled toNat_size mod_size_lt)

/-- What a checked run asks of the state it starts from. -/
structure Sound (fits : Prop) (q : VirtioQueue) (t : Transfer) : Prop where
  fits : fits → q.Fits t.ram
  disk : t.disk.size.toNat < 2 ^ 32

lemma Sound.of_kept {q : VirtioQueue} {t u : Transfer} (h : Sound fits q t) (hkept : Kept t u) :
    Sound fits q u where
  fits hfits := by
    obtain ⟨hdescriptors, hdriver, hdevice, hheader⟩ := h.fits hfits
    refine ⟨hdescriptors, hdriver, hdevice, fun address hin => hheader address ?_⟩
    rwa [Memory.contains, hkept.base, hkept.size] at hin
  disk := by
    rw [hkept.diskSize]
    exact h.disk

/-- Whole sectors end well before four gigabytes. -/
lemma Sound.limit_lt {q : VirtioQueue} {t : Transfer} (h : Sound fits q t) :
    sectors t.disk * sectorSize + 1 < 2 ^ 32 := by
  have hsectors : sectors t.disk * sectorSize ≤ t.disk.size.toNat := Nat.div_mul_le_self _ _
  have hdisk := h.disk
  simp only [sectorSize] at *
  omega

lemma contains_of_read {address : UInt64} {w : Width} {t u : Transfer} {value : UInt64}
    (hrun : Transfer.read address w t = .ok value u) : t.ram.contains address w.bytes = true := by
  rw [Transfer.read] at hrun
  split at hrun
  · assumption
  · cases hrun

/-! ### Data -/

/-- **Data within the sectors is within the disk,** and its length is counted without loss: so far,
    and with what is still to come. -/
lemma follows_moveData (direction : Direction) {written : UInt32} {position : Nat}
    {buffers : List Descriptor} {t : Transfer}
    (hin : position + totalLength buffers ≤ sectors t.disk * sectorSize)
    (hlen : written.toNat + totalLength buffers < 2 ^ 32) :
    Follows fits (moveData direction written position buffers)
      (VirtioBlock.moveData direction position buffers >>= fun n => Pure.pure (written + n)) t := by
  induction buffers generalizing written position t with
  | nil =>
      rw [VirtioBlock.moveData, pure_bind, UInt32.add_zero]
      exact Follows.pure _
  | cons d rest ih =>
      have htotal : totalLength (d :: rest) = d.len.toNat + totalLength rest := rfl
      have hsectors : sectors t.disk * sectorSize ≤ t.disk.size.toNat := Nat.div_mul_le_self _ _
      have hrest {u : Transfer} (hu : Kept t u) :
          position + d.len.toNat + totalLength rest ≤ sectors u.disk * sectorSize := by
        rw [sectors, hu.diskSize, ← sectors]
        omega
      refine Follows.inDisk (by omega) ?_
      cases direction with
      | fromDisk =>
          have hmove := framed_kept.fromDisk position d.address d.len.toNat
          rw [VirtioBlock.moveData]
          simp only [bind_assoc, pure_bind]
          refine Follows.bind (Follows.attempt _) fun _ u hu => ?_
          refine Follows.addLength (by omega) ?_
          have hsum : (written + d.len).toNat = written.toNat + d.len.toNat := by
            rw [UInt32.toNat_add]
            omega
          have hnext := @ih (written + d.len) _ _ (hrest (hmove.of_ok hu)) (by omega)
          simpa only [UInt32.add_assoc] using hnext
      | toDisk =>
          have hmove : Kept t (finalState (Transfer.toDisk position d.address d.len.toNat t)) :=
            framed_kept.toDisk d.address (by omega)
          rw [VirtioBlock.moveData]
          simp only [bind_assoc]
          refine Follows.bind (Follows.attempt _) fun _ u hu => ih (hrest ?_) (by omega)
          rwa [hu] at hmove

/-- Not more is written to memory than the stretches of the request hold. -/
lemma toNat_moveData {direction : Direction} {position : Nat} {buffers : List Descriptor}
    {t u : Transfer} {n : UInt32}
    (hrun : VirtioBlock.moveData direction position buffers t = .ok n u) :
    n.toNat ≤ totalLength buffers := by
  induction buffers generalizing position t n with
  | nil =>
      cases hrun
      exact Nat.zero_le _
  | cons d rest ih =>
      have htotal : totalLength (d :: rest) = d.len.toNat + totalLength rest := rfl
      cases direction with
      | fromDisk =>
          obtain ⟨_, t₁, _, hrun⟩ := bind_eq_ok hrun
          obtain ⟨m, t₂, hrest, hrun⟩ := bind_eq_ok hrun
          cases hrun
          have hm := ih hrest
          rw [UInt32.toNat_add]
          have := Nat.mod_le (d.len.toNat + m.toNat) (2 ^ 32)
          omega
      | toDisk =>
          obtain ⟨_, t₁, _, hrun⟩ := bind_eq_ok hrun
          have hn := ih hrun
          omega

lemma follows_perform {limit : Nat} (kind : UInt32) (sector : UInt64) (buffers : List Descriptor)
    {t : Transfer} (hlimit : limit ≤ sectors t.disk * sectorSize) (hsmall : limit < 2 ^ 32) :
    Follows fits (perform limit kind sector buffers)
      (VirtioBlock.perform limit kind sector buffers) t := by
  rw [perform, VirtioBlock.perform]
  cases direction? kind with
  | none => exact Follows.pure _
  | some direction =>
      simp only
      split
      · next hin =>
        have hmove : Follows fits (moveData direction 0 (sector.toNat * sectorSize) buffers)
            (VirtioBlock.moveData direction (sector.toNat * sectorSize) buffers) t := by
          have hlen : (0 : UInt32).toNat + totalLength buffers < 2 ^ 32 :=
            show 0 + totalLength buffers < 2 ^ 32 by omega
          have hzero : Follows fits _ _ t :=
            follows_moveData direction (Nat.le_trans hin hlimit) hlen
          simpa only [UInt32.zero_add, bind_pure] using hzero
        exact Follows.bind hmove fun _ _ _ => Follows.pure _
      · exact Follows.pure _

lemma toNat_perform {limit : Nat} {kind : UInt32} {sector : UInt64} {buffers : List Descriptor}
    {t u : Transfer} {r : UInt64 × UInt32}
    (hrun : VirtioBlock.perform limit kind sector buffers t = .ok r u) : r.2.toNat ≤ limit := by
  rw [VirtioBlock.perform] at hrun
  cases hkind : direction? kind with
  | none =>
      rw [hkind] at hrun
      cases hrun
      exact Nat.zero_le _
  | some direction =>
      rw [hkind] at hrun
      simp only at hrun
      split at hrun
      · next hin =>
        obtain ⟨n, u', hmove, hrun⟩ := bind_eq_ok hrun
        cases hrun
        have := toNat_moveData hmove
        show n.toNat ≤ limit
        omega
      · cases hrun
        exact Nat.zero_le _

/-! ### Whole requests -/

section Queue

variable {q : VirtioQueue} (hpos : 0 < q.size.toNat) (hmax : q.size.toNat ≤ 64) {t : Transfer}

lemma follows_descriptor (h : Sound fits q t) {index : UInt16} (hi : index.toNat < q.size.toNat) :
    Follows fits (descriptor q index) (VirtioBlock.descriptor q index) t := by
  have hentry : (16 * index.toUInt64).toNat = 16 * index.toNat := toNat_scaled (by decide) index
  have hbase (hfits : fits) : q.descriptors.toNat + (16 * index.toUInt64).toNat + 16 ≤ 2 ^ 64 := by
    have := (h.fits hfits).descriptors
    omega
  have hfield {field : UInt64} (hf : field.toNat < 16) (hfits : fits) :
      (q.descriptors + 16 * index.toUInt64).toNat + field.toNat < 2 ^ 64 := by
    have := hbase hfits
    rw [toNat_add_of_lt (by omega)]
    omega
  refine Follows.addAddress (fun hfits => ?_) ?_
  · have := hbase hfits
    omega
  refine Follows.bind (Follows.attempt _) fun address u _ => ?_
  refine Follows.addAddress (hfield (by decide)) ?_
  refine Follows.bind (Follows.attempt _) fun len u _ => ?_
  refine Follows.addAddress (hfield (by decide)) ?_
  refine Follows.bind (Follows.attempt _) fun flags u _ => ?_
  refine Follows.addAddress (hfield (by decide)) ?_
  exact Follows.bind (Follows.attempt _) fun next u _ => Follows.pure _

include hpos hmax

lemma size_ne_zero : q.size.toUInt16 ≠ 0 := by
  intro hzero
  have hsize := toNat_size hmax
  rw [hzero] at hsize
  exact absurd hsize (Nat.ne_of_lt hpos)

/-- **A request has at most as many links as the queue has entries.**  Those that have been taken
    and those that there is room for make up the size of the queue. -/
lemma follows_chain (h : Sound fits q t) {room taken : Nat}
    (hroom : taken + room + 1 = q.size.toNat) (index : UInt16) :
    Follows fits (chain q (room + 1) taken index) (VirtioBlock.chain q (room + 1) index) t := by
  induction room generalizing taken index t with
  | zero =>
      refine Follows.remainder (size_ne_zero hpos hmax) ?_
      refine Follows.bind (follows_descriptor h (mod_size_lt hmax hpos index)) fun d u _ => ?_
      have hlast : (d.hasNext && decide (taken + 1 < q.size.toNat)) = false := by
        have hfull : ¬taken + 1 < q.size.toNat := by omega
        rw [decide_eq_false hfull, Bool.and_false]
      rw [if_neg (by simp [hlast])]
      cases d.hasNext <;> exact Follows.pure _
  | succ room ih =>
      refine Follows.remainder (size_ne_zero hpos hmax) ?_
      have hdescriptor := follows_descriptor h (mod_size_lt hmax hpos index)
      refine Follows.bind hdescriptor fun d u hrun => ?_
      have hu : Sound fits q u := h.of_kept ((leaves_descriptor q _).of_ok hrun)
      have hmore : taken + 1 < q.size.toNat := by omega
      rw [decide_eq_true hmore, Bool.and_true]
      split
      · exact Follows.bind (ih hu (by omega) d.next) fun rest v _ => Follows.pure _
      · exact Follows.pure _

lemma follows_serve (h : Sound fits q t) (head : UInt16) :
    Follows fits (serve q head) (VirtioBlock.serve q head) t := by
  obtain ⟨room, hroom⟩ : ∃ room, q.size.toNat = room + 1 := ⟨q.size.toNat - 1, by omega⟩
  have hchain : Follows fits (chain q q.size.toNat 0 head)
      (VirtioBlock.chain q q.size.toNat head) t := by
    rw [hroom]
    exact follows_chain hpos hmax h (by omega) head
  refine Follows.bind hchain fun links u hlinks => ?_
  have hu : Sound fits q u := h.of_kept ((leaves_chain q _ head).of_ok hlinks)
  rcases links with _ | ⟨header, _ | ⟨second, rest⟩⟩
  · exact Follows.pure _
  · exact Follows.pure _
  cases (header :: second :: rest).getLast? with
  | none => exact Follows.pure _
  | some last =>
      simp only
      split
      · refine Follows.bind (Follows.attempt _) fun kind u₁ hkind => ?_
        refine Follows.addAddress
          (fun hfits => (hu.fits hfits).header _ (contains_of_read hkind)) ?_
        refine Follows.bind (Follows.attempt _) fun sector u₂ hsector => ?_
        have hu₂ : Sound fits q u₂ := (hu.of_kept ((leaves_read _ _).of_ok hkind)).of_kept
          ((leaves_read _ _).of_ok hsector)
        have hget : Follows fits (get : EStateM Stop Transfer Transfer)
            (get : EStateM AccessFault Transfer Transfer) u₂ := Or.inl rfl
        refine Follows.bind hget fun _ u₃ hsame => ?_
        cases hsame
        have hlimit := hu₂.limit_lt
        refine Follows.bind (follows_perform _ _ _ (Nat.le_refl _) (Nat.lt_of_succ_lt hlimit))
          fun r u₃ hr => ?_
        refine Follows.bind (Follows.attempt _) fun _ u₄ _ => ?_
        refine Follows.addLength ?_ (Follows.pure _)
        have hwritten := toNat_perform hr
        have hone : (1 : UInt32).toNat = 1 := rfl
        omega
      · exact Follows.pure _

lemma follows_pushUsed (h : Sound fits q t) (head : UInt16) (len : UInt32) :
    Follows fits (pushUsed q head len) (VirtioBlock.pushUsed q head len) t := by
  have hring (hfits : fits) : q.device.toNat + 4 + 8 * q.size.toNat ≤ 2 ^ 64 :=
    (h.fits hfits).device
  have hindex (hfits : fits) : q.device.toNat + (2 : UInt64).toNat < 2 ^ 64 := by
    have := hring hfits
    exact show q.device.toNat + 2 < 2 ^ 64 by omega
  refine Follows.addAddress hindex ?_
  refine Follows.bind (Follows.attempt _) fun used u _ => ?_
  refine Follows.remainder (size_ne_zero hpos hmax) ?_
  have hslot := mod_size_lt hmax hpos used.toUInt16
  have hscaled : (8 * (used.toUInt16 % q.size.toUInt16).toUInt64).toNat =
      8 * (used.toUInt16 % q.size.toUInt16).toNat := toNat_scaled (by decide) _
  have hstart (hfits : fits) : (q.device + 4).toNat = q.device.toNat + 4 := by
    have := hring hfits
    exact toNat_add_of_lt (show q.device.toNat + 4 < 2 ^ 64 by omega)
  have hentry (hfits : fits) :
      (q.device + 4 + 8 * (used.toUInt16 % q.size.toUInt16).toUInt64).toNat =
        q.device.toNat + 4 + 8 * (used.toUInt16 % q.size.toUInt16).toNat := by
    have := hring hfits
    have := hstart hfits
    rw [toNat_add_of_lt] <;> omega
  refine Follows.addAddress (fun hfits => ?_) (Follows.addAddress (fun hfits => ?_) ?_)
  · have := hring hfits
    exact show q.device.toNat + 4 < 2 ^ 64 by omega
  · have := hring hfits
    have := hstart hfits
    omega
  refine Follows.bind (Follows.attempt _) fun _ u _ => ?_
  refine Follows.addAddress (fun hfits => ?_) ?_
  · have := hring hfits
    rw [hentry hfits]
    exact show q.device.toNat + 4 + 8 * _ + 4 < 2 ^ 64 by omega
  refine Follows.bind (Follows.attempt _) fun _ u _ => ?_
  exact Follows.addAddress hindex (Follows.attempt _)

lemma follows_availableHead (h : Sound fits q t) (index : UInt16) :
    Follows fits (availableHead q index)
      (Transfer.read (q.driver + 4 + 2 * (index % q.size.toUInt16).toUInt64) .half) t := by
  have hslot := mod_size_lt hmax hpos index
  have hscaled : (2 * (index % q.size.toUInt16).toUInt64).toNat =
      2 * (index % q.size.toUInt16).toNat := toNat_scaled (by decide) _
  have hring (hfits : fits) : q.driver.toNat + 4 + 2 * q.size.toNat ≤ 2 ^ 64 :=
    (h.fits hfits).driver
  refine Follows.remainder (size_ne_zero hpos hmax) ?_
  refine Follows.addAddress (fun hfits => ?_) (Follows.addAddress (fun hfits => ?_) ?_)
  · have := hring hfits
    exact show q.driver.toNat + 4 < 2 ^ 64 by omega
  · have := hring hfits
    have hstart : (q.driver + 4).toNat = q.driver.toNat + 4 :=
      toNat_add_of_lt (show q.driver.toNat + 4 < 2 ^ 64 by omega)
    omega
  · exact Follows.attempt _

/-! ## The queue -/

lemma agrees_finish {p : Progress} {head : UInt16} {len : UInt32} {notices : List Notice}
    {done : Bool × Progress} (h : Sound fits q t)
    (hok : ∀ u, VirtioBlock.pushUsed q head len t = .ok () u →
      done = (true, ⟨u, p.lastAvailable + 1, p.interruptStatus ||| 1, notices⟩))
    (herror : ∀ fault u, VirtioBlock.pushUsed q head len t = .error fault u →
      done = (false, ⟨u, p.lastAvailable, p.interruptStatus, .usedRingFault fault :: notices⟩)) :
    Agrees fits (finish q p head len t notices) done := by
  refine Agrees.bind (follows_pushUsed hpos hmax h head len) ?_
  cases hpush : VirtioBlock.pushUsed q head len t with
  | ok _ u =>
      rw [hok u hpush]
      exact Agrees.pure _
  | error fault u =>
      rw [herror fault u hpush]
      exact Agrees.pure _

lemma agrees_serveEntry {p : Progress} (h : Sound fits q p.transfer) :
    Agrees fits (serveEntry q p) (VirtioBlock.serveEntry q p) := by
  refine Agrees.bind (follows_availableHead hpos hmax h p.lastAvailable) ?_
  rw [VirtioBlock.serveEntry]
  cases hread : Transfer.read (q.driver + 4 + 2 * (p.lastAvailable % q.size.toUInt16).toUInt64)
      .half p.transfer with
  | error fault t => exact Agrees.pure _
  | ok head t =>
      have ht : Sound fits q t := h.of_kept ((leaves_read _ _).of_ok hread)
      refine Agrees.bind (follows_serve hpos hmax ht head.toUInt16) ?_
      have hkept := framed_kept.serve q head.toUInt16 t
      cases hserve : VirtioBlock.serve q head.toUInt16 t with
      | error fault u =>
          rw [hserve] at hkept
          refine agrees_finish hpos hmax (ht.of_kept hkept) (fun v hv => ?_) fun f v hv => ?_ <;>
            simp only [hserve, hv]
      | ok outcome u =>
          rw [hserve] at hkept
          cases outcome <;>
            refine agrees_finish hpos hmax (ht.of_kept hkept) (fun v hv => ?_) fun f v hv => ?_ <;>
              simp only [hserve, hv]

omit hpos hmax in
/-- An entry that is reported is the last one served. -/
lemma lastAvailable_serveEntry {p p' : Progress} (hrun : VirtioBlock.serveEntry q p = (true, p')) :
    p'.lastAvailable = p.lastAvailable + 1 := by
  rw [VirtioBlock.serveEntry] at hrun
  simp only at hrun
  split at hrun
  · cases hrun
  · split at hrun <;> split at hrun <;> cases hrun <;> rfl

/-- **The loop ends after the entries that wait,** if it has a round for each of them. -/
lemma agrees_serveUpTo {available : UInt16} {count rounds : Nat} {p : Progress}
    (h : Sound fits q p.transfer) (hcount : (available - p.lastAvailable).toNat = count)
    (hrounds : count ≤ rounds) :
    Agrees fits (serveUpTo q available rounds p) (VirtioBlock.serveEntries q count p) := by
  induction count generalizing rounds p with
  | zero =>
      have hzero : available - p.lastAvailable = 0 := UInt16.toNat_inj.mp hcount
      have hend : p.lastAvailable = available := by
        rw [← UInt16.sub_add_cancel available p.lastAvailable, hzero, UInt16.zero_add]
      cases rounds <;> rw [serveUpTo, if_pos hend] <;> exact Agrees.pure _
  | succ count ih =>
      obtain ⟨rounds, rfl⟩ : ∃ r, rounds = r + 1 := ⟨rounds - 1, by omega⟩
      have hmore : p.lastAvailable ≠ available := by
        intro hend
        rw [hend, UInt16.sub_self] at hcount
        cases hcount
      rw [serveUpTo, if_neg hmore, VirtioBlock.serveEntries]
      refine Agrees.bind (agrees_serveEntry hpos hmax h) ?_
      have hkept := framed_kept.serveEntry q p
      cases hentry : VirtioBlock.serveEntry q p with
      | mk goOn p' =>
          cases goOn with
          | false => exact Agrees.pure _
          | true =>
              rw [hentry] at hkept
              refine ih (h.of_kept hkept) ?_ (by omega)
              rw [lastAvailable_serveEntry hentry]
              rw [UInt16.toNat_sub] at hcount ⊢
              rw [UInt16.toNat_add]
              have := available.toNat_lt
              have := p.lastAvailable.toNat_lt
              have hone : (1 : UInt16).toNat = 1 := rfl
              omega

end Queue

lemma agrees_serveQueue {q : VirtioQueue} (hmax : q.size.toNat ≤ 64) {p : Progress}
    (h : Sound fits q p.transfer) :
    Agrees fits (serveQueue q p) (VirtioBlock.serveQueue q p) := by
  rw [serveQueue, VirtioBlock.serveQueue]
  split
  · exact Agrees.pure _
  · next hready =>
    have hpos : 0 < q.size.toNat := by
      refine Nat.pos_of_ne_zero fun hzero => hready ?_
      have hsize : q.size = 0 := UInt32.toNat_inj.mp hzero
      rw [hsize, Bool.or_eq_true]
      exact Or.inr rfl
    have hindex (hfits : fits) : q.driver.toNat + (2 : UInt64).toNat < 2 ^ 64 := by
      have := (h.fits hfits).driver
      exact show q.driver.toNat + 2 < 2 ^ 64 by omega
    refine Agrees.bind (Follows.addAddress hindex (Follows.attempt _)) ?_
    rw [Transfer.read]
    by_cases hin : p.transfer.ram.contains (q.driver + 2) 2 = true
    · rw [if_pos (show p.transfer.ram.contains _ Width.half.bytes = true from hin), if_pos hin]
      refine agrees_serveUpTo hpos hmax h rfl ?_
      have := UInt16.toNat_lt
        ((p.transfer.ram.load (q.driver + 2) .half).toUInt16 - p.lastAvailable)
      omega
    · rw [if_neg (show ¬p.transfer.ram.contains _ Width.half.bytes = true from hin), if_neg hin]
      exact Agrees.pure _

/-- **A checked step does what the device does.**  Its checks do not fail, but for one of a sum of
    addresses. -/
lemma agrees_answer {v : VirtioBlock} (hmax : v.queue.size.toNat ≤ 64)
    (hdisk : ∀ disk ∈ v.disk, disk.size.toNat < 2 ^ 32) (ram : Memory) :
    Agrees (v.queue.Fits ram) (answer v ram) (v.answer ram) := by
  rw [answer, VirtioBlock.answer]
  cases v.notified with
  | false => exact Agrees.pure _
  | true =>
      cases hv : v.disk with
      | none => exact Agrees.pure _
      | some disk =>
          have h : Sound (v.queue.Fits ram) v.queue ⟨ram, disk⟩ := ⟨id, hdisk disk hv⟩
          exact Agrees.bind (agrees_serveQueue hmax h) (Agrees.pure _)

end Checked

end VirtioBlock

end Rv64Board
