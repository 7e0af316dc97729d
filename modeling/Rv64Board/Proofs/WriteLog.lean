import Rv64Board.Proofs.Confinement
import Rv64Board.Proofs.MemoryChanges

/-!
# The writes that an instruction makes

What an instruction does to memory is a row of writes, in order: entries of page tables that are
marked, and then the data of a store.

* `MemoryWrite`, `Memory.replay` — a write, and a memory after a row of writes.
* `Makes view x s log` — the run of `x` from `s` does to memory what the row `log` does, **no more
  and no less.**  Rows follow sequences (`Makes.bind`), so the row of a long computation is put
  together from those of its accesses.
* `Hart.updates`, `Hart.storeWrites`, `Hart.fetchWrites`, `Instruction.writes`, `Board.writes` — the
  rows of a translation, a store, a fetch, an instruction and a step.
* `byte_replay` — a byte that no write of a row takes is left alone.
-/

namespace Rv64Board

/-! ## Rows of writes -/

/-- Bytes that are written from an address on. -/
structure MemoryWrite where
  address : UInt64
  bytes : List UInt8
  deriving DecidableEq

namespace Memory

/-- A memory after a write.  One that is not for memory, or not for memory alone, changes
    nothing. -/
def applied (m : Memory) (x : MemoryWrite) : Memory :=
  if m.contains x.address x.bytes.length then m.patch (m.offset x.address) x.bytes else m

/-- A memory after a row of writes. -/
def replay (m : Memory) (log : List MemoryWrite) : Memory := log.foldl applied m

/-- A write of a row takes the byte at an address. -/
def Receives (m : Memory) (log : List MemoryWrite) (a : Nat) : Prop :=
  ∃ x ∈ log, m.contains x.address x.bytes.length = true ∧ x.address.toNat ≤ a ∧
    a < x.address.toNat + x.bytes.length

instance (m : Memory) (log : List MemoryWrite) (a : Nat) : Decidable (m.Receives log a) :=
  inferInstanceAs (Decidable (∃ x ∈ log, _))

variable {m : Memory} {x : MemoryWrite} {log : List MemoryWrite}

@[simp] lemma replay_nil (m : Memory) : m.replay [] = m := rfl

@[simp] lemma replay_cons (m : Memory) (x : MemoryWrite) (log : List MemoryWrite) :
    m.replay (x :: log) = (m.applied x).replay log := rfl

@[simp] lemma replay_append (m : Memory) (log log' : List MemoryWrite) :
    m.replay (log ++ log') = (m.replay log).replay log' := List.foldl_append

@[simp] lemma base_applied (m : Memory) (x : MemoryWrite) : (m.applied x).base = m.base := by
  rw [applied]
  split
  · exact base_patch _ _ _
  · rfl

@[simp] lemma size_applied (m : Memory) (x : MemoryWrite) : (m.applied x).size = m.size := by
  rw [applied]
  split
  · exact size_patch _ _ _
  · rfl

lemma extent_replay (m : Memory) (log : List MemoryWrite) :
    (m.replay log).base = m.base ∧ (m.replay log).size = m.size := by
  induction log generalizing m with
  | nil => exact ⟨rfl, rfl⟩
  | cons x log ih => simpa using ih (m.applied x)

lemma receives_of_extent {m' : Memory} (hbase : m'.base = m.base) (hsize : m'.size = m.size)
    {a : Nat} : m'.Receives log a ↔ m.Receives log a := by
  simp only [Receives, contains, hbase, hsize]

lemma receives_append {log' : List MemoryWrite} {a : Nat} :
    m.Receives (log ++ log') a ↔ m.Receives log a ∨ m.Receives log' a := by
  simp only [Receives, List.mem_append, or_and_right, exists_or]

/-- **A byte that no write of a row takes is left alone.** -/
lemma byte_replay {j : Nat} (hj : ¬m.Receives log (m.base.toNat + j)) :
    (m.replay log).byte j = m.byte j := by
  induction log generalizing m with
  | nil => rfl
  | cons x log ih =>
      rw [← List.singleton_append, receives_append, not_or] at hj
      have hrest : ¬(m.applied x).Receives log ((m.applied x).base.toNat + j) := by
        rw [receives_of_extent (base_applied m x) (size_applied m x), base_applied]
        exact hj.2
      rw [replay_cons, ih hrest, applied]
      split
      · next hin =>
        have hoffset := base_add_offset hin
        rw [byte_patch _ _ _ _ (offset_add_le hin), if_neg]
        intro htaken
        exact hj.1 ⟨x, List.mem_singleton_self x, hin, by omega, by omega⟩
      · rfl

lemma applied_store (m : Memory) (address : UInt64) (w : Width) (value : UInt64) :
    m.applied ⟨address, LittleEndian.toBytes w.bytes value.toNat⟩ =
      if m.contains address w.bytes then m.store address w value else m := by
  simp only [applied, LittleEndian.length_toBytes]
  rfl

end Memory

/-! ## Runs and their writes -/

section Makes

variable {ε ε' σ α β : Type}

/-- The writes that follow an answer; after an exception there are none. -/
def following (r : EStateM.Result ε σ α) (log : α → σ → List MemoryWrite) : List MemoryWrite :=
  match r with
  | .ok a t => log a t
  | .error _ _ => []

/-- A run does to memory what a row of writes does. -/
def Makes (view : σ → Memory) (x : EStateM ε σ α) (s : σ) (log : List MemoryWrite) : Prop :=
  view (finalState (x s)) = (view s).replay log

variable {view : σ → Memory} {x : EStateM ε σ α} {s : σ} {log : List MemoryWrite}

lemma following_adaptExcept (g : ε → ε') (x : EStateM ε σ α) (s : σ)
    (log : α → σ → List MemoryWrite) :
    following (EStateM.adaptExcept g x s) log = following (x s) log := by
  simp only [EStateM.adaptExcept]
  cases x s <;> rfl

namespace Makes

lemma pure (a : α) : Makes view (Pure.pure a : EStateM ε σ α) s [] := rfl

lemma throw (e : ε) : Makes view (MonadExcept.throw e : EStateM ε σ α) s [] := rfl

lemma adaptExcept {g : ε → ε'} (hx : Makes view x s log) :
    Makes view (EStateM.adaptExcept g x) s log := by
  rw [Makes, finalState_adaptExcept]
  exact hx

/-- Writes do not move memory. -/
lemma contains_eq {a : α} {t : σ} (hx : Makes view x s log) (hrun : x s = .ok a t)
    (address : UInt64) (len : Nat) :
    (view t).contains address len = (view s).contains address len := by
  rw [Makes, hrun, finalState_ok] at hx
  obtain ⟨hbase, hsize⟩ := (view s).extent_replay log
  rw [hx, Memory.contains, Memory.contains, hbase, hsize]

/-- **The writes of a sequence** are those of its first part, and then those of its second part if
    it comes to that. -/
lemma bind {f : α → EStateM ε σ β} {log' : α → σ → List MemoryWrite} (hx : Makes view x s log)
    (hf : ∀ a t, x s = .ok a t → Makes view (f a) t (log' a t)) :
    Makes view (x >>= f) s (log ++ following (x s) log') := by
  cases hrun : x s with
  | error e t =>
      rw [Makes, hrun] at hx
      rw [Makes, bind_run_error hrun, following, List.append_nil]
      exact hx
  | ok a t =>
      rw [Makes, hrun, finalState_ok] at hx
      have hrest := hf a t hrun
      rw [Makes] at hrest
      rw [Makes, bind_run_ok hrun, hrest, hx, following, Memory.replay_append]

/-- A first part that leaves memory alone. -/
lemma after_silent {f : α → EStateM ε σ β} {log' : α → σ → List MemoryWrite}
    (hx : view (finalState (x s)) = view s)
    (hf : ∀ a t, x s = .ok a t → Makes view (f a) t (log' a t)) :
    Makes view (x >>= f) s (following (x s) log') := by
  have hnone : Makes view x s [] := hx
  exact bind hnone hf

/-- A second part that leaves memory alone. -/
lemma before_silent {f : α → EStateM ε σ β} (hx : Makes view x s log)
    (hf : ∀ a t, view (finalState (f a t)) = view t) : Makes view (x >>= f) s log := by
  have hrest (a : α) (t : σ) (_ : x s = .ok a t) : Makes view (f a) t [] := hf a t
  have hall := bind hx hrest
  have hnone : following (x s) (fun _ _ => []) = [] := by cases x s <;> rfl
  rwa [hnone, List.append_nil] at hall

end Makes

end Makes

lemma Bus.makes_write (address : UInt64) (w : Width) (value : UInt64) (b : Bus) :
    Makes Bus.ram (Bus.write address w value) b
      [⟨address, LittleEndian.toBytes w.bytes value.toNat⟩] := by
  rw [Makes, Memory.replay_cons, Memory.replay_nil, Memory.applied_store]
  rcases Bus.write_cases address w value b with ⟨hin, hw⟩ | ⟨hout, _, b', hw, hram, _⟩ | ⟨hno, hw⟩
  · rw [hw, if_pos hin]
    rfl
  · rw [hw, if_neg (by simp [hout])]
    exact hram
  · have hout : ¬b.ram.contains address w.bytes = true := by
      intro hin
      rw [Bus.contains_of_ram hin] at hno
      cases hno
    rw [hw, if_neg hout]
    rfl

/-! ## Translations -/

/-- The write that marks a leaf, if it is not refused and lacks a mark. -/
def Paging.Leaf.update (leaf : Paging.Leaf) (status : Mstatus) (level : Privilege)
    (access : Access) : List MemoryWrite :=
  if leaf.refuses status access level ∨ leaf.pte.marked access = leaf.pte then []
  else [⟨leaf.entry, LittleEndian.toBytes 8 (leaf.pte.marked access).bits.toNat⟩]

lemma Paging.makes_settle (status : Mstatus) (level : Privilege) (access : Access)
    (address : UInt64) (leaf : Paging.Leaf) (b : Bus) :
    Makes Bus.ram (settle status level true access address leaf) b
      (leaf.update status level access) := by
  rw [settle, Leaf.update]
  by_cases hrefused : leaf.refuses status access level = true
  · rw [if_pos hrefused, if_pos (Or.inl hrefused)]
    exact Makes.throw _
  · rw [if_neg hrefused]
    by_cases hmarked : leaf.pte.marked access = leaf.pte
    · rw [if_pos (Or.inr hmarked)]
      simp only [hmarked, bne_self_eq_false, Bool.and_false]
      exact Makes.pure _
    · rw [if_neg (not_or.mpr ⟨hrefused, hmarked⟩)]
      simp only [Bool.true_and, bne_iff_ne, ne_eq, hmarked, not_false_eq_true, if_true]
      exact Makes.before_silent (Bus.makes_write _ .double _ b).adaptExcept fun _ _ => rfl

namespace Hart

/-- The update of a page table that comes with a translation. -/
def updates (h : Hart) (access : Access) (address : UInt64) (b : Bus) : List MemoryWrite :=
  if h.Paged access ∧ Paging.canonical address = true then
    following (Paging.locate access address 3 (h.csrs.rootPage * 0x1000) b) fun leaf _ =>
      leaf.update h.csrs.mstatus (h.effectiveLevel access) access
  else []

/-- The updates of the translations of a row of addresses. -/
def updatesAll (h : Hart) (access : Access) : List UInt64 → Bus → List MemoryWrite
  | [], _ => []
  | a :: rest, b =>
    h.updates access a b ++ following (h.translate access a b) fun _ c => h.updatesAll access rest c

variable {h : Hart} {access : Access} {address : UInt64} {w : Width} {value : UInt64} {b : Bus}

lemma makes_translate (h : Hart) (access : Access) (address : UInt64) (b : Bus) :
    Makes Bus.ram (h.translate access address) b (h.updates access address b) := by
  rw [translate, updates]
  by_cases hpaged : h.Paged access
  · rw [physicalAddress_of_paged hpaged]
    by_cases hcanonical : Paging.canonical address = true
    · rw [if_pos hcanonical, if_pos ⟨hpaged, hcanonical⟩]
      refine Makes.after_silent ?_ fun leaf t _ => Paging.makes_settle _ _ _ _ leaf t
      exact Paging.leaves_locate Bus.leaves_sameRam_read _ _ _ _ b
    · rw [if_neg hcanonical, if_neg fun hboth => hcanonical hboth.2]
      exact Makes.throw _
  · rw [if_neg fun hboth => hpaged hboth.1, Makes, physicalAddress_of_not_paged hpaged]
    rfl

lemma makes_translateAll (h : Hart) (access : Access) (row : List UInt64) (b : Bus) :
    Makes Bus.ram (h.translateAll access row) b (h.updatesAll access row b) := by
  induction row generalizing b with
  | nil => exact Makes.pure _
  | cons a row ih =>
      refine Makes.bind (h.makes_translate access a b) fun pa t _ => ?_
      exact Makes.before_silent (ih t) fun _ _ => rfl

/-! ## Loads, stores and fetches -/

/-- The writes of a load are those of its translations. -/
def loadWrites (h : Hart) (address : UInt64) (w : Width) (b : Bus) : List MemoryWrite :=
  if w.aligned address then h.updates .load address b
  else h.updatesAll .load (byteAddresses address w) b

/-- The writes of a store: those of its translations, and then its data, byte by byte if it is
    misaligned. -/
def storeWrites (h : Hart) (address : UInt64) (w : Width) (value : UInt64) (b : Bus) :
    List MemoryWrite :=
  let data := LittleEndian.toBytes w.bytes value.toNat
  if w.aligned address then
    h.updates .store address b ++
      following (h.translate .store address b) fun pa _ => [⟨pa, data⟩]
  else
    h.updatesAll .store (byteAddresses address w) b ++
      following (h.translateAll .store (byteAddresses address w) b) fun row c =>
        if row.all fun a => c.contains a 1 then (row.zip data).map fun p => ⟨p.1, [p.2]⟩ else []

/-- The writes of a fetch: those of the translations of one or two parcels. -/
def fetchWrites (h : Hart) (b : Bus) : List MemoryWrite :=
  h.updates .fetch h.pc b ++ following (h.fetchHalf h.pc b) fun low c =>
    if Instruction.lengthOf low.toUInt32 = 2 then [] else h.updates .fetch (h.pc + 2) c

lemma makes_load (h : Hart) (address : UInt64) (w : Width) (b : Bus) :
    Makes Bus.ram (h.load address w) b (h.loadWrites address w b) := by
  rw [load, loadWrites]
  split
  · refine Makes.before_silent (h.makes_translate .load address b) fun pa t => ?_
    exact (Bus.leaves_sameRam_read pa w).adaptExcept t
  · refine Makes.before_silent (h.makes_translateAll .load _ b) fun row t => ?_
    have hread : Makes Bus.ram (readEach (.loadAccessFault address) row) t [] :=
      leaves_readEach Bus.leaves_sameRam_read _ row t
    exact Makes.before_silent hread fun _ _ => rfl

/-- A row of bytes that is backed is written byte by byte, to its end. -/
lemma makes_writeEach (fault : Exception) {row : List (UInt64 × UInt8)} {b : Bus}
    (hbacked : ∀ p ∈ row, b.contains p.1 1 = true) :
    Makes Bus.ram (writeEach fault row) b (row.map fun p => ⟨p.1, [p.2]⟩) := by
  induction row generalizing b with
  | nil => exact Makes.pure _
  | cons p row ih =>
      obtain ⟨a, v⟩ := p
      have hone := Bus.makes_write a .byte v.toUInt64 b
      have hdata : LittleEndian.toBytes Width.byte.bytes v.toUInt64.toNat = [v] := by
        simp [Width.bytes, LittleEndian.toBytes]
      rw [hdata] at hone
      have hfirst : b.contains a Width.byte.bytes = true := hbacked (a, v) List.mem_cons_self
      obtain ⟨c, hwrite⟩ := Bus.write_of_contains hfirst v.toUInt64
      have hmap := (Bus.leaves_sameMap_write _ _ _).of_ok hwrite
      have hrest := ih (b := c) fun p hp => by
        rw [hmap.contains_eq]
        exact hbacked p (List.mem_cons_of_mem _ hp)
      have hrun :
          EStateM.adaptExcept (fun _ => fault) (Bus.write a .byte v.toUInt64) b = .ok () c :=
        adaptExcept_eq_ok.mpr hwrite
      rw [Makes, hwrite, finalState_ok] at hone
      rw [Makes] at hrest
      rw [writeEach, Makes, bind_run_ok hrun, hrest, hone, List.map_cons, Memory.replay_cons]
      rfl

lemma makes_store (h : Hart) (address : UInt64) (w : Width) (value : UInt64) (b : Bus) :
    Makes Bus.ram (h.store address w value) b (h.storeWrites address w value b) := by
  rw [store, storeWrites]
  split
  · refine Makes.bind (h.makes_translate .store address b) fun pa t _ => ?_
    exact (Bus.makes_write pa w value t).adaptExcept
  · refine Makes.bind (h.makes_translateAll .store _ b) fun row t _ => ?_
    rw [Makes, bind_run_ok (show backed row t = .ok _ t from rfl)]
    split
    · next hall =>
      refine makes_writeEach _ fun p hp => ?_
      rw [List.all_eq_true] at hall
      exact hall p.1 (List.of_mem_zip hp).1
    · rfl

lemma makes_fetchHalf (h : Hart) (address : UInt64) (b : Bus) :
    Makes Bus.ram (h.fetchHalf address) b (h.updates .fetch address b) := by
  refine Makes.before_silent (h.makes_translate .fetch address b) fun pa t => ?_
  have hread : Makes Bus.ram (EStateM.adaptExcept
      (fun _ => Exception.instructionAccessFault address) (Bus.read pa .half)) t [] :=
    (Bus.leaves_sameRam_read pa .half).adaptExcept t
  exact Makes.before_silent hread fun _ _ => rfl

lemma makes_fetch (h : Hart) (b : Bus) : Makes Bus.ram h.fetch b (h.fetchWrites b) := by
  have hdecoded {α : Type} (x : Except Exception α) (f : α → Fetched) (t : Bus) :
      Makes Bus.ram (do return f (← ofExcept x)) t [] := by
    cases x <;> rfl
  refine Makes.bind (h.makes_fetchHalf h.pc b) fun low t _ => ?_
  split
  · exact hdecoded _ _ t
  · refine Makes.before_silent (h.makes_fetchHalf (h.pc + 2) t) fun high u => ?_
    exact hdecoded _ _ u

end Hart

/-! ## Instructions -/

namespace Hart

/-- The writes of an access that has to be aligned: its translation, and then the data that its
    physical address asks for. -/
def atomicWrites (h : Hart) (access : Access) (address : UInt64) (w : Width)
    (data : UInt64 → Bus → List MemoryWrite) (b : Bus) : List MemoryWrite :=
  if w.aligned address then
    h.updates access address b ++ following (h.translate access address b) data
  else []

end Hart

/-- The writes of an instruction, in order. -/
def Instruction.writes (h : Hart) (b : Bus) : Instruction → List MemoryWrite
  | .load kind _ rs1 offset =>
    h.loadWrites (h.get rs1 + UInt64.ofInt offset) kind.width.1 b
  | .store kind rs1 rs2 offset =>
    h.storeWrites (h.get rs1 + UInt64.ofInt offset) kind.width (h.get rs2) b
  | .loadReserved kind _ rs1 => h.atomicWrites .load (h.get rs1) kind.width (fun _ _ => []) b
  | .storeConditional kind _ rs1 rs2 =>
    h.atomicWrites .store (h.get rs1) kind.width
      (fun pa _ =>
        if h.reservation = some pa then
          [⟨pa, LittleEndian.toBytes kind.width.bytes (h.get rs2).toNat⟩]
        else []) b
  | .amo op kind _ rs1 rs2 =>
    h.atomicWrites .store (h.get rs1) kind.width
      (fun pa c =>
        following (Bus.read pa kind.width c) fun old _ =>
          [⟨pa, LittleEndian.toBytes kind.width.bytes
            (op.eval kind (signExtend kind.width old) (h.get rs2)).toNat⟩]) b
  | _ => []

namespace Board

/-- The memory of a board. -/
def memory (b : Board) : Memory := b.bus.ram

variable {α β : Type} {b : Board}

lemma makes_onBus {x : EStateM Exception Bus α} {log : List MemoryWrite}
    (hx : Makes Bus.ram x b.bus log) : Makes memory (onBus x) b log := by
  rw [Makes, memory, bus_onBus]
  exact hx

lemma following_onBus (x : EStateM Exception Bus α) (b : Board) (log : α → Bus → List MemoryWrite) :
    following (onBus x b) (fun a t => log a t.bus) = following (x b.bus) log := by
  rw [onBus]
  cases x b.bus <;> rfl

/-- Work on the bus, followed by more. -/
lemma makes_onBus_bind {x : EStateM Exception Bus α} {f : α → EStateM Exception Board β}
    {log : List MemoryWrite} {log' : α → Bus → List MemoryWrite} (hx : Makes Bus.ram x b.bus log)
    (hf : ∀ a c, x b.bus = .ok a c → Makes memory (f a) { b with bus := c } (log' a c)) :
    Makes memory (onBus x >>= f) b (log ++ following (x b.bus) log') := by
  rw [← following_onBus]
  refine Makes.bind (makes_onBus hx) fun a t ht => ?_
  obtain ⟨hrun, hbus⟩ := onBus_eq_ok.mp ht
  rw [hbus]
  exact hf a t.bus hrun

lemma memory_of_sameBus {x : EStateM Exception Board α} (hx : Leaves SameBus x) (b : Board) :
    memory (finalState (x b)) = memory b := by
  rw [memory, hx b]
  rfl

/-- What only changes the hart makes no writes. -/
lemma makes_of_sameBus {x : EStateM Exception Board α} (hx : Leaves SameBus x) (b : Board) :
    Makes memory x b [] :=
  memory_of_sameBus hx b

lemma leaves_sameBus_modifyHart_set (f : Hart → Hart) (rd : Reg) (value : UInt64) :
    Leaves SameBus (do modifyHart f; setRegister rd value) :=
  Leaves.bind (leaves_sameBus_modifyHart f) fun _ => leaves_sameBus_setRegister rd value

lemma makes_loadReserved (kind : AmoKind) (rd rs1 : Reg) (b : Board) :
    Makes memory (loadReserved kind.width rd rs1) b
      ((Instruction.loadReserved kind rd rs1).writes b.hart b.bus) := by
  simp only [Instruction.writes, Hart.atomicWrites]
  rw [loadReserved, Makes, getHart_bind]
  split
  · refine makes_onBus_bind (b.hart.makes_translate .load _ b.bus) fun pa c _ => ?_
    have hread : Makes Bus.ram (EStateM.adaptExcept
        (fun _ => Exception.loadAccessFault (b.hart.get rs1)) (Bus.read pa kind.width)) c [] :=
      (Bus.leaves_sameRam_read pa kind.width).adaptExcept c
    refine Makes.before_silent (makes_onBus hread) fun v t => ?_
    exact memory_of_sameBus (leaves_sameBus_modifyHart_set _ _ _) t
  · rfl

lemma makes_storeConditional (kind : AmoKind) (rd rs1 rs2 : Reg) (b : Board) :
    Makes memory (storeConditional kind.width rd rs1 rs2) b
      ((Instruction.storeConditional kind rd rs1 rs2).writes b.hart b.bus) := by
  simp only [Instruction.writes, Hart.atomicWrites]
  rw [storeConditional, Makes, getHart_bind]
  simp only [Hart.atomicAddress]
  split
  · refine makes_onBus_bind (b.hart.makes_translate .store _ b.bus) fun pa c _ => ?_
    by_cases hreserved : b.hart.reservation = some pa
    · simp only [hreserved, decide_true, if_true]
      refine Makes.before_silent (makes_onBus (Bus.makes_write pa kind.width _ c).adaptExcept) ?_
      exact fun _ t => memory_of_sameBus (leaves_sameBus_modifyHart_set _ _ _) t
    · simp only [hreserved, decide_false, Bool.false_eq_true, if_false]
      exact makes_of_sameBus (leaves_sameBus_modifyHart_set _ _ _) _
  · rfl

lemma makes_atomicUpdate (op : AmoOp) (kind : AmoKind) (rd rs1 rs2 : Reg) (b : Board) :
    Makes memory (atomicUpdate op kind rd rs1 rs2) b
      ((Instruction.amo op kind rd rs1 rs2).writes b.hart b.bus) := by
  simp only [Instruction.writes, Hart.atomicWrites]
  rw [atomicUpdate, Makes, getHart_bind]
  simp only [Hart.atomicAddress]
  split
  · refine makes_onBus_bind (b.hart.makes_translate .store _ b.bus) fun pa c _ => ?_
    rw [← following_adaptExcept (fun _ => Exception.storeAccessFault (b.hart.get rs1))]
    have hread : Makes Bus.ram (EStateM.adaptExcept
        (fun _ => Exception.storeAccessFault (b.hart.get rs1)) (Bus.read pa kind.width)) c [] :=
      (Bus.leaves_sameRam_read pa kind.width).adaptExcept c
    refine makes_onBus_bind (b := { b with bus := c }) hread fun v d _ => ?_
    refine Makes.before_silent (makes_onBus (Bus.makes_write pa kind.width _ d).adaptExcept) ?_
    exact fun _ t => memory_of_sameBus (leaves_sameBus_setRegister _ _) t
  · rfl

/-- **What an instruction does to memory is what its writes do.** -/
lemma makes_execute (i : Instruction) (raw : UInt32) (len : UInt64) (b : Board) :
    Makes memory (execute i raw len) b (i.writes b.hart b.bus) := by
  have hjump (target : UInt64) (t : Board) : memory (finalState (jump target t)) = memory t := rfl
  unfold execute
  rw [Makes, getHart_bind]
  cases i with
  | lui | auipc | jal | jalr | opImm | opReg | fence | fenceI | ecall | ebreak => rfl
  | branch | mret | sret | wfi | sfenceVma =>
      simp only
      split <;> rfl
  | csrReg op rd csr rs1 =>
      have haccess := makes_of_sameBus (leaves_sameBus_accessCsr op rd csr (b.hart.get rs1)
        (rs1 ≠ Reg.zero) raw) b
      exact haccess.before_silent fun _ t => hjump _ t
  | csrImm op rd csr uimm =>
      have haccess := makes_of_sameBus (leaves_sameBus_accessCsr op rd csr uimm.toUInt64
        (uimm ≠ 0) raw) b
      exact haccess.before_silent fun _ t => hjump _ t
  | load kind rd rs1 offset =>
      exact (makes_onBus (b.hart.makes_load _ _ b.bus)).before_silent fun _ _ => rfl
  | store kind rs1 rs2 offset =>
      exact (makes_onBus (b.hart.makes_store _ _ _ b.bus)).before_silent fun _ t => hjump _ t
  | loadReserved kind rd rs1 =>
      exact (makes_loadReserved kind rd rs1 b).before_silent fun _ t => hjump _ t
  | storeConditional kind rd rs1 rs2 =>
      exact (makes_storeConditional kind rd rs1 rs2 b).before_silent fun _ t => hjump _ t
  | amo op kind rd rs1 rs2 =>
      exact (makes_atomicUpdate op kind rd rs1 rs2 b).before_silent fun _ t => hjump _ t

/-- The writes of the instruction that comes next: those of its fetch, and then its own. -/
def writes (b : Board) : List MemoryWrite :=
  b.hart.fetchWrites b.bus ++ following (b.hart.fetch b.bus) fun f bus =>
    f.instruction.writes b.hart bus

/-- **So does fetching and executing one,** whether it completes or raises an exception. -/
lemma makes_executeNext (b : Board) : Makes memory executeNext b b.writes := by
  rw [executeNext, Makes, getHart_bind]
  refine makes_onBus_bind (b.hart.makes_fetch b.bus) fun f bus _ => ?_
  exact Makes.before_silent (makes_execute f.instruction f.raw f.len _) fun _ _ => rfl

end Board

end Rv64Board
