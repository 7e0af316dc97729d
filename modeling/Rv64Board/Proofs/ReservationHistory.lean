import Rv64Board.Proofs.ReservedData

/-!
# Reservations over a run

Whether a store-conditional succeeds depends on what has happened since the hart was reset, and of
that only on **the most recent event:** a load-reserved that has completed, a store-conditional that
has completed, a trap or a reset.  An interrupt may be taken at the end of the very step in which a
load-reserved completes; then the trap is the more recent of the two.

* `Event`, `Board.events` — the events, and those of one step.
* `Board.History log b` — the board `b` has come about by resets and steps, with whatever happened
  to its devices and its memory in between; `log` has the events, most recent first.
* `reservation_step`, `History.reservation` — **the reservation is what the most recent event has
  left,** kept by a step and so by a history.
* `conditional_store_pairing` — what a store-conditional does, by the log alone.
-/

namespace Rv64Board

/-- What can happen to a reservation. -/
inductive Event
  /-- A load-reserved has completed, at a physical address. -/
  | reserved (address : UInt64)
  /-- A store-conditional has completed, whether it has stored or not. -/
  | conditional
  /-- The handler of an exception or of an interrupt has been entered. -/
  | trapped
  /-- The hart has been reset. -/
  | reset
  deriving DecidableEq

/-- What the most recent event leaves reserved. -/
def Event.held : List Event → Option UInt64
  | .reserved p :: _ => some p
  | _ => none

lemma Event.held_eq_some_iff {log : List Event} {p : UInt64} :
    held log = some p ↔ log.head? = some (.reserved p) := by
  cases log with
  | nil => simp [held]
  | cons e log => cases e <;> simp [held]

namespace Hart

/-- A fetch marks the entries of page tables that it goes through, and that is all. -/
lemma leaves_ramMarked_fetch (h : Hart) : Leaves Bus.RamMarked h.fetch := by
  have hhalf (a : UInt64) : Leaves Bus.RamMarked (h.fetchHalf a) := by
    refine Leaves.bind (leaves_ramMarked_translate h .fetch a) fun pa => ?_
    exact Leaves.bind (Bus.leaves_ramMarked_read pa .half).adaptExcept fun _ => Leaves.pure _
  have hdecoded {α : Type} (x : Except Exception α) (f : α → Fetched) :
      Leaves Bus.RamMarked (do return f (← ofExcept x)) := by
    cases x with
    | ok a => exact Leaves.pure _
    | error e => exact Leaves.throw e
  refine Leaves.bind (hhalf h.pc) fun low => ?_
  split
  · exact hdecoded _ _
  · exact Leaves.bind (hhalf (h.pc + 2)) fun high => hdecoded _ _

end Hart

namespace Board

/-! ## The events of a step -/

/-- The event that the next instruction is, if it is one and completes. -/
def completion? (b : Board) : Option Event :=
  match executeNext b with
  | .ok (.loadReserved _ _ _) _ => b.reservedLoad?.map fun l => .reserved l.address
  | .ok (.storeConditional _ _ _ _) _ => some .conditional
  | _ => none

/-- The events of a step, most recent first: a trap comes after the instruction. -/
def events (b : Board) : List Event :=
  (if b.trap?.isSome then [.trapped] else []) ++ b.completion?.toList

/-- A board that has been reset and has made steps since, with its events, most recent first.
    Between two steps everything but the hart may change: the host may use the serial line or write
    to memory. -/
inductive History : List Event → Board → Prop
  | start (b : Board) (pc : UInt64) : History [.reset] (b.reset pc)
  | step {log : List Event} {b : Board} : History log b → History (b.events ++ log) b.step.2
  | reset {log : List Event} {b : Board} (pc : UInt64) :
    History log b → History (.reset :: log) (b.reset pc)
  | around {log : List Event} {b b' : Board} : History log b → b'.hart = b.hart → History log b'

/-- The events of a run of steps without interference. -/
def record (b : Board) : Nat → List Event
  | 0 => []
  | n + 1 => (b.after n).events ++ b.record n

lemma History.after {log : List Event} {b : Board} (h : History log b) (n : Nat) :
    History (b.record n ++ log) (b.after n) := by
  induction n with
  | zero => exact h
  | succ n ih =>
      rw [record, List.append_assoc]
      exact ih.step

/-! ## Instructions and the reservation -/

/-- Two boards with the same reservation. -/
abbrev SameReservation (b b' : Board) : Prop := b'.hart.reservation = b.hart.reservation

instance : IsPreorder Board SameReservation where
  refl _ := rfl
  trans _ _ _ hab hbc := Eq.trans hbc hab

variable {b c : Board} {i : Instruction} {raw : UInt32} {len : UInt64}

lemma leaves_sameReservation_onBus {α : Type} (x : EStateM Exception Bus α) :
    Leaves SameReservation (onBus x) := by
  intro b
  rw [onBus]
  cases x b.bus <;> rfl

lemma leaves_sameReservation_setRegister (rd : Reg) (value : UInt64) :
    Leaves SameReservation (setRegister rd value) := fun _ => rfl

lemma leaves_sameReservation_jump (target : UInt64) : Leaves SameReservation (jump target) :=
  fun _ => rfl

lemma leaves_sameReservation_accessCsr (op : CsrOp) (rd : Reg) (csr : Csr) (operand : UInt64)
    (named : Bool) (raw : UInt32) :
    Leaves SameReservation (accessCsr op rd csr operand named raw) := by
  intro b
  rcases accessCsr_cases op rd csr operand named raw b rfl with ⟨fault, hr⟩ | ⟨_, hr⟩ <;>
    rw [hr] <;> rfl

lemma leaves_sameReservation_atomicUpdate (op : AmoOp) (kind : AmoKind) (rd rs1 rs2 : Reg) :
    Leaves SameReservation (atomicUpdate op kind rd rs1 rs2) := by
  have hhart : Leaves SameReservation getHart := fun _ => rfl
  refine Leaves.bind hhart fun h => Leaves.bind (leaves_sameReservation_onBus _) fun pa => ?_
  refine Leaves.bind (leaves_sameReservation_onBus _) fun v => ?_
  refine Leaves.bind (leaves_sameReservation_onBus _) fun _ => ?_
  exact leaves_sameReservation_setRegister _ _

/-- **Only a load-reserved and a store-conditional change the reservation.** -/
lemma reservation_execute (hload : ∀ kind rd rs1, i ≠ .loadReserved kind rd rs1)
    (hstore : ∀ kind rd rs1 rs2, i ≠ .storeConditional kind rd rs1 rs2)
    (hx : execute i raw len b = .ok () c) : c.hart.reservation = b.hart.reservation := by
  have hjump {x : EStateM Exception Board Unit} {target : UInt64} {t : Board}
      (hleaves : Leaves SameReservation x) (hx : (do x; jump target) t = .ok () c) :
      c.hart.reservation = t.hart.reservation :=
    (Leaves.bind hleaves fun _ => leaves_sameReservation_jump target).of_ok hx
  unfold execute at hx
  rw [getHart_bind] at hx
  cases i with
  | loadReserved kind rd rs1 => exact absurd rfl (hload kind rd rs1)
  | storeConditional kind rd rs1 rs2 => exact absurd rfl (hstore kind rd rs1 rs2)
  | lui | auipc | jal | jalr | opImm | opReg =>
      exact hjump (leaves_sameReservation_setRegister _ _) hx
  | fence | fenceI => exact (leaves_sameReservation_jump _).of_ok hx
  | ecall | ebreak => cases hx
  | branch | mret | sret | wfi | sfenceVma =>
      simp only at hx
      split at hx <;> cases hx <;> rfl
  | load kind rd rs1 offset =>
      obtain ⟨v, t, hload, hrest⟩ := bind_eq_ok hx
      have hset := hjump (leaves_sameReservation_setRegister rd _) hrest
      exact hset.trans ((leaves_sameReservation_onBus _).of_ok hload)
  | store kind rs1 rs2 offset => exact hjump (leaves_sameReservation_onBus _) hx
  | csrReg op rd csr rs1 => exact hjump (leaves_sameReservation_accessCsr _ _ _ _ _ _) hx
  | csrImm op rd csr uimm => exact hjump (leaves_sameReservation_accessCsr _ _ _ _ _ _) hx
  | amo op kind rd rs1 rs2 => exact hjump (leaves_sameReservation_atomicUpdate _ _ _ _ _) hx

/-- Work on the bus that comes to an answer, and what follows it. -/
lemma onBus_bind_eq_ok {α β : Type} {x : EStateM Exception Bus α}
    {f : α → EStateM Exception Board β} {r : β} (hx : (onBus x >>= f) b = .ok r c) :
    ∃ a d, x b.bus = .ok a d ∧ f a { b with bus := d } = .ok r c := by
  obtain ⟨a, t, hfirst, hrest⟩ := bind_eq_ok hx
  obtain ⟨hfirst, ht⟩ := onBus_eq_ok.mp hfirst
  rw [ht] at hrest
  exact ⟨a, t.bus, hfirst, hrest⟩

/-- A load-reserved that completes reserves its physical address. -/
lemma executeNext_loadReserved {kind : AmoKind} {rd rs1 : Reg}
    (hx : executeNext b = .ok (.loadReserved kind rd rs1) c) :
    ∃ l, b.reservedLoad? = some l ∧ c.hart.reservation = some l.address := by
  obtain ⟨f, bus, hf, hi, hexec⟩ := executeNext_fetched hx
  unfold execute at hexec
  rw [getHart_bind] at hexec
  obtain ⟨_, t, hload, hjump⟩ := bind_eq_ok hexec
  cases hjump
  rw [loadReserved, getHart_bind] at hload
  split at hload
  next haligned =>
    obtain ⟨p, d, ht, hload⟩ := onBus_bind_eq_ok hload
    obtain ⟨v, d', hr, hload⟩ := onBus_bind_eq_ok hload
    cases hload
    refine ⟨⟨kind.width, p, v⟩, ?_, rfl⟩
    simp only [reservedLoad?, hf, hi, haligned, if_true, ht, adaptExcept_eq_ok.mp hr]
  · cases hload

/-- What a store-conditional does once its address has been translated to `p`, on a bus that is then
    `d`: it stores and tells that by a zero, or it stores nothing and tells that by a one. -/
def Concludes (b c : Board) (w : Width) (rd rs2 : Reg) (len p : UInt64) (d : Bus) (stores : Bool) :
    Prop :=
  c.hart = ({ b.hart with reservation := none }.set rd (if stores then 0 else 1)).jump
      (b.hart.pc + len) ∧
    if stores then Bus.write p w (b.hart.get rs2) d = .ok () c.bus else c.bus = d

/-- A store-conditional that completes stores exactly if its physical address is reserved. -/
lemma executeNext_storeConditional {kind : AmoKind} {rd rs1 rs2 : Reg}
    (hx : executeNext b = .ok (.storeConditional kind rd rs1 rs2) c) :
    ∃ f bus p d, b.hart.fetch b.bus = .ok f bus ∧
      b.hart.translate .store (b.hart.get rs1) bus = .ok p d ∧
      b.Concludes c kind.width rd rs2 f.len p d (b.hart.reservation = some p) := by
  obtain ⟨f, bus, hf, hi, hexec⟩ := executeNext_fetched hx
  unfold execute at hexec
  rw [getHart_bind] at hexec
  obtain ⟨_, t, hstore, hjump⟩ := bind_eq_ok hexec
  cases hjump
  rw [storeConditional, getHart_bind] at hstore
  obtain ⟨p, d, ha, hstore⟩ := onBus_bind_eq_ok hstore
  refine ⟨f, bus, p, d, hf, (Hart.atomicAddress_ok ha).2, ?_⟩
  by_cases hreserved : b.hart.reservation = some p
  · simp only [hreserved, decide_true, if_true] at hstore
    obtain ⟨_, d', hwrite, hstore⟩ := onBus_bind_eq_ok hstore
    cases hstore
    simp only [Concludes, hreserved, decide_true, if_true]
    exact ⟨rfl, adaptExcept_eq_ok.mp hwrite⟩
  · simp only [hreserved, decide_false, Bool.false_eq_true, if_false] at hstore
    cases hstore
    simp only [Concludes, hreserved, decide_false, Bool.false_eq_true, if_false]
    exact ⟨rfl, rfl⟩

/-! ## Steps and histories -/

/-- A trap takes the reservation away. -/
lemma reservation_trap (h : Hart) (t : Trap) : (h.trap t).reservation = none := by
  rw [Hart.trap]
  split <;> rfl

lemma reservation_retire (h : Hart) : (retire h).reservation = h.reservation := by
  rw [retire_eq]

lemma reservation_ticked (h : Hart) (lines : Lines) :
    (ticked h lines).reservation = h.reservation := by
  rw [ticked_eq]

/-- A board that runs on after an instruction has completed has taken the interrupt that was
    pending, if there was one. -/
lemma hart_of_running (hrunning : b.step.1 = .running) (hx : executeNext b = .ok i c) :
    b.step.2.hart = interrupt (ticked (retire c.hart) b.step.2.lines) := by
  simp only [step, hx] at hrunning ⊢
  split
  · next hstuck =>
    rw [if_pos hstuck] at hrunning
    cases hrunning
  · next hgoes =>
    rw [if_neg hgoes] at hrunning
    simp only [updateHart, finishStep] at hrunning ⊢
    split
    · next hhalt =>
      simp only [hhalt] at hrunning
      cases hrunning
    · rfl

lemma reservation_of_trap? {t : Trap} (h : b.trap? = some t) :
    b.step.2.hart.reservation = none := by
  rcases step_cases b with ⟨e, c, _, hhart⟩ | ⟨i, c, hx, _⟩
  · rw [hhart, reservation_ticked, reservation_trap]
  · simp only [trap?, hx] at h
    split at h
    · next hrunning =>
      obtain ⟨j, hj, _⟩ := Option.map_eq_some_iff.mp h
      have hlevel : (ticked (retire c.hart) b.step.2.lines).privilege = c.hart.privilege := by
        rw [ticked_privilege, retire_privilege]
      rw [hart_of_running hrunning hx, interrupt, hlevel, hj]
      exact reservation_trap _ _
    · cases h

/-- What an instruction that completes leaves reserved. -/
lemma reservation_executeNext {log : List Event} (hb : b.hart.reservation = Event.held log)
    (hx : executeNext b = .ok i c) :
    c.hart.reservation = Event.held (b.completion?.toList ++ log) := by
  cases i with
  | loadReserved kind rd rs1 =>
      obtain ⟨l, hl, hreserved⟩ := executeNext_loadReserved hx
      simp only [completion?, hx, hl, Option.map_some, Option.toList_some, List.cons_append,
        Event.held, hreserved]
  | storeConditional kind rd rs1 rs2 =>
      obtain ⟨f, bus, p, d, _, _, hhart, _⟩ := executeNext_storeConditional hx
      rw [hhart]
      simp only [completion?, hx]
      rfl
  | _ =>
      obtain ⟨raw, len, b₀, hsame, hexec⟩ := executeNext_ok hx
      simp only [completion?, hx, Option.toList_none, List.nil_append]
      rw [← hb, ← hsame]
      exact reservation_execute (by simp) (by simp) hexec

/-- **A step leaves reserved what its events say.** -/
lemma reservation_step {log : List Event} (hb : b.hart.reservation = Event.held log) :
    b.step.2.hart.reservation = Event.held (b.events ++ log) := by
  cases htrap : b.trap? with
  | some t =>
      rw [reservation_of_trap? htrap, events, htrap]
      rfl
  | none =>
      obtain ⟨i, c, hx, hhart⟩ := calm_of_trap? htrap
      have hcompleted := reservation_executeNext hb hx
      rw [events, htrap]
      rcases hhart with hhart | hhart
      · rw [hhart, reservation_retire]
        exact hcompleted
      · rw [hhart, reservation_ticked, reservation_retire]
        exact hcompleted

/-- **The reservation is what the most recent event has left.** -/
lemma History.reservation {log : List Event} (h : History log b) :
    b.hart.reservation = Event.held log := by
  induction h with
  | start | reset => rfl
  | step _ ih => exact reservation_step ih
  | around _ hhart ih => rw [hhart, ih]

/-- **A load-reserved and a store-conditional, paired by the events between them.**  Take a
    store-conditional that completes, and let `p` be the physical address that its own is translated
    to.  It stores its value and returns zero if and only if the most recent event is a
    load-reserved at `p`.  Otherwise it returns one, the bus is as the translations have left it,
    and memory differs at most in the accessed and dirty bits of the entries that these have marked.
    In particular it fails if no load-reserved has completed since the last store-conditional, trap
    or reset, so that a load-reserved allows one store-conditional to succeed, and none after a
    trap. -/
theorem conditional_store_pairing {log : List Event} {kind : AmoKind} {rd rs1 rs2 : Reg}
    (hlog : History log b) (hx : executeNext b = .ok (.storeConditional kind rd rs1 rs2) c) :
    ∃ f bus p d result, b.hart.fetch b.bus = .ok f bus ∧
      b.hart.translate .store (b.hart.get rs1) bus = .ok p d ∧
      c.hart = ({ b.hart with reservation := none }.set rd result).jump (b.hart.pc + f.len) ∧
      (result = 0 ∧ Bus.write p kind.width (b.hart.get rs2) d = .ok () c.bus ↔
        log.head? = some (.reserved p)) ∧
      (log.head? ≠ some (.reserved p) →
        result = 1 ∧ c.bus = d ∧ Memory.Marked b.memory c.memory ∧
          c.memory = b.memory.replay
            (b.hart.fetchWrites b.bus ++ b.hart.updates .store (b.hart.get rs1) bus)) ∧
      ∀ recent earlier, log = recent ++ earlier → recent ≠ [] → (∀ q, .reserved q ∉ recent) →
        result = 1 := by
  obtain ⟨f, bus, p, d, hf, ht, hhart, hbus⟩ := executeNext_storeConditional hx
  have hreserved : b.hart.reservation = some p ↔ log.head? = some (.reserved p) := by
    rw [hlog.reservation, Event.held_eq_some_iff]
  refine ⟨f, bus, p, d, _, hf, ht, hhart, ?_, fun hnot => ?_,
    fun recent earlier hsplit hsome hnone => ?_⟩
  · constructor
    · rintro ⟨hresult, _⟩
      by_contra hnot
      simp [hreserved, hnot] at hresult
    · intro hhead
      simpa [hreserved, hhead] using hbus
  · have hsilent : c.bus = d := by simpa [hreserved, hnot] using hbus
    have hfetched := b.hart.makes_fetch b.bus
    have htranslated := b.hart.makes_translate .store (b.hart.get rs1) bus
    rw [Makes, hf, finalState_ok] at hfetched
    rw [Makes, ht, finalState_ok] at htranslated
    refine ⟨by simp [hreserved, hnot], hsilent, ?_, ?_⟩
    · rw [memory, memory, hsilent]
      exact ((Hart.leaves_ramMarked_fetch b.hart).of_ok hf).trans
        ((Hart.leaves_ramMarked_translate b.hart .store _).of_ok ht)
    · rw [memory, memory, hsilent, htranslated, hfetched, Memory.replay_append]
  · have hnot : log.head? ≠ some (.reserved p) := by
      intro hhead
      obtain ⟨e, recent, rfl⟩ := List.exists_cons_of_ne_nil hsome
      rw [hsplit, List.cons_append, List.head?_cons, Option.some_inj] at hhead
      exact hnone p (hhead ▸ List.mem_cons_self)
    simp [hreserved, hnot]

/-- Software that maps two gigabytes to the same memory and uses them with the rights of the
    supervisor.  It reserves a doubleword by its address in the first, stores there conditionally by
    its address in the second, and then once more by its address in the first. -/
def aliasingImage : List UInt8 :=
  [0x0200006F, 0, 0, 0, 0x2000000F, 0, 0x2000000F, 0,
    -- paging is turned on, for loads and stores of machine level too
    0x00100313, 0x03F31313, 0x000803B7, 0x00736333, 0x18031073, 0x000213B7, 0x80038393, 0x3003A073,
    0x00000517, 0x400005B7, 0x00B505B3, 0x100536AF, 0x18C5B72F, 0x18C537AF].flatMap
      (LittleEndian.toBytes 4)

/-- A board that is about to start with this program. -/
def aliasing : Board :=
  (ofBus (Bus.ofMemory ((Memory.zeroed 0x80000000 0x1000).patch 0 aliasingImage))).reset 0x80000000

/-- The first store-conditional succeeds by another address than the load-reserved had.  The second
    fails, by the very address of the load-reserved. -/
theorem aliased_store_pairs :
    (∃ c, executeNext (aliasing.after 13) =
        .ok (.storeConditional .d (Reg.ofNat 14) (Reg.ofNat 11) (Reg.ofNat 12)) c ∧
      (aliasing.after 13).hart.get (Reg.ofNat 11) = 0xC0000040 ∧ c.hart.get (Reg.ofNat 14) = 0) ∧
    ∃ c, executeNext (aliasing.after 14) =
        .ok (.storeConditional .d (Reg.ofNat 15) (Reg.ofNat 10) (Reg.ofNat 12)) c ∧
      c.hart.get (Reg.ofNat 15) = 1 ∧ Memory.Marked (aliasing.after 14).memory c.memory := by
  have hrun : executeNext.run' (aliasing.after 13) =
        some (.storeConditional .d (Reg.ofNat 14) (Reg.ofNat 11) (Reg.ofNat 12)) ∧
      executeNext.run' (aliasing.after 14) =
        some (.storeConditional .d (Reg.ofNat 15) (Reg.ofNat 10) (Reg.ofNat 12)) ∧
      (aliasing.after 13).hart.get (Reg.ofNat 11) = 0xC0000040 ∧
      ((aliasing.after 13).hart.fetch >>= fun _ =>
        (aliasing.after 13).hart.translate .store 0xC0000040).run' (aliasing.after 13).bus =
          some 0x80000040 ∧
      (aliasing.record 13 ++ [Event.reset]).head? = some (.reserved 0x80000040) ∧
      (aliasing.record 14 ++ [Event.reset]).head? = some .conditional := by
    decide +kernel
  obtain ⟨hfirst, hsecond, haddress, hphysical, hreserved, hconsumed⟩ := hrun
  have hstart : History [.reset] aliasing := History.start _ _
  have hget {h : Hart} {rd : Reg} (hrd : rd ≠ Reg.zero) (result target : UInt64) :
      ((h.set rd result).jump target).get rd = result := by
    have hset := Registers.get_set h.registers rd rd result
    rwa [if_pos ⟨rfl, hrd⟩] at hset
  constructor
  · obtain ⟨c, hx⟩ := run'_eq_some hfirst
    obtain ⟨f, bus, p, d, result, hf, ht, hhart, hpairs, _⟩ :=
      conditional_store_pairing (hstart.after 13) hx
    obtain ⟨t, hboth⟩ := run'_eq_some hphysical
    rw [bind_run_ok hf, ← haddress, ht] at hboth
    cases hboth
    refine ⟨c, hx, haddress, ?_⟩
    rw [hhart, (hpairs.mpr hreserved).1]
    exact hget (by decide) _ _
  · obtain ⟨c, hx⟩ := run'_eq_some hsecond
    obtain ⟨f, bus, p, d, result, _, _, hhart, _, hfails, _⟩ :=
      conditional_store_pairing (hstart.after 14) hx
    obtain ⟨hresult, _, hmarked, _⟩ := hfails (by rw [hconsumed]; simp)
    refine ⟨c, hx, ?_, hmarked⟩
    rw [hhart, hresult]
    exact hget (by decide) _ _

end Board

/-- Every machine that the host can come to has such a history. -/
lemma Machine.Reachable.history {m : Machine} (hm : m.Reachable) :
    ∃ log, Board.History log m.board := by
  obtain ⟨log, b, hlog, hhart⟩ : ∃ log b, Board.History log b ∧ b.hart = m.board.hart := by
    refine hm.hart_induction (P := fun h => ∃ log b, Board.History log b ∧ b.hart = h) ?_ ?_ ?_
    · rintro b ⟨log, b₀, hlog, hhart⟩
      exact ⟨_, _, (hlog.around hhart.symm).step, rfl⟩
    · intro c _ _
      exact ⟨_, _, .start default c.ramBase, rfl⟩
    · intro m _
      exact ⟨_, _, .start default m.board.bus.ram.base, rfl⟩
  exact ⟨log, hlog.around hhart.symm⟩

end Rv64Board
