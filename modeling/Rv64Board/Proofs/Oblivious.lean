import Rv64Board.Machine
import Rv64Board.Proofs.Effects

/-!
# What a board does not look at

Bytes that have been sent and notices that have been made wait for the host; nothing on the board
looks at them again.  Nor does an instruction look at the number of cycles or at the lines.  So a
change of these goes straight through: first the change and then the step is the same as first the
step and then the change.

* `Oblivious f x` — **a computation answers alike before and after a change `f` of the state,** and
  the states that it leaves differ by `f` again.  It passes through sequences (`Oblivious.bind`).
* `Bus.Unseen f` — a change of the bus that its accesses and its devices do not notice.
* `oblivious_executeNext` — fetching and executing an instruction does not notice such a change, and
  no change of the cycles and the lines.
* `Bus.unseen_precede` — **bytes sent and notices made before are not seen.**
-/

namespace Rv64Board

variable {ε ε' σ α β : Type}

/-- The outcome of a run with the state changed. -/
def mapState (f : σ → σ) : EStateM.Result ε σ α → EStateM.Result ε σ α
  | .ok a s => .ok a (f s)
  | .error e s => .error e (f s)

lemma finalState_mapState (f : σ → σ) (r : EStateM.Result ε σ α) :
    finalState (mapState f r) = f (finalState r) := by
  cases r <;> rfl

lemma mapState_id (r : EStateM.Result ε σ α) : mapState id r = r := by
  cases r <;> rfl

/-- What a run answers or raises, without the state. -/
def outcome : EStateM.Result ε σ α → Except ε α
  | .ok a _ => .ok a
  | .error e _ => .error e

lemma outcome_mapState (f : σ → σ) (r : EStateM.Result ε σ α) :
    outcome (mapState f r) = outcome r := by
  cases r <;> rfl

/-- A computation does not notice a change of the state. -/
def Oblivious (f : σ → σ) (x : EStateM ε σ α) : Prop :=
  ∀ s, x (f s) = mapState f (x s)

namespace Oblivious

variable {f : σ → σ}

lemma pure (a : α) : Oblivious f (Pure.pure a : EStateM ε σ α) := fun _ => rfl

lemma throw (e : ε) : Oblivious f (MonadExcept.throw e : EStateM ε σ α) := fun _ => rfl

/-- Also where the second computation is known only at the states that the first one leads to. -/
lemma bind_at {x : EStateM ε σ α} {g : α → EStateM ε σ β} {s : σ}
    (hx : x (f s) = mapState f (x s))
    (hg : ∀ a t, x s = .ok a t → g a (f t) = mapState f (g a t)) :
    (x >>= g) (f s) = mapState f ((x >>= g) s) := by
  cases hrun : x s with
  | ok a t =>
      rw [hrun] at hx
      rw [bind_run_ok hrun, bind_run_ok hx]
      exact hg a t hrun
  | error e t =>
      rw [hrun] at hx
      rw [bind_run_error hrun, bind_run_error hx]
      rfl

lemma bind {x : EStateM ε σ α} {g : α → EStateM ε σ β} (hx : Oblivious f x)
    (hg : ∀ a, Oblivious f (g a)) : Oblivious f (x >>= g) :=
  fun s => bind_at (hx s) fun a t _ => hg a t

lemma adaptExcept {g : ε → ε'} {x : EStateM ε σ α} (hx : Oblivious f x) :
    Oblivious f (EStateM.adaptExcept g x) := by
  intro s
  simp only [EStateM.adaptExcept, hx s]
  cases x s <;> rfl

end Oblivious

/-- A change of the bus that neither its accesses nor a step of its devices notice. -/
structure Bus.Unseen (f : Bus → Bus) : Prop where
  read : ∀ a w, Oblivious f (Bus.read a w)
  write : ∀ a w v, Oblivious f (Bus.write a w v)
  contains : ∀ b a n, (f b).contains a n = b.contains a n
  tick : ∀ b lines, (f b).tick lines = (f (b.tick lines).1, (b.tick lines).2)
  note : ∀ b notices, (f b).note notices = f (b.note notices)

/-- No change at all. -/
lemma Bus.unseen_id : Unseen id where
  read _ _ _ := (mapState_id _).symm
  write _ _ _ _ := (mapState_id _).symm
  contains _ _ _ := rfl
  tick _ _ := rfl
  note _ _ := rfl

/-! ## Accesses of the hart -/

namespace Hart

variable {f : Bus → Bus} (hf : Bus.Unseen f)
include hf

lemma oblivious_walk (status : Mstatus) (level : Privilege) (update : Bool) (access : Access)
    (address : UInt64) (depth : Nat) (table : UInt64) :
    Oblivious f (Paging.walk status level update access address depth table) := by
  induction depth generalizing table with
  | zero => exact Oblivious.throw _
  | succ depth ih =>
      refine Oblivious.bind (Oblivious.adaptExcept (hf.read _ _)) fun bits => ?_
      simp only
      split
      · exact Oblivious.throw _
      · split
        · exact ih _
        · split
          · exact Oblivious.throw _
          · split
            · exact Oblivious.bind (Oblivious.adaptExcept (hf.write _ _ _)) fun _ =>
                Oblivious.pure _
            · exact Oblivious.pure _

lemma oblivious_translate (h : Hart) (access : Access) (address : UInt64) :
    Oblivious f (h.translate access address) := by
  rw [translate, physicalAddress]
  split
  · exact Oblivious.pure _
  · split
    · exact Oblivious.throw _
    · exact oblivious_walk hf _ _ _ _ _ _ _

lemma oblivious_translateAll (h : Hart) (access : Access) (row : List UInt64) :
    Oblivious f (h.translateAll access row) := by
  induction row with
  | nil => exact Oblivious.pure _
  | cons a row ih =>
      exact Oblivious.bind (oblivious_translate hf h access a) fun _ =>
        Oblivious.bind ih fun _ => Oblivious.pure _

lemma oblivious_readEach (fault : Exception) (row : List UInt64) :
    Oblivious f (readEach fault row) := by
  induction row with
  | nil => exact Oblivious.pure _
  | cons a row ih =>
      exact Oblivious.bind (Oblivious.adaptExcept (hf.read _ _)) fun _ =>
        Oblivious.bind ih fun _ => Oblivious.pure _

lemma oblivious_writeEach (fault : Exception) (row : List (UInt64 × UInt8)) :
    Oblivious f (writeEach fault row) := by
  induction row with
  | nil => exact Oblivious.pure _
  | cons p row ih => exact Oblivious.bind (Oblivious.adaptExcept (hf.write _ _ _)) fun _ => ih

lemma oblivious_backed (row : List UInt64) : Oblivious f (backed row) := by
  intro b
  simp only [backed, hf.contains]
  rfl

lemma oblivious_load (h : Hart) (address : UInt64) (w : Width) :
    Oblivious f (h.load address w) := by
  rw [load]
  split
  · exact Oblivious.bind (oblivious_translate hf h .load address) fun _ =>
      Oblivious.adaptExcept (hf.read _ _)
  · refine Oblivious.bind (oblivious_translateAll hf h .load _) fun row => ?_
    exact Oblivious.bind (oblivious_readEach hf _ row) fun _ => Oblivious.pure _

lemma oblivious_store (h : Hart) (address : UInt64) (w : Width) (value : UInt64) :
    Oblivious f (h.store address w value) := by
  rw [store]
  split
  · exact Oblivious.bind (oblivious_translate hf h .store address) fun _ =>
      Oblivious.adaptExcept (hf.write _ _ _)
  · refine Oblivious.bind (oblivious_translateAll hf h .store _) fun row => ?_
    refine Oblivious.bind (oblivious_backed hf row) fun all => ?_
    split
    · exact oblivious_writeEach hf _ _
    · exact Oblivious.throw _

lemma oblivious_atomicAddress (h : Hart) (address : UInt64) (w : Width) :
    Oblivious f (h.atomicAddress address w) := by
  rw [atomicAddress]
  split
  · exact oblivious_translate hf h .store address
  · exact Oblivious.throw _

lemma oblivious_fetchHalf (h : Hart) (address : UInt64) : Oblivious f (h.fetchHalf address) := by
  refine Oblivious.bind (oblivious_translate hf h .fetch address) fun _ => ?_
  exact Oblivious.bind (Oblivious.adaptExcept (hf.read _ _)) fun _ => Oblivious.pure _

lemma oblivious_fetch (h : Hart) : Oblivious f h.fetch := by
  have hdecoded {α : Type} (x : Except Exception α) : Oblivious f (ofExcept x) := by
    cases x with
    | ok a => exact Oblivious.pure a
    | error e => exact Oblivious.throw e
  refine Oblivious.bind (oblivious_fetchHalf hf h h.pc) fun low => ?_
  split
  · exact Oblivious.bind (hdecoded _) fun _ => Oblivious.pure _
  · refine Oblivious.bind (oblivious_fetchHalf hf h (h.pc + 2)) fun high => ?_
    exact Oblivious.bind (hdecoded _) fun _ => Oblivious.pure _

end Hart

/-! ## Instructions -/

namespace Board

/-- A board with the surroundings of its hart changed. -/
def surround (f : Bus → Bus) (c : UInt64 → UInt64) (l : Lines → Lines) (b : Board) : Board :=
  ⟨b.hart, f b.bus, c b.cycles, l b.lines⟩

section Instructions

variable {f : Bus → Bus} {c : UInt64 → UInt64} {l : Lines → Lines}

lemma oblivious_getHart : Oblivious (surround f c l) getHart := fun _ => rfl

lemma oblivious_modifyHart (g : Hart → Hart) : Oblivious (surround f c l) (modifyHart g) :=
  fun _ => rfl

lemma oblivious_onBus {x : EStateM Exception Bus α} (hx : Oblivious f x) :
    Oblivious (surround f c l) (onBus x) := by
  intro b
  simp only [onBus, surround, hx b.bus]
  cases x b.bus <;> rfl

lemma oblivious_jump (target : UInt64) : Oblivious (surround f c l) (jump target) :=
  oblivious_modifyHart _

lemma oblivious_setRegister (rd : Reg) (value : UInt64) :
    Oblivious (surround f c l) (setRegister rd value) :=
  oblivious_modifyHart _

lemma oblivious_accessCsr (op : CsrOp) (rd : Reg) (csr : Csr) (operand : UInt64) (named : Bool)
    (raw : UInt32) : Oblivious (surround f c l) (accessCsr op rd csr operand named raw) := by
  refine Oblivious.bind oblivious_getHart fun h => ?_
  simp only
  split
  · exact Oblivious.throw _
  · split
    · exact Oblivious.bind (oblivious_modifyHart _) fun _ => oblivious_setRegister _ _
    · exact oblivious_setRegister _ _

variable (hf : Bus.Unseen f)
include hf

lemma oblivious_loadReserved (w : Width) (rd rs1 : Reg) :
    Oblivious (surround f c l) (loadReserved w rd rs1) := by
  refine Oblivious.bind oblivious_getHart fun h => ?_
  simp only
  split
  · have hwalk := Hart.oblivious_translate hf h .load (h.get rs1)
    refine Oblivious.bind (oblivious_onBus hwalk) fun pa => ?_
    refine Oblivious.bind (oblivious_onBus (Oblivious.adaptExcept (hf.read pa w))) fun v => ?_
    exact Oblivious.bind (oblivious_modifyHart _) fun _ => oblivious_setRegister _ _
  · exact Oblivious.throw _

lemma oblivious_storeConditional (w : Width) (rd rs1 rs2 : Reg) :
    Oblivious (surround f c l) (storeConditional w rd rs1 rs2) := by
  refine Oblivious.bind oblivious_getHart fun h => ?_
  refine Oblivious.bind (oblivious_onBus (Hart.oblivious_atomicAddress hf h _ w)) fun pa => ?_
  have hrest (value : UInt64) : Oblivious (surround f c l) (do
      modifyHart fun h => { h with reservation := none }
      setRegister rd value) :=
    Oblivious.bind (oblivious_modifyHart _) fun _ => oblivious_setRegister _ _
  simp only
  split
  · refine Oblivious.bind (oblivious_onBus (Oblivious.adaptExcept (hf.write pa w _))) fun _ => ?_
    exact hrest _
  · exact hrest _

lemma oblivious_atomicUpdate (op : AmoOp) (kind : AmoKind) (rd rs1 rs2 : Reg) :
    Oblivious (surround f c l) (atomicUpdate op kind rd rs1 rs2) := by
  refine Oblivious.bind oblivious_getHart fun h => ?_
  refine Oblivious.bind (oblivious_onBus (Hart.oblivious_atomicAddress hf h _ _)) fun pa => ?_
  refine Oblivious.bind (oblivious_onBus (Oblivious.adaptExcept (hf.read pa _))) fun v => ?_
  refine Oblivious.bind (oblivious_onBus (Oblivious.adaptExcept (hf.write pa _ _))) fun _ => ?_
  exact oblivious_setRegister _ _

lemma oblivious_execute (i : Instruction) (raw : UInt32) (len : UInt64) :
    Oblivious (surround f c l) (execute i raw len) := by
  refine Oblivious.bind oblivious_getHart fun h => ?_
  cases i with
  | lui | auipc | jal | jalr | opImm | opReg =>
      exact Oblivious.bind (oblivious_setRegister _ _) fun _ => oblivious_jump _
  | fence | fenceI => exact oblivious_jump _
  | ecall | ebreak => exact Oblivious.throw _
  | branch =>
      simp only
      split <;> exact oblivious_jump _
  | mret | sret =>
      simp only
      split
      · exact Oblivious.throw _
      · exact oblivious_modifyHart _
  | wfi | sfenceVma =>
      simp only
      split
      · exact Oblivious.throw _
      · exact oblivious_jump _
  | csrReg | csrImm =>
      exact Oblivious.bind (oblivious_accessCsr _ _ _ _ _ _) fun _ => oblivious_jump _
  | load kind rd rs1 offset =>
      refine Oblivious.bind (oblivious_onBus (Hart.oblivious_load hf h _ _)) fun v => ?_
      exact Oblivious.bind (oblivious_setRegister _ _) fun _ => oblivious_jump _
  | store kind rs1 rs2 offset =>
      refine Oblivious.bind (oblivious_onBus (Hart.oblivious_store hf h _ _ _)) fun _ => ?_
      exact oblivious_jump _
  | loadReserved => exact Oblivious.bind (oblivious_loadReserved hf _ _ _) fun _ => oblivious_jump _
  | storeConditional =>
      exact Oblivious.bind (oblivious_storeConditional hf _ _ _ _) fun _ => oblivious_jump _
  | amo => exact Oblivious.bind (oblivious_atomicUpdate hf _ _ _ _ _) fun _ => oblivious_jump _

/-- **An instruction does not notice a change of what surrounds the hart,** if the accesses to the
    bus do not. -/
lemma oblivious_executeNext : Oblivious (surround f c l) executeNext := by
  refine Oblivious.bind oblivious_getHart fun h => ?_
  refine Oblivious.bind (oblivious_onBus (Hart.oblivious_fetch hf h)) fun i => ?_
  exact Oblivious.bind (oblivious_execute hf _ _ _) fun _ => Oblivious.pure _

end Instructions

/-- **An instruction leaves the number of cycles and the lines alone:** it would not even notice
    them replaced. -/
lemma executeNext_surroundings (b : Board) :
    (finalState (executeNext b)).cycles = b.cycles ∧
      (finalState (executeNext b)).lines = b.lines := by
  have hrun : executeNext b = mapState (surround id (fun _ => b.cycles) fun _ => b.lines)
      (executeNext b) :=
    oblivious_executeNext (c := fun _ => b.cycles) (l := fun _ => b.lines) Bus.unseen_id b
  have hfinal := congrArg finalState hrun
  rw [finalState_mapState] at hfinal
  rw [hfinal]
  exact ⟨rfl, rfl⟩

/-! ## Steps -/

variable {f : Bus → Bus} (hf : Bus.Unseen f)
include hf

lemma finishStep_surround (trapped : Bool) (b : Board) :
    finishStep trapped (surround f id id b) =
      ((finishStep trapped b).1, surround f id id (finishStep trapped b).2) := by
  simp only [finishStep, surround, id_eq, hf.tick]
  split <;> rfl

/-- **A step does not notice a change that the bus does not notice.** -/
lemma step_surround (b : Board) :
    (surround f id id b).step = (b.step.1, surround f id id b.step.2) := by
  have hnext := oblivious_executeNext (c := id) (l := id) hf b
  cases hrun : executeNext b with
  | error e t =>
      rw [hrun] at hnext
      simp only [step, hrun, hnext, mapState]
      exact finishStep_surround hf true (t.updateHart fun h => h.trap (.exception e))
  | ok i t =>
      rw [hrun] at hnext
      simp only [step, hrun, hnext, mapState]
      have hhart : ((surround f id id t).updateHart retire).hart = (t.updateHart retire).hart := rfl
      have hpc : (surround f id id b).hart = b.hart := rfl
      rw [hhart, hpc]
      split
      · simp only [note, surround, updateHart, id_eq, hf.note]
      · exact finishStep_surround hf false (t.updateHart retire)

end Board

/-! ## Machines -/

namespace Machine

section Runs

variable {m : Machine}

lemma runFrom_of_halted {code : UInt32} (h : m.halted = some code) (steps n : Nat) :
    m.runFrom steps n = (.halted code, m) := by
  rw [runFrom.eq_def]
  simp only [h]

lemma runFrom_of_cancelled (h : m.halted = none) (hc : m.cancelled = true) (steps n : Nat) :
    m.runFrom steps n = (.cancelled, m.note (.cancelled steps)) := by
  rw [runFrom.eq_def]
  simp only [h, hc]

lemma runFrom_zero (h : m.halted = none) (hc : m.cancelled = false) (steps : Nat) :
    m.runFrom steps 0 = (.stepLimit, m.note (.stepLimit steps)) := by
  rw [runFrom.eq_def]
  simp only [h, hc]

lemma runFrom_succ (h : m.halted = none) (hc : m.cancelled = false) (steps n : Nat) :
    m.runFrom steps (n + 1) = m.step.2.runFrom (steps + 1) n := by
  rw [runFrom.eq_def]
  simp only [h, hc]

end Runs

/-- A machine with its bus changed. -/
def mapBus (f : Bus → Bus) (m : Machine) : Machine :=
  { m with board := m.board.surround f id id }

variable {f : Bus → Bus} (hf : Bus.Unseen f)
include hf

lemma note_mapBus (m : Machine) (n : Notice) : (m.mapBus f).note n = (m.note n).mapBus f := by
  simp only [note, Board.note, mapBus, Board.surround, hf.note]

lemma step_mapBus (m : Machine) : (m.mapBus f).step = (m.step.1, m.step.2.mapBus f) := by
  obtain ⟨board, halted, cancelled⟩ := m
  cases halted with
  | some code => rfl
  | none =>
      have hboard := Board.step_surround hf board
      simp only [step, mapBus, hboard]
      cases board.step with
      | mk verdict board' =>
          cases verdict with
          | running => rfl
          | halted code =>
              simp only [Board.note, Board.surround, hf.note]
              rfl

/-- **A run does not notice a change that the bus does not notice.** -/
lemma runFrom_mapBus (steps n : Nat) (m : Machine) :
    (m.mapBus f).runFrom steps n = ((m.runFrom steps n).1, (m.runFrom steps n).2.mapBus f) := by
  fun_induction runFrom steps n m with
  | case1 steps n m code h => exact runFrom_of_halted (m := m.mapBus f) h steps n
  | case2 steps n m hc h =>
      rw [← note_mapBus hf]
      exact runFrom_of_cancelled (m := m.mapBus f) h hc steps n
  | case3 steps m hc h =>
      rw [← note_mapBus hf]
      exact runFrom_zero (m := m.mapBus f) h hc steps
  | case4 steps m n hc h ih =>
      rw [runFrom_succ (m := m.mapBus f) h hc, step_mapBus hf, ← ih]

end Machine

/-! ## Bytes sent and notices made before -/

namespace Uart

/-- The UART with bytes waiting for the host that were sent before all others, most recent first. -/
def precede (sent : List UInt8) (u : Uart) : Uart :=
  { u with outbox := u.outbox ++ sent }

variable (sent : List UInt8) (u : Uart)

lemma poll_precede : (u.precede sent).poll = u.poll.precede sent := by
  obtain ⟨inbox, fifo, outbox, transmitted, ier, lcr, mcr, scr, divisor⟩ := u
  cases inbox <;> rfl

lemma pollIfEnabled_precede : (u.precede sent).pollIfEnabled = u.pollIfEnabled.precede sent := by
  have henabled : (u.precede sent).receiveEnabled = u.receiveEnabled := rfl
  rw [pollIfEnabled, pollIfEnabled, henabled, poll_precede]
  split <;> rfl

lemma receive_precede :
    (u.precede sent).receive = (u.receive.1, u.receive.2.precede sent) := by
  have hfifo : (u.poll.precede sent).fifo = u.poll.fifo := rfl
  simp only [receive, poll_precede, hfifo]
  split <;> rfl

lemma identify_precede :
    (u.precede sent).identify = (u.identify.1, u.identify.2.precede sent) := by
  have hreceive (v : Uart) : (v.precede sent).receivePending = v.receivePending := rfl
  have htransmit (v : Uart) : (v.precede sent).transmitPending = v.transmitPending := rfl
  simp only [identify, pollIfEnabled_precede, hreceive, htransmit]
  split
  · rfl
  · split <;> rfl

lemma readRegister_precede (offset : UInt64) :
    (u.precede sent).readRegister offset =
      (u.readRegister offset).map fun p => (p.1, p.2.precede sent) := by
  have hlatched : (u.precede sent).divisorLatched = u.divisorLatched := rfl
  have hstatus : (u.precede sent).lineStatus = (u.lineStatus.1, u.lineStatus.2.precede sent) := by
    simp only [lineStatus, poll_precede]
    rfl
  simp only [readRegister, hlatched, receive_precede, identify_precede, hstatus,
    apply_ite (Option.map _), Option.map_some]
  rfl

lemma writeRegister_precede (offset : UInt64) (b : UInt8) :
    (u.precede sent).writeRegister offset b = (u.writeRegister offset b).map (precede sent) := by
  have hlatched : (u.precede sent).divisorLatched = u.divisorLatched := rfl
  simp only [writeRegister, hlatched, apply_ite (Option.map _), Option.map_some]
  rfl

end Uart

namespace Device

/-- The same for any device: only the UART sends bytes. -/
def precede (sent : List UInt8) : Device → Device
  | .uart u => .uart (u.precede sent)
  | d => d

variable (sent : List UInt8) (d : Device)

lemma read_precede (offset : UInt64) (w : Width) :
    (d.precede sent).read offset w =
      ⟨(d.read offset w).value, (d.read offset w).device.precede sent,
        (d.read offset w).notice⟩ := by
  cases d with
  | finisher | clint | plic | virtio => rfl
  | uart u =>
      simp only [precede, read, Uart.read, Uart.readRegister_precede]
      cases u.readRegister offset <;> rfl

lemma write_precede (offset : UInt64) (w : Width) (value : UInt64) :
    (d.precede sent).write offset w value =
      ⟨(d.write offset w value).device.precede sent, (d.write offset w value).notice⟩ := by
  cases d with
  | finisher | clint | plic | virtio => rfl
  | uart u =>
      simp only [precede, write, Uart.write, Uart.writeRegister_precede]
      cases u.writeRegister offset value.toUInt8 <;> rfl

lemma tick_precede (ram : Memory) (lines : Lines) :
    (d.precede sent).tick ram lines =
      { d.tick ram lines with device := (d.tick ram lines).device.precede sent } := by
  cases d with
  | finisher | clint | plic | virtio => rfl
  | uart u =>
      have hreceive (v : Uart) : (v.precede sent).receivePending = v.receivePending := rfl
      have htransmit (v : Uart) : (v.precede sent).transmitPending = v.transmitPending := rfl
      simp only [precede, tick, Uart.tick, Uart.pollIfEnabled_precede, hreceive, htransmit]
      split <;> rfl

lemma route_precede (lines : Lines) :
    (d.precede sent).route lines = ((d.route lines).1.precede sent, (d.route lines).2) := by
  cases d <;> rfl

end Device

namespace Bus

/-- A region with its device preceded. -/
def precedeRegion (sent : List UInt8) (r : Region) : Region :=
  { r with device := r.device.precede sent }

/-- A bus on which bytes have been sent and notices made before all that it holds. -/
def precede (sent : List UInt8) (notices : List Notice) (b : Bus) : Bus :=
  ⟨b.ram, b.regions.map (precedeRegion sent), b.journal ++ notices⟩

variable (sent : List UInt8) (notices : List Notice)

lemma region?_precede (b : Bus) (address : UInt64) (len : Nat) :
    (b.precede sent notices).region? address len =
      (b.region? address len).map (precedeRegion sent) := by
  have hlast : lastUpTo? (b.regions.map (precedeRegion sent)) address =
      (lastUpTo? b.regions address).map (precedeRegion sent) := by
    rw [lastUpTo?, List.filter_map, List.getLast?_map]
    rfl
  simp only [region?, precede, hlast]
  cases lastUpTo? b.regions address with
  | none => rfl
  | some r =>
      simp only [Option.map_some, Option.filter_some, precedeRegion]
      split <;> rfl

lemma setDevice_precede (b : Bus) (base : UInt64) (device : Device) :
    (b.precede sent notices).setDevice base (device.precede sent) =
      (b.setDevice base device).precede sent notices := by
  simp only [setDevice, precede, List.map_map, mk.injEq, and_true, true_and]
  refine List.map_congr_left fun r _ => ?_
  by_cases hhere : r.base = base <;> simp [precedeRegion, hhere]

lemma note_precede (b : Bus) (more : List Notice) :
    (b.precede sent notices).note more = (b.note more).precede sent notices := by
  simp only [note, precede, List.append_assoc]

lemma tickRegions_precede (rs : List Region) (ram : Memory) (lines : Lines) :
    tickRegions (rs.map (precedeRegion sent)) ram lines =
      ((tickRegions rs ram lines).1.map (precedeRegion sent), (tickRegions rs ram lines).2) := by
  induction rs generalizing ram lines with
  | nil => rfl
  | cons r rs ih =>
      simp only [List.map_cons, tickRegions, precedeRegion, Device.tick_precede]
      rw [ih]

lemma routeRegions_precede (rs : List Region) (lines : Lines) :
    routeRegions (rs.map (precedeRegion sent)) lines =
      ((routeRegions rs lines).1.map (precedeRegion sent), (routeRegions rs lines).2) := by
  induction rs generalizing lines with
  | nil => rfl
  | cons r rs ih =>
      simp only [List.map_cons, routeRegions, precedeRegion, Device.route_precede]
      rw [ih]

/-- **Neither software nor a device looks at bytes that have been sent or at notices.** -/
lemma unseen_precede : Unseen (precede sent notices) where
  read a w b := by
    have hram : (b.precede sent notices).ram = b.ram := rfl
    simp only [read, hram, region?_precede]
    split
    · rfl
    · cases b.region? a w.bytes with
      | none => rfl
      | some r =>
          simp only [Option.map_some, precedeRegion, Device.read_precede, setDevice_precede,
            note_precede]
          rfl
  write a w v b := by
    have hram : (b.precede sent notices).ram = b.ram := rfl
    simp only [write, hram, region?_precede]
    split
    · rfl
    · cases b.region? a w.bytes with
      | none => rfl
      | some r =>
          simp only [Option.map_some, precedeRegion, Device.write_precede, setDevice_precede,
            note_precede]
          rfl
  contains b a n := by
    simp only [contains, region?_precede, Option.isSome_map]
    rfl
  tick b lines := by
    simp only [tick, precede, tickRegions_precede, routeRegions_precede, List.append_assoc]
  note b more := note_precede sent notices b more

end Bus

end Rv64Board
