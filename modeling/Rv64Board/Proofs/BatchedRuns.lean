import Rv64Board.Cli.Program
import Rv64Board.Proofs.Oblivious
import Rv64Board.Proofs.StandardBoard

/-!
# Runs in batches

The program does not run a machine in one go: it runs a batch of steps, reports and prints what has
come of it, and runs the next batch.  In between it takes away the notices and the bytes that wait
for the host.  Nothing on the board looks at these, so a run in batches comes to what one long run
comes to.

* `runFrom_congr`, `runFor_add` — notices aside, a run after a run is one run of the steps of both.
* `cycles_runFrom` — a run that uses up its steps counts each of them.
* `Emission` — what a run in batches lets the host do.
* `batched_run_eq_plain` — **running in batches comes to what plain running comes to.**
-/

namespace Rv64Board

/-! ## Notices aside -/

namespace Uart

@[simp] lemma precede_nil (u : Uart) : u.precede [] = u := by
  rw [precede, List.append_nil]

end Uart

namespace Bus

lemma precedeRegion_nil (r : Region) : precedeRegion [] r = r := by
  obtain ⟨name, base, limit, device⟩ := r
  cases device with
  | uart u => simp [precedeRegion, Device.precede]
  | finisher | clint | plic | virtio => rfl

lemma precede_nil (notices : List Notice) (b : Bus) :
    b.precede [] notices = { b with journal := b.journal ++ notices } := by
  rw [precede, List.map_id'' precedeRegion_nil]

end Bus

namespace Machine

variable {m m' : Machine}

/-- A machine is the one without its notices, with the notices made before. -/
lemma eq_precede_clearJournal (m : Machine) :
    m = m.clearJournal.mapBus (Bus.precede [] m.board.bus.journal) := by
  simp only [mapBus, Board.surround, Bus.precede_nil, clearJournal]
  rfl

lemma clearJournal_precede (m : Machine) (notices : List Notice) :
    (m.mapBus (Bus.precede [] notices)).clearJournal = m.clearJournal := by
  simp only [mapBus, Board.surround, Bus.precede_nil, clearJournal, id_eq]

lemma clearJournal_step (m : Machine) :
    m.step.2.clearJournal = m.clearJournal.step.2.clearJournal := by
  have hstep := step_mapBus (Bus.unseen_precede [] m.board.bus.journal) m.clearJournal
  rw [← eq_precede_clearJournal] at hstep
  rw [hstep, clearJournal_precede]

/-- **Notices aside, a run depends neither on the notices nor on the steps made before it.** -/
lemma runFrom_congr (h : m.clearJournal = m'.clearJournal) (steps steps' n : Nat) :
    (m.runFrom steps n).1 = (m'.runFrom steps' n).1 ∧
      (m.runFrom steps n).2.clearJournal = (m'.runFrom steps' n).2.clearJournal := by
  have hhalted {m m' : Machine} (h : m.clearJournal = m'.clearJournal) : m'.halted = m.halted :=
    (congrArg Machine.halted h).symm
  have hcancelled {m m' : Machine} (h : m.clearJournal = m'.clearJournal) :
      m'.cancelled = m.cancelled :=
    (congrArg Machine.cancelled h).symm
  fun_induction runFrom steps n m generalizing steps' m' with
  | case1 steps n m code hh =>
      rw [runFrom_of_halted ((hhalted h).trans hh)]
      exact ⟨rfl, h⟩
  | case2 steps n m hc hh =>
      rw [runFrom_of_cancelled ((hhalted h).trans hh) ((hcancelled h).trans hc)]
      exact ⟨rfl, h⟩
  | case3 steps m hc hh =>
      rw [runFrom_zero ((hhalted h).trans hh) ((hcancelled h).trans hc)]
      exact ⟨rfl, h⟩
  | case4 steps m n hc hh ih =>
      rw [runFrom_succ ((hhalted h).trans hh) ((hcancelled h).trans hc)]
      refine ih ?_ _
      rw [clearJournal_step, h, ← clearJournal_step]

/-! ## Runs in a row -/

/-- **A run of `a` steps followed by one of `b` comes to a run of `a + b`,** notices aside. -/
lemma runFrom_add (steps a b : Nat) (m : Machine) :
    ((m.runFrom steps a).2.runFrom 0 b).1 = (m.runFrom steps (a + b)).1 ∧
      ((m.runFrom steps a).2.runFrom 0 b).2.clearJournal =
        (m.runFrom steps (a + b)).2.clearJournal := by
  fun_induction runFrom steps a m with
  | case1 steps a m code hh =>
      rw [runFrom_of_halted hh, runFrom_of_halted hh]
      exact ⟨rfl, rfl⟩
  | case2 steps a m hc hh =>
      rw [runFrom_of_cancelled hh hc, runFrom_of_cancelled (m := m.note _) hh hc]
      exact ⟨rfl, rfl⟩
  | case3 steps m hc hh =>
      rw [Nat.zero_add]
      have hnoted : (m.note (.stepLimit steps)).clearJournal = m.clearJournal := rfl
      exact runFrom_congr hnoted 0 steps b
  | case4 steps m a hc hh ih =>
      rw [Nat.succ_add, runFrom_succ hh hc]
      exact ih

/-- A run that has not used up its steps would not make any more. -/
lemma runFrom_of_ended {steps a : Nat} (h : (m.runFrom steps a).1 ≠ .stepLimit) (b : Nat) :
    m.runFrom steps (a + b) = m.runFrom steps a := by
  fun_induction runFrom steps a m with
  | case1 steps a m code hh => rw [runFrom_of_halted hh]
  | case2 steps a m hc hh => rw [runFrom_of_cancelled hh hc]
  | case3 => exact absurd rfl h
  | case4 steps m a hc hh ih =>
      rw [Nat.succ_add, runFrom_succ hh hc]
      exact ih h

/-- The flag of a step tells whether the machine has halted. -/
lemma step_flag (m : Machine) : m.step.1 = m.step.2.halted.isNone := by
  obtain ⟨board, halted, cancelled⟩ := m
  cases halted with
  | some code => rfl
  | none =>
      simp only [step]
      split <;> rfl

/-- A run reports a code exactly if it leaves a machine that has halted with it. -/
lemma runFrom_eq_halted_iff (steps n : Nat) (m : Machine) (code : UInt32) :
    (m.runFrom steps n).1 = .halted code ↔ (m.runFrom steps n).2.halted = some code := by
  fun_induction runFrom steps n m with
  | case1 steps n m code' hh => simp [hh]
  | case2 steps n m hc hh => simp [note, hh]
  | case3 steps m hc hh => simp [note, hh]
  | case4 steps m n hc hh ih => exact ih

lemma runWithin_of_halted {code : UInt32} (h : m.halted = some code) (steps fuel : Nat) :
    m.runWithin steps fuel = some (.halted code, m) := by
  rw [runWithin.eq_def]
  simp only [h]

lemma step_of_halted {code : UInt32} (h : m.halted = some code) : m.step = (false, m) := by
  obtain ⟨board, halted, cancelled⟩ := m
  obtain rfl : halted = some code := h
  rfl

end Machine

/-! ## Cycles -/

/-- A step after which the board runs on counts one cycle. -/
lemma Board.cycles_step {b : Board} (h : b.step.1 = .running) : b.step.2.cycles = b.cycles + 1 := by
  have hfinish (trapped : Bool) (b : Board) : (finishStep trapped b).2.cycles = b.cycles + 1 := by
    simp only [finishStep]
    split <;> rfl
  have hkept := (executeNext_surroundings b).1
  rw [step] at h ⊢
  cases hrun : executeNext b with
  | error e t =>
      rw [hrun] at hkept
      exact (hfinish true _).trans (congrArg (· + 1) hkept)
  | ok i t =>
      rw [hrun] at hkept
      simp only [hrun] at h ⊢
      split at h
      · cases h
      · next hstuck =>
        rw [if_neg hstuck]
        exact (hfinish false _).trans (congrArg (· + 1) hkept)

namespace Machine

variable {m : Machine}

lemma cycles_step (h : m.halted = none) (h' : m.step.2.halted = none) :
    m.step.2.board.cycles = m.board.cycles + 1 := by
  obtain ⟨board, halted, cancelled⟩ := m
  obtain rfl : halted = none := h
  cases hrun : board.step with
  | mk verdict board' =>
      have hcycles := Board.cycles_step (b := board)
      rw [hrun] at hcycles
      simp only [step, hrun] at h' ⊢
      cases verdict with
      | running => exact hcycles rfl
      | halted code => cases h'

/-- **A run that uses up its steps counts each of them.** -/
lemma cycles_runFrom {steps n : Nat} (h : (m.runFrom steps n).1 = .stepLimit) :
    (m.runFrom steps n).2.board.cycles = m.board.cycles + UInt64.ofNat n := by
  fun_induction runFrom steps n m with
  | case1 | case2 => cases h
  | case3 steps m hc hh => exact (UInt64.add_zero _).symm
  | case4 steps m n hc hh ih =>
      -- a step that halts the machine would have been reported
      have hnext : m.step.2.halted = none := by
        cases hhalted : m.step.2.halted with
        | none => rfl
        | some code =>
            rw [runFrom_of_halted hhalted] at h
            cases h
      rw [ih h, cycles_step hh hnext, UInt64.add_assoc, UInt64.add_comm 1, Nat.succ_eq_add_one,
        UInt64.ofNat_add]
      rfl

/-! ## Output taken away -/

variable {c : MachineConfig}

lemma regions_precede (d : Devices) (sent : List UInt8) :
    d.regions.map (Bus.precedeRegion sent) = (d.put (.uart (d.uart.precede sent))).regions := rfl

lemma standard_drain {d : Devices} (hb : m.board.bus.Standard c d) :
    m.drain.1 = d.uart.outbox.reverse ∧
      m.drain.2.board.bus.Standard c (d.put (.uart { d.uart with outbox := [] })) := by
  have huart := uart_of_standard hb
  rw [drain, huart]
  exact ⟨rfl, hb.put rfl trivial⟩

/-- A machine is the one with its notices and its output taken away, with both made before. -/
lemma eq_precede_drain (hm : m.board.bus.OnBoard c) :
    m = m.drain.2.clearJournal.mapBus (Bus.precede m.uart.outbox m.board.bus.journal) := by
  obtain ⟨d, hb⟩ := hm
  have hregions : m.drain.2.board.bus.regions.map (Bus.precedeRegion m.uart.outbox) =
      m.board.bus.regions := by
    rw [(standard_drain hb).2.regions, regions_precede, uart_of_standard hb, hb.regions]
    rfl
  simp only [mapBus, Board.surround, Bus.precede, clearJournal, hregions]
  rfl

/-- What was sent before comes first when the output is taken. -/
lemma drain_precede (hm : m.board.bus.OnBoard c) (sent : List UInt8) (notices : List Notice) :
    (m.mapBus (Bus.precede sent notices)).drain.1 = sent.reverse ++ m.drain.1 ∧
      (m.mapBus (Bus.precede sent notices)).drain.2.clearJournal = m.drain.2.clearJournal := by
  obtain ⟨d, hb⟩ := hm
  have hb' : (m.mapBus (Bus.precede sent notices)).board.bus.Standard c
      (d.put (.uart (d.uart.precede sent))) :=
    ⟨(congrArg (List.map (Bus.precedeRegion sent)) hb.regions).trans (regions_precede d sent),
      hb.base, hb.size, hb.clint, hb.virtio⟩
  obtain ⟨hbytes, hrest⟩ := standard_drain hb
  obtain ⟨hbytes', hrest'⟩ := standard_drain hb'
  constructor
  · rw [hbytes, hbytes']
    exact List.reverse_append
  · have hregions : (m.mapBus (Bus.precede sent notices)).drain.2.board.bus.regions =
        m.drain.2.board.bus.regions := hrest'.regions.trans hrest.regions.symm
    simp only [clearJournal, hregions]
    rfl

/-- The machine after the host has taken its notices and its output. -/
def emptied (m : Machine) : Machine :=
  m.drain.2.clearJournal

lemma onBoard_emptied (hm : m.board.bus.OnBoard c) : m.emptied.board.bus.OnBoard c := by
  obtain ⟨d, hb⟩ := onBoard_setUart hm _
  exact ⟨d, hb.regions, hb.base, hb.size, hb.clint, hb.virtio⟩

lemma emptied_of_clearJournal {m' : Machine} (h : m.clearJournal = m'.clearJournal) :
    m.drain.1 = m'.drain.1 ∧ m.emptied = m'.emptied := by
  have hbytes := congrArg (fun m => m.drain.1) h
  have hrest := congrArg emptied h
  exact ⟨hbytes, hrest⟩

lemma onBoard_runFor (hm : m.board.bus.OnBoard c) (n : Nat) : (m.runFor n).2.board.bus.OnBoard c :=
  kept_runFrom (Bus.kept_onBoard c) 0 n hm

/-- **A run does not depend on what the host has taken away before it.**  What it sends is what it
    would have sent, after what was there. -/
lemma runFor_emptied (hm : m.board.bus.OnBoard c) (n : Nat) :
    (m.runFor n).1 = (m.emptied.runFor n).1 ∧
      (m.runFor n).2.drain.1 = m.drain.1 ++ (m.emptied.runFor n).2.drain.1 ∧
      (m.runFor n).2.emptied = (m.emptied.runFor n).2.emptied := by
  have hrun := runFrom_mapBus (Bus.unseen_precede m.uart.outbox m.board.bus.journal) 0 n m.emptied
  rw [emptied, ← eq_precede_drain hm] at hrun
  have hboard := onBoard_runFor (onBoard_emptied hm) n
  obtain ⟨hbytes, hrest⟩ := drain_precede hboard m.uart.outbox m.board.bus.journal
  rw [runFor, hrun]
  exact ⟨rfl, hbytes, hrest⟩

/-- **A run can be interrupted to take away what has come of it.** -/
lemma runFor_interrupted (hm : m.board.bus.OnBoard c) (a b : Nat) :
    (m.runFor (a + b)).1 = ((m.runFor a).2.emptied.runFor b).1 ∧
      (m.runFor (a + b)).2.drain.1 =
        (m.runFor a).2.drain.1 ++ ((m.runFor a).2.emptied.runFor b).2.drain.1 ∧
      (m.runFor (a + b)).2.emptied = ((m.runFor a).2.emptied.runFor b).2.emptied := by
  obtain ⟨hstatus, hstate⟩ := runFrom_add 0 a b m
  obtain ⟨hbytes, hrest⟩ := emptied_of_clearJournal hstate
  obtain ⟨hstatus', hbytes', hrest'⟩ := runFor_emptied (onBoard_runFor hm a) b
  exact ⟨hstatus.symm.trans hstatus', hbytes.symm.trans hbytes', hrest.symm.trans hrest'⟩

end Machine

/-! ## What the host sees -/

namespace Cli

/-- Something that the program lets the host do while a machine runs. -/
inductive Emission
  | report (entry : LogEntry)
  | print (bytes : List UInt8)

namespace Emission

/-- The bytes that the host prints. -/
def bytes : Emission → List UInt8
  | .report _ => []
  | .print bytes => bytes

variable {M : Type → Type} [Monad M]

/-- The host does it. -/
def perform (host : Host M) : Emission → M Unit
  | .report entry => host.report entry
  | .print bytes => host.print bytes

/-- The host does one thing after the other. -/
def performAll (host : Host M) : List Emission → M Unit
  | [] => pure ()
  | e :: es => do
    e.perform host
    performAll host es

lemma reportAll_eq (host : Host M) (entries : List LogEntry) :
    reportAll host entries = performAll host (entries.map report) := by
  induction entries with
  | nil => rfl
  | cons e entries ih =>
      rw [reportAll, ih]
      rfl

variable [LawfulMonad M]

lemma performAll_append (host : Host M) (es es' : List Emission) :
    performAll host (es ++ es') = performAll host es >>= fun _ => performAll host es' := by
  induction es with
  | nil => rw [List.nil_append, performAll, pure_bind]
  | cons e es ih => rw [List.cons_append, performAll, performAll, ih, bind_assoc]

/-- What is printed of a row of bytes: nothing if there are none. -/
def ofBytes (bytes : List UInt8) : List Emission :=
  if bytes.isEmpty then [] else [.print bytes]

lemma printBytes_eq (host : Host M) (bytes : List UInt8) :
    printBytes host bytes = performAll host (ofBytes bytes) := by
  rw [printBytes, ofBytes]
  split
  · rfl
  · rw [performAll, performAll, bind_pure_unit]
    rfl

/-- What comes of a batch: first its notices and then its output. -/
def ofBatch (machine : Machine) : List Emission :=
  (machine.journal.map Notice.entry).map report ++ ofBytes machine.drain.1

lemma bytes_ofBatch (machine : Machine) : (ofBatch machine).flatMap bytes = machine.drain.1 := by
  have hreports (entries : List LogEntry) : (entries.map report).flatMap bytes = [] := by
    induction entries with
    | nil => rfl
    | cons e entries ih => exact ih
  have hprint (row : List UInt8) : (ofBytes row).flatMap bytes = row := by
    cases row with
    | nil => rfl
    | cons b row => exact List.append_nil _
  rw [ofBatch, List.flatMap_append, hreports, hprint, List.nil_append]

end Emission

open Emission

section Drive

variable {M : Type → Type} [Monad M]

/-- The host has no input to pass on, and the time is not up. -/
structure Idle (host : Host M) (timeout : Option Nat) : Prop where
  received : host.received = pure []
  timeUp : ∀ seconds ∈ timeout, host.timeUp seconds = pure false

variable [LawfulMonad M] {host : Host M} {timeout : Option Nat}

lemma attend_of_idle (h : Idle host timeout) (machine : Machine) :
    attend host timeout machine = pure machine := by
  rw [attend, h.received, pure_bind]
  cases timeout with
  | none => rfl
  | some seconds =>
      simp only [h.timeUp seconds rfl, pure_bind]
      rfl

/-- **One batch,** and what follows it. -/
lemma drive_succ (h : Idle host timeout) (batches n : Nat) (machine : Machine) :
    drive host timeout (batches + 1) (some n) machine =
      performAll host (ofBatch (machine.runFor (nextBatch (some n))).2) >>= fun _ =>
        if (machine.runFor (nextBatch (some n))).1 = .stepLimit ∧ n - nextBatch (some n) ≠ 0 then
          drive host timeout batches (some (n - nextBatch (some n)))
            (machine.runFor (nextBatch (some n))).2.emptied
        else
          pure ((machine.runFor (nextBatch (some n))).1,
            (machine.runFor (nextBatch (some n))).2.emptied) := by
  rw [drive, attend_of_idle h, pure_bind]
  simp only [reportNotices, reportAll_eq, printBytes_eq, bind_assoc, pure_bind, ofBatch,
    performAll_append]
  generalize machine.runFor (nextBatch (some n)) = r
  obtain ⟨status, machine⟩ := r
  refine bind_congr fun _ => bind_congr fun _ => ?_
  cases status with
  | halted | cancelled => rfl
  | stepLimit =>
      simp only [true_and, ne_eq, ite_not]
      rfl

end Drive

/-- If steps remain after a batch, the batch was a full one. -/
lemma batchesFor_remaining {n : Nat} (h : n - nextBatch (some n) ≠ 0) :
    n - nextBatch (some n) < n ∧
      batchesFor (some n) = batchesFor (some (n - nextBatch (some n))) + 1 := by
  simp only [nextBatch, batchesFor, batchSize] at h ⊢
  omega

/-- **What the host sees of a run in batches, and what is left of the machine.** -/
lemma exists_emissions {c : MachineConfig} {machine : Machine} (hm : machine.board.bus.OnBoard c)
    (n : Nat) :
    ∃ es : List Emission, es.flatMap bytes = (machine.runFor n).2.drain.1 ∧
      ∀ {M : Type → Type} [Monad M] [LawfulMonad M] (host : Host M) (timeout : Option Nat)
        (batches : Nat), Idle host timeout → batchesFor (some n) ≤ batches →
        drive host timeout batches (some n) machine =
          performAll host es >>= fun _ =>
            pure ((machine.runFor n).1, (machine.runFor n).2.emptied) := by
  induction n using Nat.strong_induction_on generalizing machine with
  | h n ih =>
      -- the first batch, and then the steps that remain
      obtain ⟨size, hsize⟩ : ∃ size, size = nextBatch (some n) := ⟨_, rfl⟩
      have hsum : size + (n - size) = n :=
        Nat.add_sub_cancel' (hsize ▸ Nat.min_le_left n batchSize)
      by_cases hmore : (machine.runFor size).1 = .stepLimit ∧ n - size ≠ 0
      · obtain ⟨hless, hcount⟩ := batchesFor_remaining (hsize ▸ hmore.2)
        rw [← hsize] at hless hcount
        obtain ⟨hstatus, hbytes, hrest⟩ := Machine.runFor_interrupted hm size (n - size)
        rw [hsum] at hstatus hbytes hrest
        obtain ⟨es, hes, hdrive⟩ :=
          ih (n - size) hless (Machine.onBoard_emptied (Machine.onBoard_runFor hm size))
        refine ⟨ofBatch (machine.runFor size).2 ++ es, ?_, ?_⟩
        · rw [List.flatMap_append, bytes_ofBatch, hes, hbytes]
        · intro M _ _ host timeout batches hidle hbatches
          obtain ⟨k, rfl⟩ := Nat.exists_eq_add_of_le' hbatches
          rw [hcount, ← Nat.add_assoc, drive_succ hidle, ← hsize, if_pos hmore, performAll_append,
            bind_assoc, hdrive host timeout _ hidle (Nat.le_add_left _ k), hstatus, hrest]
      · have hended : machine.runFor n = machine.runFor size := by
          by_cases hzero : n - size = 0
          · rw [hzero, Nat.add_zero] at hsum
            rw [hsum]
          · have hstatus : (machine.runFor size).1 ≠ .stepLimit := fun hlimit =>
              hmore ⟨hlimit, hzero⟩
            have hrun := Machine.runFrom_of_ended hstatus (n - size)
            rw [hsum] at hrun
            exact hrun
        refine ⟨ofBatch (machine.runFor size).2, ?_, ?_⟩
        · rw [bytes_ofBatch, hended]
        · intro M _ _ host timeout batches hidle hbatches
          obtain ⟨k, rfl⟩ := Nat.exists_eq_add_of_le' hbatches
          have hcount : k + batchesFor (some n) = k + n / batchSize + 1 := rfl
          rw [hcount, drive_succ hidle, ← hsize, if_neg hmore, hended]

/-- **Running in batches comes to what plain running comes to.**  While the host has no input to
    pass on and the time is not up, any number of batches that is enough for `n` steps (so that this
    number is never what ends a run) lets the host print what one run of `n` steps sends, and gives
    back the status and the machine of that run, with output and notices taken away.  What is taken
    off the number of steps that remain is never more than that number.  Notices aside, a run after
    a run is one run of the steps of both.  A run that uses up its steps has counted each of them.
    A run reports a code exactly if it leaves a machine that has halted with it, and such a machine
    is changed neither by a step nor by a run, each of which reports the halt again. -/
theorem batched_run_eq_plain {c : MachineConfig} {machine : Machine}
    (hm : machine.board.bus.OnBoard c) (n : Nat) :
    (∃ es : List Emission, es.flatMap bytes = (machine.runFor n).2.drain.1 ∧
      ∀ (M : Type → Type) [Monad M] [LawfulMonad M] (host : Host M) (timeout : Option Nat)
        (batches : Nat), Idle host timeout → batchesFor (some n) ≤ batches →
        drive host timeout batches (some n) machine =
          performAll host es >>= fun _ =>
            pure ((machine.runFor n).1, (machine.runFor n).2.drain.2.clearJournal)) ∧
    (∀ remaining, nextBatch (some remaining) ≤ remaining) ∧
    (∀ a b, ((machine.runFor a).2.runFor b).1 = (machine.runFor (a + b)).1 ∧
      ((machine.runFor a).2.runFor b).2.clearJournal = (machine.runFor (a + b)).2.clearJournal) ∧
    ((machine.runFor n).1 = .stepLimit →
      (machine.runFor n).2.board.cycles = machine.board.cycles + UInt64.ofNat n) ∧
    (∀ code, (machine.runFor n).1 = .halted code ↔ (machine.runFor n).2.halted = some code) ∧
    machine.step.1 = machine.step.2.halted.isNone ∧
    ∀ code, machine.halted = some code →
      machine.step = (false, machine) ∧ (∀ k, machine.runFor k = (.halted code, machine)) ∧
      ∀ steps fuel, machine.runWithin steps fuel = some (.halted code, machine) := by
  refine ⟨?_, ?_, ?_, ?_, ?_, machine.step_flag, ?_⟩
  · obtain ⟨es, hbytes, hdrive⟩ := exists_emissions hm n
    exact ⟨es, hbytes, fun M _ _ host timeout batches => hdrive host timeout batches⟩
  · exact fun remaining => Nat.min_le_left remaining batchSize
  · exact fun a b => Machine.runFrom_add 0 a b machine
  · exact Machine.cycles_runFrom
  · exact Machine.runFrom_eq_halted_iff 0 n machine
  · intro code hcode
    exact ⟨Machine.step_of_halted hcode, Machine.runFrom_of_halted hcode 0,
      Machine.runWithin_of_halted hcode⟩

/-- A host that keeps what it prints. -/
def recorder : Host (StateM (List UInt8)) where
  readFile _ := pure (.error .notFound)
  writeFile _ _ := pure (.error .notFound)
  report _ := pure ()
  print bytes := modify (· ++ bytes)
  nextLine := pure none
  received := pure []
  timeUp _ := pure false

lemma performAll_recorder (es : List Emission) (log : List UInt8) :
    (performAll recorder es).run log = ((), log ++ es.flatMap bytes) := by
  induction es generalizing log with
  | nil => rw [List.flatMap_nil, List.append_nil]; rfl
  | cons e es ih =>
      cases e with
      | report => exact ih log
      | print row =>
          rw [List.flatMap_cons, bytes, ← List.append_assoc]
          exact ih (log ++ row)

def greeterConfig : MachineConfig :=
  { MachineConfig.default with ramSize := 0x1000 }

/-- A machine with a program that sends a letter and then asks for a halt, in seven steps. -/
def greeter : Machine :=
  (Machine.ofConfig greeterConfig).after
    [.load ([0x100002B7, 0x04800313, 0x00628023, 0x001002B7, 0x00005337, 0x55530313,
      0x0062A023].flatMap (LittleEndian.toBytes 4))]

/-- Of many batches of steps, the first one sends the letter and halts the machine; what is left of
    it reports the halt again.  A run of six steps uses them up. -/
theorem greeting_in_batches :
    greeter.board.bus.OnBoard greeterConfig ∧ Idle recorder (some 60) ∧
    (∃ machine, (drive recorder (some 60) 3 (some 40000) greeter).run [] =
        ((.halted 0, machine), [72]) ∧ machine.step = (false, machine)) ∧
    (greeter.runFor 6).1 = .stepLimit ∧ (greeter.runFor 6).2.board.cycles = 6 := by
  have hnew := Machine.new_eq_ofConfig (c := greeterConfig) (by decide +kernel)
  have hfits : greeterConfig.DiskFits := fun bytes hbytes => by cases hbytes
  have hboard : greeter.board.bus.OnBoard greeterConfig :=
    Machine.onBoard_after (Machine.onBoard_new hfits hnew) _
  have hidle : Idle recorder (some 60) := ⟨rfl, fun _ _ => rfl⟩
  have hseven : (greeter.runFor 7).1 = .halted 0 ∧ (greeter.runFor 7).2.drain.1 = [72] := by
    decide +kernel
  have hended : (greeter.runFrom 0 7).1 ≠ .stepLimit := by
    rw [← Machine.runFor, hseven.1]
    nofun
  have hlong : greeter.runFor 40000 = greeter.runFor 7 := by
    have hrest := Machine.runFrom_of_ended hended 39993
    simp only [Nat.reduceAdd] at hrest
    exact hrest
  obtain ⟨⟨es, hbytes, hdrive⟩, -, -, -, hhalted, -⟩ := batched_run_eq_plain hboard 40000
  rw [hlong] at hbytes hdrive hhalted
  refine ⟨hboard, hidle, ⟨(greeter.runFor 7).2.drain.2.clearJournal, ?_, ?_⟩, ?_⟩
  · rw [hdrive _ recorder (some 60) 3 hidle (by decide), StateT.run_bind, performAll_recorder,
      hbytes, hseven.1, hseven.2]
    rfl
  · have hsame (m : Machine) : m.drain.2.clearJournal.halted = m.halted := rfl
    have hleft := Machine.onBoard_emptied (Machine.onBoard_runFor hboard 7)
    obtain ⟨-, -, -, -, -, -, hstays⟩ := batched_run_eq_plain hleft 0
    exact (hstays 0 ((hsame _).trans ((hhalted 0).mp hseven.1))).1
  · have hsix : (greeter.runFor 6).1 = .stepLimit := by decide +kernel
    have hstart : greeter.board.cycles = 0 := by decide +kernel
    obtain ⟨-, -, -, hcycles, -⟩ := batched_run_eq_plain hboard 6
    exact ⟨hsix, by rw [hcycles hsix, hstart]; rfl⟩

end Cli

end Rv64Board
