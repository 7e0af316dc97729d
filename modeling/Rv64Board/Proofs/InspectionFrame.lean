import Rv64Board.Debugger.Session
import Rv64Board.Proofs.AlignedReads

/-!
# What inspection leaves alone

Commands that only show something leave the machine as it is, with one exception: where page tables
lead into the UART, looking up an address takes bytes of the input.

* `Command.inspects` — the commands that only show something.
* `related_execute`, `related_executeAll` — **what looking up an address does to the machine is all
  that such commands do to it.**
* `Machine.Undisturbed` — no look can take a byte: there is none, the divisor is in the place of the
  data register, or no walk comes there.
* `locate_alone`, `locate_shortens` — a look leaves such a machine alone; any other look that comes
  to the data register takes a byte.
* `Session.inspection_takes_only_input` — so commands that inspect take input or nothing, and the
  machines that none of them changes are those that cannot be disturbed.
-/

namespace Rv64Board

namespace Machine

/-- The machine after the data register of the UART has been read. -/
def takeByte (m : Machine) : Machine :=
  m.setUart m.uart.takeByte

/-- The machine with another bus. -/
def withBus (m : Machine) (bus : Bus) : Machine :=
  { m with board := { m.board with bus } }

lemma takeByte_iterate (k : Nat) (m : Machine) :
    takeByte^[k] m = m.withBus (Bus.takeByte^[k] m.board.bus) := by
  induction k generalizing m with
  | zero => rfl
  | succ k ih => exact ih m.takeByte

lemma clearJournal_takeByte_iterate (k : Nat) (m : Machine) :
    (takeByte^[k] m).clearJournal = takeByte^[k] m.clearJournal := by
  rw [takeByte_iterate, takeByte_iterate]
  exact congrArg m.withBus (Bus.forget_takeByte_iterate k m.board.bus)

/-- No look can take a byte. -/
def Undisturbed (m : Machine) : Prop :=
  m.uart.divisorLatched = true ∨ m.uart.input = [] ∨
    ∀ access address, uartBase ∉ m.board.hart.trail access address m.board.bus

variable {c : MachineConfig} {m m' : Machine}

/-! ## The notices do not matter -/

lemma forget_of_clearJournal (h : m.clearJournal = m'.clearJournal) :
    m.board.bus.forget = m'.board.bus.forget :=
  congrArg (fun m => m.board.bus) h

lemma hart_of_clearJournal (h : m.clearJournal = m'.clearJournal) :
    m.board.hart = m'.board.hart :=
  congrArg (fun m => m.board.hart) h

lemma uart_of_clearJournal (h : m.clearJournal = m'.clearJournal) : m.uart = m'.uart := by
  have huart := congrArg Machine.uart h
  exact huart

lemma onBoard_of_clearJournal (h : m.clearJournal = m'.clearJournal)
    (hm : m.board.bus.OnBoard c) : m'.board.bus.OnBoard c := by
  obtain ⟨d, hb⟩ := hm
  obtain ⟨hram, hregions, _⟩ := Bus.mk.inj (forget_of_clearJournal h)
  exact ⟨d, hregions ▸ hb.regions, hram ▸ hb.base, hram ▸ hb.size, hb.clint, hb.virtio⟩

lemma onBoard_clearJournal (hm : m.board.bus.OnBoard c) : m.clearJournal.board.bus.OnBoard c :=
  onBoard_of_clearJournal (m := m) rfl hm

lemma undisturbed_of_clearJournal (h : m.clearJournal = m'.clearJournal) (hm : m.Undisturbed) :
    m'.Undisturbed := by
  rw [Undisturbed, ← uart_of_clearJournal h, ← hart_of_clearJournal h]
  simp only [← Hart.trail_of_forget (forget_of_clearJournal h)]
  exact hm

/-! ## Bytes that are taken -/

lemma uart_takeByte (hm : m.board.bus.OnBoard c) : m.takeByte.uart = m.uart.takeByte := by
  obtain ⟨d, hb⟩ := hm
  have hput : (m.board.bus.setDevice uartBase (.uart m.uart.takeByte)).Standard c _ :=
    hb.put rfl trivial
  exact hput.uart_eq

lemma uart_takeByte_iterate (hm : m.board.bus.OnBoard c) (k : Nat) :
    (takeByte^[k] m).uart = Uart.takeByte^[k] m.uart := by
  induction k generalizing m with
  | zero => rfl
  | succ k ih =>
      have hrest := ih (onBoard_setUart hm m.uart.takeByte)
      rw [Function.iterate_succ_apply, Function.iterate_succ_apply, ← uart_takeByte hm]
      exact hrest

lemma onBoard_takeByte_iterate (hm : m.board.bus.OnBoard c) (k : Nat) :
    (takeByte^[k] m).board.bus.OnBoard c := by
  induction k generalizing m with
  | zero => exact hm
  | succ k ih => exact ih (onBoard_setUart hm m.uart.takeByte)

lemma takeByte_of_eq (hm : m.board.bus.OnBoard c) (h : m.uart.takeByte = m.uart) :
    m.takeByte = m := by
  obtain ⟨d, hb⟩ := hm
  rw [uart_of_standard hb] at h
  exact congrArg m.withBus (hb.takeByte_of_eq h)

end Machine

namespace Debugger

/-- The commands that only show something, or change what the session itself keeps. -/
def Command.inspects : Command → Bool
  | .registers _ | .csr _ | .memory .. | .list _ | .breakAt _ | .unbreak _ | .info _ => true
  | .step _ | .resume | .set .. | .input .. | .exit => false

namespace Session

/-- Carries out commands one after the other. -/
def executeAll (s : Session) (slice : Nat) (commands : List Command) : Session :=
  commands.foldl (fun s command => s.execute slice command) s

/-! ## From one look to all of them -/

@[simp] lemma machine_sayAll (s : Session) (texts : List String) :
    (s.sayAll texts).machine = s.machine := by
  induction texts generalizing s with
  | nil => rfl
  | cons text texts ih => exact ih (s.say .info text)

/-- Fetching bytes starts with one look, and may go on after it. -/
lemma fetchBytes_succ (count : Nat) (address : UInt64) (fetched : List UInt8) (s : Session) :
    (fetchBytes (count + 1) address fetched s).2 = (s.locate .fetch address).2 ∨
    ∃ fetched', (fetchBytes (count + 1) address fetched s).2 =
      (fetchBytes count (address + 1) fetched' (s.locate .fetch address).2).2 := by
  rw [fetchBytes]
  rcases s.locate .fetch address with ⟨found, t⟩
  cases found with
  | error e => exact Or.inl rfl
  | ok physical =>
      simp only
      split
      · exact Or.inl rfl
      · exact Or.inr ⟨_, rfl⟩

lemma machine_list (s : Session) (count : Nat) :
    (s.list count).machine = (fetchBytes (UInt64.ofNat count * 4).toNat
      (s.listing.getD s.machine.board.hart.pc) [] s).2.machine := by
  simp only [list]
  split <;> split <;> exact machine_sayAll _ _

section Related

variable {R : Machine → Machine → Prop}
  (hlocate : ∀ s access address, R s.machine (locate s access address).2.machine)
include hlocate

lemma related_peek (s : Session) (address : UInt64) :
    R s.machine (s.peek address).2.machine := by
  have hlook := hlocate s .load address
  rw [peek]
  split <;> next hrun => rwa [hrun] at hlook

variable [IsPreorder Machine R]

lemma related_fetchBytes (count : Nat) (address : UInt64) (fetched : List UInt8) (s : Session) :
    R s.machine (fetchBytes count address fetched s).2.machine := by
  induction count generalizing address fetched s with
  | zero => exact refl s.machine
  | succ count ih =>
      have hlook := hlocate s .fetch address
      rcases fetchBytes_succ count address fetched s with hend | ⟨fetched', hnext⟩
      · rwa [hend]
      · rw [hnext]
        exact IsTrans.trans _ _ _ hlook (ih _ _ _)

lemma related_showMemory (count : Nat) (address : UInt64) (s : Session) :
    R s.machine (showMemory count address s).machine := by
  induction count generalizing address s with
  | zero => exact refl s.machine
  | succ count ih =>
      have hlook := related_peek hlocate s address
      rw [showMemory]
      split
      · next hrun => rwa [hrun] at hlook
      · next hrun =>
        rw [hrun] at hlook
        exact IsTrans.trans _ _ _ hlook (ih _ (say _ _ _))

lemma related_list (s : Session) (count : Nat) : R s.machine (s.list count).machine := by
  rw [machine_list]
  exact related_fetchBytes hlocate _ _ _ s

/-- **What looking up an address does to the machine is all that commands which inspect do to
    it.** -/
lemma related_execute (s : Session) (slice : Nat) {command : Command}
    (hcommand : command.inspects = true) : R s.machine (s.execute slice command).machine := by
  rw [execute]
  split
  · exact refl s.machine
  · cases command with
    | step | resume | set | input | exit => cases hcommand
    | registers r => cases r <;> exact refl s.machine
    | csr c => exact refl s.machine
    | memory e count => exact related_showMemory hlocate count _ s
    | list count => exact related_list hlocate s count
    | breakAt e =>
        simp only [addBreakpoint]
        split <;> exact refl s.machine
    | unbreak e =>
        simp only [removeBreakpoint]
        split <;> exact refl s.machine
    | info question =>
        simp only [answer]
        split <;> rw [machine_sayAll] <;> exact refl s.machine

lemma related_executeAll (s : Session) (slice : Nat) {commands : List Command}
    (hcommands : ∀ command ∈ commands, command.inspects = true) :
    R s.machine (s.executeAll slice commands).machine := by
  induction commands generalizing s with
  | nil => exact refl s.machine
  | cons command commands ih =>
      obtain ⟨hfirst, hrest⟩ := List.forall_mem_cons.mp hcommands
      exact IsTrans.trans _ _ _ (related_execute hlocate s slice hfirst) (ih _ hrest)

end Related

/-! ## What a look does -/

lemma machine_locate (s : Session) (access : Access) (address : UInt64) :
    (s.locate access address).2.machine = s.machine.withBus
      (finalState (s.machine.board.hart.inspect access address s.machine.board.bus)).forget := by
  rw [locate]
  cases s.machine.board.hart.inspect access address s.machine.board.bus <;> rfl

variable {c : MachineConfig} {s : Session}

/-- A look takes as many bytes as its walk comes to the data register. -/
lemma locate_takes (hc : c.Apart) (hs : s.machine.board.bus.OnBoard c) (access : Access)
    (address : UInt64) :
    (s.locate access address).2.machine = (Machine.takeByte^[(s.machine.board.hart.trail access
      address s.machine.board.bus).count uartBase] s.machine).clearJournal := by
  rw [machine_locate, Hart.forget_inspect hc _ access address hs, Machine.takeByte_iterate]
  rfl

/-- A look that can take no byte leaves the machine alone. -/
lemma locate_alone (hc : c.Apart) (hs : s.machine.board.bus.OnBoard c)
    (hquiet : s.machine.Undisturbed) (access : Access) (address : UInt64) :
    (s.locate access address).2.machine = s.machine.clearJournal := by
  rw [locate_takes hc hs]
  rcases hquiet with hlatched | hinput | htrail
  · have hfix := Machine.takeByte_of_eq hs (Uart.takeByte_of_latched hlatched)
    rw [Function.iterate_fixed hfix]
  · have hfix := Machine.takeByte_of_eq hs (Uart.takeByte_of_input hinput)
    rw [Function.iterate_fixed hfix]
  · rw [List.count_eq_zero_of_not_mem (htrail access address)]
    rfl

/-- **Any other look takes a byte.** -/
lemma locate_shortens (hc : c.Apart) (hs : s.machine.board.bus.OnBoard c)
    (hlatched : s.machine.uart.divisorLatched = false) (hinput : s.machine.uart.input ≠ [])
    {access : Access} {address : UInt64}
    (hdata : uartBase ∈ s.machine.board.hart.trail access address s.machine.board.bus) :
    (s.locate access address).2.machine.uart.input.length < s.machine.uart.input.length := by
  have huart := congrArg Machine.uart (locate_takes hc hs access address)
  have htaken : (s.locate access address).2.machine.uart = _ :=
    huart.trans (Machine.uart_takeByte_iterate hs _)
  rw [htaken, Uart.input_takeByte_iterate hlatched, List.length_drop]
  have hcount := List.count_pos_iff.mpr hdata
  have hsome := List.length_pos_iff.mpr hinput
  omega

/-- To show one doubleword is one look. -/
lemma machine_execute_memory (s : Session) (slice : Nat) (e : Expression) :
    (s.execute slice (.memory e 1)).machine =
      (s.locate .load (e.eval s.machine.board.hart.registers)).2.machine := by
  simp only [execute, needsRunning, Bool.and_false, Bool.false_eq_true, if_false, showMemory, peek]
  rcases s.locate .load (e.eval s.machine.board.hart.registers) with ⟨found, t⟩
  cases found with
  | error e => rfl
  | ok physical =>
      simp only
      split <;> next hpeek =>
        obtain ⟨_, rfl⟩ := Prod.mk.inj hpeek
        rfl

/-! ## What commands that inspect do -/

/-- On the board of a description, input is all that is taken. -/
def OnlyTakes (c : MachineConfig) (m m' : Machine) : Prop :=
  m.board.bus.OnBoard c → m'.board.bus.OnBoard c ∧
    ∃ k, m'.clearJournal = (Machine.takeByte^[k] m).clearJournal

instance (c : MachineConfig) : IsPreorder Machine (OnlyTakes c) where
  refl _ hm := ⟨hm, 0, rfl⟩
  trans _ _ _ hfirst hnext hm := by
    obtain ⟨hm', j, hj⟩ := hfirst hm
    obtain ⟨hm'', k, hk⟩ := hnext hm'
    refine ⟨hm'', k + j, ?_⟩
    rw [hk, Machine.clearJournal_takeByte_iterate, hj, ← Machine.clearJournal_takeByte_iterate,
      Function.iterate_add_apply]

lemma onlyTakes_locate (hc : c.Apart) (s : Session) (access : Access) (address : UInt64) :
    OnlyTakes c s.machine (s.locate access address).2.machine := by
  intro hm
  rw [locate_takes hc hm]
  exact ⟨Machine.onBoard_clearJournal (Machine.onBoard_takeByte_iterate hm _), _, rfl⟩

/-- Input that is taken does not come back. -/
lemma OnlyTakes.length_le {m m' : Machine} (h : OnlyTakes c m m') (hm : m.board.bus.OnBoard c) :
    m'.uart.input.length ≤ m.uart.input.length := by
  obtain ⟨_, k, hk⟩ := h hm
  rw [Machine.uart_of_clearJournal hk, Machine.uart_takeByte_iterate hm]
  cases hlatched : m.uart.divisorLatched with
  | true => rw [Function.iterate_fixed (Uart.takeByte_of_latched hlatched)]
  | false =>
      rw [Uart.input_takeByte_iterate hlatched, List.length_drop]
      exact Nat.sub_le _ _

/-- Nothing is taken from a machine that cannot be disturbed. -/
def LeavesAlone (c : MachineConfig) (m m' : Machine) : Prop :=
  m.board.bus.OnBoard c → m.Undisturbed → m'.clearJournal = m.clearJournal

instance (c : MachineConfig) : IsPreorder Machine (LeavesAlone c) where
  refl _ _ _ := rfl
  trans _ _ _ hfirst hnext hm hquiet := by
    have hsame := hfirst hm hquiet
    exact (hnext (Machine.onBoard_of_clearJournal hsame.symm hm)
      (Machine.undisturbed_of_clearJournal hsame.symm hquiet)).trans hsame

lemma leavesAlone_locate (hc : c.Apart) (s : Session) (access : Access) (address : UInt64) :
    LeavesAlone c s.machine (s.locate access address).2.machine := by
  intro hm hquiet
  rw [locate_alone hc hm hquiet]
  rfl

/-- Commands that inspect lead from one machine to another, in some session; the notices are not
    looked at. -/
def Inspected (m m' : Machine) : Prop :=
  ∃ (s : Session) (slice : Nat) (commands : List Command),
    s.machine.clearJournal = m.clearJournal ∧ (∀ command ∈ commands, command.inspects = true) ∧
      (s.executeAll slice commands).machine.clearJournal = m'

/-- Where a look can take a byte, there is a command that takes one: one that shows the doubleword,
    or one that goes on listing at the address. -/
lemma undisturbed_of_inspected (hc : c.Apart) {m : Machine} (hm : m.board.bus.OnBoard c)
    (hsame : ∀ m', Inspected m m' → m' = m.clearJournal) : m.Undisturbed := by
  by_contra hnot
  simp only [Machine.Undisturbed, not_or, not_forall, not_not, Bool.not_eq_true] at hnot
  obtain ⟨hlatched, hinput, access, address, hdata⟩ := hnot
  -- it is enough to find one command that leaves less input
  have hshorter (s : Session) (command : Command) (hs : s.machine = m)
      (hcommand : command.inspects = true) :
      ¬(s.execute 0 command).machine.uart.input.length < m.uart.input.length := by
    have hresult := hsame _ ⟨s, 0, [command], by rw [hs], by simpa using hcommand, rfl⟩
    have huart := Machine.uart_of_clearJournal hresult
    rw [show (s.execute 0 command).machine.uart = m.uart from huart]
    exact Nat.lt_irrefl _
  let s : Session := ⟨m, [], some address, none, "", false, false, [], []⟩
  have hload (hdata : uartBase ∈ m.board.hart.trail .load address m.board.bus) : False := by
    refine hshorter s (.memory ⟨[(.plus, .literal address)]⟩ 1) rfl rfl ?_
    have heval : Expression.eval ⟨[(.plus, .literal address)]⟩ m.board.hart.registers = address :=
      UInt64.zero_add address
    rw [machine_execute_memory, heval]
    exact locate_shortens (s := s) hc hm hlatched hinput hdata
  cases access with
  | load => exact hload hdata
  | store =>
      rw [Hart.trail_store] at hdata
      exact hload hdata
  | fetch =>
      refine hshorter s (.list 1) rfl rfl ?_
      have hlook := locate_shortens (s := s) hc hm hlatched hinput hdata
      have hlist : (s.execute 0 (.list 1)).machine = (fetchBytes 4 address [] s).2.machine := by
        simp only [execute, needsRunning, Bool.and_false, Bool.false_eq_true, if_false]
        exact machine_list s 1
      rw [hlist]
      rcases fetchBytes_succ 3 address [] s with hend | ⟨fetched, hnext⟩
      · rwa [hend]
      · -- what comes after the first look gives nothing back
        have hrest := related_fetchBytes (onlyTakes_locate hc) 3 (address + 1) fetched
          (s.locate .fetch address).2
        rw [hnext]
        exact Nat.lt_of_le_of_lt (hrest.length_le (onlyTakes_locate hc s _ _ hm).1) hlook

/-- **Inspection takes input or nothing.**  Commands that inspect leave a machine, whatever it went
    through before, as it was, except that bytes may be missing at the front of the input.  They all
    leave it just as it was if and only if no look can take a byte: there is none, the divisor is in
    the place of the data register, or no walk comes there. -/
theorem inspection_takes_only_input {n : Machine} (hfits : c.DiskFits)
    (hnew : Machine.new c = .ok n) (history : List HostOp) :
    (∀ m', Inspected (n.after history) m' →
      ∃ k, m' = (Machine.takeByte^[k] (n.after history)).clearJournal) ∧
    ((∀ m', Inspected (n.after history) m' → m' = (n.after history).clearJournal) ↔
      (n.after history).Undisturbed) := by
  have hc := MachineConfig.apart_of_new hnew
  have hm := Machine.onBoard_after (Machine.onBoard_new hfits hnew) history
  generalize n.after history = m at *
  refine ⟨?_, undisturbed_of_inspected hc hm, ?_⟩
  · rintro m' ⟨s, slice, commands, hs, hcommands, rfl⟩
    have htakes := related_executeAll (onlyTakes_locate hc) s slice hcommands
    obtain ⟨_, k, hk⟩ := htakes (Machine.onBoard_of_clearJournal hs.symm hm)
    refine ⟨k, ?_⟩
    rw [hk, Machine.clearJournal_takeByte_iterate, hs, ← Machine.clearJournal_takeByte_iterate]
  · rintro hquiet m' ⟨s, slice, commands, hs, hcommands, rfl⟩
    have halone := related_executeAll (leavesAlone_locate hc) s slice hcommands
    rw [halone (Machine.onBoard_of_clearJournal hs.symm hm)
      (Machine.undisturbed_of_clearJournal hs.symm hquiet), hs]

/-- A machine with a page of memory. -/
def smallConfig : MachineConfig :=
  { MachineConfig.default with ramSize := 0x1000 }

/-- A program that makes the page of the UART the root of the page tables and goes to user level. -/
def uartTables : List Nat :=
  [0x00100513, 0x03F51513, 0x000105B7, 0x00B56533, 0x18051073, 0x30200073]

/-- A program that puts the divisor in the place of the data register. -/
def latchDivisor : List Nat :=
  [0x100002B7, 0x08000313, 0x006281A3]

/-- Such a program is loaded and run while a byte of input is waiting. -/
def runProgram (words : List Nat) : List HostOp :=
  [.load (words.flatMap (LittleEndian.toBytes 4)), .feed [0x78], .runFor words.length]

/-- A session with a machine that has run such a program. -/
def ranProgram (words : List Nat) : Session :=
  start ((Machine.ofConfig smallConfig).after (runProgram words))

lemma clearJournal_start (m : Machine) : (start m).machine.clearJournal = m.clearJournal := rfl

/-- Showing the doubleword at address zero loses the byte that software has not read yet. -/
theorem inspection_loses_input :
    (ranProgram uartTables).machine.uart.input = [0x78] ∧
    ((ranProgram uartTables).execute 0 (.memory ⟨[(.plus, .literal 0)]⟩ 1)).machine.uart.input =
      [] := by
  decide +kernel

/-- The walks of all these looks come to the UART, where input is waiting, but the divisor has taken
    the place of the data register. -/
theorem latched_inspection_takes_nothing :
    (ranProgram (latchDivisor ++ uartTables)).machine.uart.input = [0x78] ∧
    uartBase ∈ (ranProgram (latchDivisor ++ uartTables)).machine.board.hart.trail .load 0
      (ranProgram (latchDivisor ++ uartTables)).machine.board.bus ∧
    ((ranProgram (latchDivisor ++ uartTables)).executeAll 0
        [.registers none, .memory ⟨[(.plus, .literal 0)]⟩ 3, .list 2, .breakAt ⟨[(.plus, .pc)]⟩,
          .unbreak ⟨[(.plus, .pc)]⟩, .info none]).machine.clearJournal =
      (ranProgram (latchDivisor ++ uartTables)).machine.clearJournal := by
  have hnew := Machine.new_eq_ofConfig (c := smallConfig) (by decide +kernel)
  have hfits : smallConfig.DiskFits := fun bytes hbytes => by cases hbytes
  have hquiet : ((Machine.ofConfig smallConfig).after
      (runProgram (latchDivisor ++ uartTables))).Undisturbed := by
    left
    decide +kernel
  have hstart : (ranProgram (latchDivisor ++ uartTables)).machine.clearJournal =
      ((Machine.ofConfig smallConfig).after
        (runProgram (latchDivisor ++ uartTables))).clearJournal :=
    clearJournal_start _
  have htakes := inspection_takes_only_input hfits hnew (runProgram (latchDivisor ++ uartTables))
  refine ⟨by decide +kernel, by decide +kernel, ?_⟩
  rw [hstart]
  exact htakes.2.mpr hquiet _
    ⟨ranProgram (latchDivisor ++ uartTables), 0, _, hstart, by decide, rfl⟩

end Session

end Debugger

end Rv64Board
