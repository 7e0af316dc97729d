import Rv64Board.Proofs.Inspection
import Rv64Board.Proofs.StandardBoard

/-!
# What reading page tables does to the devices

Page tables are read in aligned doublewords.  Of all registers on the board that change because they
are read, only one stands at a multiple of eight: the data register of the UART.  So a walk leaves
everything as it was, except that it may take bytes of the input.

* `Bus.takeByte` — the bus after the data register has been read.
* `Bus.read_aligned` — **an aligned read changes nothing else.**
* `Paging.trail`, `Hart.trail` — the entries that a walk reads, in order.
* `Hart.forget_inspect` — a look takes a byte each time that its walk comes to the data register.
-/

namespace Rv64Board

/-! ## The data register -/

namespace Uart

/-- The UART after its data register has been read. -/
def takeByte (u : Uart) : Uart :=
  if u.divisorLatched then u else u.receive.2

lemma receive_eq (u : Uart) : u.receive.2 = { u with inbox := [], fifo := u.input.tail } := by
  rw [receive, poll_eq]
  cases h : u.input with
  | nil => rfl
  | cons b rest => rfl

lemma takeByte_of_latched {u : Uart} (h : u.divisorLatched = true) : u.takeByte = u := by
  rw [takeByte, if_pos h]

lemma takeByte_of_input {u : Uart} (h : u.input = []) : u.takeByte = u := by
  obtain ⟨hfifo, hinbox⟩ := List.append_eq_nil_iff.mp h
  rw [takeByte, receive_eq, h]
  obtain ⟨inbox, fifo, outbox, transmitted, ier, lcr, mcr, scr, divisor⟩ := u
  cases hfifo
  cases hinbox
  exact ite_self _

lemma read_data (u : Uart) (w : Width) : (u.read 0 w).device = u.takeByte := by
  simp only [read, readRegister, takeByte, if_true]
  split <;> split <;> simp_all

lemma latched_takeByte (u : Uart) : u.takeByte.divisorLatched = u.divisorLatched := by
  rw [takeByte]
  split
  · rfl
  · rw [receive_eq]
    rfl

/-- A byte is taken from the front. -/
lemma input_takeByte {u : Uart} (h : u.divisorLatched = false) :
    u.takeByte.input = u.input.tail := by
  rw [takeByte, h, if_neg (by decide), receive_eq]
  simp [input]

lemma input_takeByte_iterate {u : Uart} (h : u.divisorLatched = false) (k : Nat) :
    (takeByte^[k] u).input = u.input.drop k := by
  induction k generalizing u with
  | zero => rfl
  | succ k ih =>
      rw [Function.iterate_succ_apply, ih ((latched_takeByte u).trans h), input_takeByte h,
        List.drop_tail]

end Uart

/-! ## Devices -/

namespace Plic

lemma locateEnable_ne_claim (distance : UInt64) (c : Fin 2) : locateEnable distance ≠ .claim c := by
  rw [locateEnable]
  split
  · split <;> exact Location.noConfusion
  · exact Location.noConfusion

lemma locateContext_ne_claim {distance : UInt64} (h : distance.toNat % 8 = 0) (c : Fin 2) :
    locateContext distance ≠ .claim c := by
  have hnot : ¬distance % 0x1000 = 4 := by
    intro heq
    have hnat := congrArg UInt64.toNat heq
    rw [UInt64.toNat_mod] at hnat
    simp only [UInt64.reduceToNat] at hnat
    omega
  rw [locateContext]
  split
  · split <;> exact Location.noConfusion
  · exact Location.noConfusion

/-- The claim registers stand at odd words. -/
lemma locate_ne_claim {offset : UInt64} (h : offset.toNat % 8 = 0) (c : Fin 2) :
    locate offset ≠ .claim c := by
  have hdistance : (offset - 0x200000).toNat % 8 = 0 := by
    rw [UInt64.toNat_sub]
    simp only [UInt64.reduceToNat]
    omega
  rw [locate]
  split
  · exact Location.noConfusion
  · split
    · exact Location.noConfusion
    · split
      · exact locateEnable_ne_claim _ c
      · split
        · exact locateContext_ne_claim hdistance c
        · exact Location.noConfusion

lemma read_aligned (p : Plic) {offset : UInt64} (w : Width) (h : offset.toNat % 8 = 0) :
    (p.read offset w).device = p := by
  rw [read]
  split
  case h_6 c hlocate => exact absurd hlocate (locate_ne_claim h c)
  all_goals rfl

end Plic

namespace Device

/-- An aligned read changes a device only if it is the UART, read at its data register. -/
lemma read_aligned (d : Device) {offset : UInt64} (h : offset.toNat % 8 = 0)
    (hdata : ∀ u, d = .uart u → offset ≠ 0) : (d.read offset .double).device = d := by
  cases d with
  | finisher d => rfl
  | clint d =>
      simp only [read, Clint.read]
      split <;> rfl
  | plic d => exact congrArg Device.plic (Plic.read_aligned d .double h)
  | uart u =>
      have hnone : u.readRegister offset = none := by
        have hfar : 8 ≤ offset.toNat := by
          have hne : offset.toNat ≠ 0 := fun h0 => hdata u rfl (UInt64.toNat_inj.mp h0)
          omega
        have hne {k : UInt64} (hk : k.toNat < 8) : offset ≠ k := by
          rintro rfl
          omega
        rw [Uart.readRegister]
        iterate 8 rw [if_neg (hne ?_)]
        all_goals decide
      simp only [read, Uart.read, hnone]
  | virtio d =>
      simp only [read, VirtioBlock.read]
      split
      · rfl
      · split <;> rfl

end Device

lemma Device.home_mod (d : Device) : d.home.toNat % 8 = 0 := by
  cases d <;> simp only [home] <;> decide

/-! ## The bus -/

/-- The memory of a description leaves room for the UART. -/
def MachineConfig.Apart (c : MachineConfig) : Prop :=
  (Memory.zeroed c.ramBase c.ramSize).contains uartBase 8 = false

/-- A machine is not built with memory where the UART is. -/
lemma MachineConfig.apart_of_new {c : MachineConfig} {m : Machine} (h : Machine.new c = .ok m) :
    c.Apart := by
  obtain ⟨_, b₀, hram, hfree⟩ := bus_eq_ok (Machine.new_eq_ok h).2
  have hend := Machine.room_of_new h
  have hclear : ¬(uartBase < c.ramBase + c.ramSize ∧ c.ramBase < uartBase + uartSize) := by
    intro hin
    simp only [Bus.overlapped?, hram, Memory.zeroed, hin, and_self, if_true] at hfree
    cases hfree
  refine Bool.eq_false_iff.mpr fun hcontains => hclear ?_
  obtain ⟨hbelow, hroom⟩ := (Sv39.contains_iff _ _ _).mp hcontains
  have hbase : (Memory.zeroed c.ramBase c.ramSize).base = c.ramBase := rfl
  have hsize : (Memory.zeroed c.ramBase c.ramSize).size = c.ramSize := rfl
  have huart : uartBase.toNat = 0x10000000 := by decide
  have hlimit : (uartBase + uartSize).toNat = 0x10000100 := by decide
  have hsum : (c.ramBase + c.ramSize).toNat = c.ramBase.toNat + c.ramSize.toNat := by
    rw [UInt64.toNat_add]
    exact Nat.mod_eq_of_lt hend
  rw [hbase, huart] at hbelow
  rw [hbase, hsize, huart] at hroom
  constructor
  · rw [UInt64.lt_iff_toNat_lt, hsum, huart]
    omega
  · rw [UInt64.lt_iff_toNat_lt, hlimit]
    omega

namespace Bus

/-- The bus without its notices. -/
def forget (b : Bus) : Bus :=
  { b with journal := [] }

/-- The bus after the data register of the UART has been read. -/
def takeByte (b : Bus) : Bus :=
  b.setDevice uartBase (.uart b.uart.takeByte)

lemma forget_takeByte_iterate (k : Nat) (b : Bus) :
    (takeByte^[k] b).forget = takeByte^[k] b.forget := by
  induction k generalizing b with
  | zero => rfl
  | succ k ih => exact ih b.takeByte

variable {c : MachineConfig} {d : Devices} {b : Bus}

/-- A device put where it was. -/
lemma Standard.setDevice_self (hb : b.Standard c d) {r : Region} (hr : r ∈ b.regions) :
    b.setDevice r.base r.device = b := by
  have hput : d.put r.device = d := by
    rw [hb.regions] at hr
    simp only [Devices.regions, List.mem_cons, List.not_mem_nil, or_false] at hr
    rcases hr with rfl | rfl | rfl | rfl | rfl <;> rfl
  obtain ⟨hbase, hsound⟩ := hb.home_of_mem hr
  have hregions := (hb.put hbase hsound).regions
  rw [hput, ← hb.regions] at hregions
  simp only [setDevice] at hregions ⊢
  rw [hregions]

lemma Standard.takeByte_of_eq (hb : b.Standard c d) (h : d.uart.takeByte = d.uart) :
    b.takeByte = b := by
  rw [takeByte, hb.uart_eq, h]
  refine hb.setDevice_self (r := ⟨"uart", uartBase, uartBase + uartSize, .uart d.uart⟩) ?_
  rw [hb.regions]
  simp [Devices.regions]

/-- **An aligned read changes nothing,** unless it is of the data register. -/
lemma read_aligned (hc : c.Apart) (hb : b.OnBoard c) {address : UInt64}
    (haligned : address.toNat % 8 = 0) :
    (finalState (read address .double b)).forget =
      if address = uartBase then b.takeByte.forget else b.forget := by
  obtain ⟨d, hb⟩ := hb
  split
  · next hdata =>
    subst hdata
    have hram : b.ram.contains uartBase Width.double.bytes = false := by
      rw [← hc]
      simp only [Memory.contains, Memory.zeroed, hb.base, hb.size]
      rfl
    have hregion : b.region? uartBase Width.double.bytes =
        some ⟨"uart", uartBase, uartBase + uartSize, .uart d.uart⟩ := by
      simp only [region?, hb.regions]
      rfl
    simp only [read, hram, hregion, Device.read]
    rw [takeByte, hb.uart_eq, ← Uart.read_data d.uart .double]
    rfl
  · next hother =>
    rw [read]
    split
    · rfl
    · split
      · rfl
      · next r hr =>
        have hmem := mem_of_region? hr
        obtain ⟨hbase, _⟩ := hb.home_of_mem hmem
        have hoffset : (address - r.base).toNat % 8 = 0 := by
          have hmod := r.device.home_mod
          rw [← hbase] at hmod
          have hlt := r.base.toNat_lt
          rw [UInt64.toNat_sub]
          omega
        have hsame : (r.device.read (address - r.base) .double).device = r.device := by
          refine r.device.read_aligned hoffset fun u hu hzero => hother ?_
          rw [hu] at hbase
          rw [UInt64.sub_eq_iff_eq_add.mp hzero, UInt64.zero_add, hbase]
          rfl
        simp only [hsame]
        rw [hb.setDevice_self hmem]
        rfl

/-- What is read does not depend on the notices. -/
lemma read_of_forget {b' : Bus} (h : b.forget = b'.forget) (address : UInt64) (w : Width) :
    (∃ v t t', read address w b = .ok v t ∧ read address w b' = .ok v t' ∧ t.forget = t'.forget) ∨
    (∃ e, read address w b = .error e b ∧ read address w b' = .error e b') := by
  obtain ⟨ram, regions, journal⟩ := b
  obtain ⟨ram', regions', journal'⟩ := b'
  simp only [forget, mk.injEq, and_true] at h
  obtain ⟨rfl, rfl⟩ := h
  simp only [read, region?]
  split
  · exact Or.inl ⟨_, _, _, rfl, rfl, rfl⟩
  · split
    · exact Or.inr ⟨_, rfl, rfl⟩
    · exact Or.inl ⟨_, _, _, rfl, rfl, rfl⟩

end Bus

/-! ## Walks -/

namespace Paging

/-- The entries that a walk reads, in order. -/
def trail (address : UInt64) : Nat → UInt64 → Bus → List UInt64
  | 0, _, _ => []
  | depth + 1, table, b =>
    let entry := table + index address depth * 8
    match Bus.read entry .double b with
    | .error _ _ => [entry]
    | .ok bits b' =>
      let pte : Pte := ⟨bits⟩
      if pte.malformed || pte.isLeaf then [entry]
      else entry :: trail address depth (pte.page * 0x1000) b'

lemma trail_of_forget {b b' : Bus} (h : b.forget = b'.forget) (address : UInt64) (depth : Nat)
    (table : UInt64) : trail address depth table b = trail address depth table b' := by
  induction depth generalizing table b b' with
  | zero => rfl
  | succ depth ih =>
      simp only [trail]
      rcases Bus.read_of_forget h (table + index address depth * 8) .double with
        ⟨v, t, t', hr, hr', ht⟩ | ⟨e, hr, hr'⟩
      · simp only [hr, hr', ih ht]
      · simp only [hr, hr']

/-- **A walk takes a byte each time that it comes to the data register,** and changes nothing else.
    The tables start at multiples of a page, so that all entries are aligned. -/
lemma forget_locate {c : MachineConfig} (hc : c.Apart) (access : Access) (address : UInt64)
    (depth : Nat) (page : UInt64) {b : Bus} (hb : b.OnBoard c) :
    (finalState (locate access address depth (page * 0x1000) b)).forget =
      (Bus.takeByte^[(trail address depth (page * 0x1000) b).count uartBase] b).forget := by
  induction depth generalizing page b with
  | zero => rfl
  | succ depth ih =>
      have hkept := (Bus.kept_onBoard c).read (page * 0x1000 + index address depth * 8) .double b hb
      have hread := Bus.read_aligned hc hb (toNat_entry_mod page address depth)
      simp only [trail, locate]
      generalize page * 0x1000 + index address depth * 8 = entry at *
      have hone : (finalState (Bus.read entry .double b)).forget =
          (Bus.takeByte^[[entry].count uartBase] b).forget := by
        rw [hread, List.count_singleton]
        by_cases hdata : entry = uartBase <;> simp [hdata]
      cases hrun : Bus.read entry .double b with
      | error e t =>
          rw [hrun] at hone
          rwa [bind_run_error (adaptExcept_eq_error.mpr ⟨e, rfl, hrun⟩)]
      | ok bits t =>
          rw [hrun] at hone hkept
          rw [bind_run_ok (adaptExcept_eq_ok.mpr hrun)]
          cases hmalformed : Pte.malformed ⟨bits⟩ with
          | true =>
              simp only [hmalformed, Bool.true_or, if_true]
              exact hone
          | false =>
              cases hleaf : Pte.isLeaf ⟨bits⟩ with
              | true =>
                  simp only [hmalformed, hleaf, Bool.or_true, if_true]
                  exact hone
              | false =>
                  -- the bytes taken further down come after the one taken here
                  have hrest := ih (Pte.page ⟨bits⟩) hkept
                  rw [Bus.forget_takeByte_iterate, finalState_ok] at hrest hone
                  simp only [hmalformed, hleaf, Bool.or_self, Bool.false_eq_true, if_false,
                    Bool.not_false, if_true]
                  rw [hrest, hone, ← Function.iterate_add_apply, ← Bus.forget_takeByte_iterate,
                    Nat.add_comm, ← List.count_append]
                  rfl

end Paging

namespace Hart

/-- The entries that the walk of an address reads, in order; none if there is no walk. -/
def trail (h : Hart) (access : Access) (address : UInt64) (b : Bus) : List UInt64 :=
  if h.Paged access ∧ Paging.canonical address = true then
    Paging.trail address 3 (h.csrs.rootPage * 0x1000) b
  else []

lemma trail_of_forget {b b' : Bus} (hb : b.forget = b'.forget) (h : Hart) (access : Access)
    (address : UInt64) : h.trail access address b = h.trail access address b' := by
  rw [trail, trail, Paging.trail_of_forget hb]

/-- Loads and stores take the same way. -/
lemma trail_store (h : Hart) (address : UInt64) (b : Bus) :
    h.trail .store address b = h.trail .load address b := by
  simp [trail, Paged, effectiveLevel]

/-- **A look takes a byte each time that its walk comes to the data register,** and changes nothing
    else. -/
lemma forget_inspect {c : MachineConfig} (hc : c.Apart) (h : Hart) (access : Access)
    (address : UInt64) {b : Bus} (hb : b.OnBoard c) :
    (finalState (h.inspect access address b)).forget =
      (Bus.takeByte^[(h.trail access address b).count uartBase] b).forget := by
  rw [inspect, trail]
  by_cases hpaged : h.Paged access
  · rw [physicalAddress_of_paged hpaged]
    cases hcanon : Paging.canonical address with
    | false =>
        simp only [Bool.false_eq_true, and_false, if_false]
        rfl
    | true =>
        have hwalk := Paging.forget_locate hc access address 3 h.csrs.rootPage hb
        simp only [hpaged, if_true, and_self]
        rw [← hwalk]
        cases hrun : Paging.locate access address 3 (h.csrs.rootPage * 0x1000) b with
        | error e t =>
            rw [bind_run_error hrun]
            rfl
        | ok leaf t =>
            -- the verdict leaves no marks
            rw [bind_run_ok hrun, settle_false]
            split <;> rfl
  · rw [physicalAddress_of_not_paged hpaged, if_neg fun hwalk => hpaged hwalk.1]
    rfl

end Hart

end Rv64Board
