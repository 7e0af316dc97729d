import Rv64Board.Proofs.AlignedReads

/-!
# The serial line loses no byte

The host and software use the two ends of the serial line at any time and in any order.  A byte from
the host waits in two queues, and moves from one to the other when software reads a register that
has nothing to do with it, or at a step of the device.  Software may switch the data register over
to the divisor, write to the control of the queues, or reset the device.  **None of this loses,
doubles or reorders a byte,** in either direction.

* `Uart.Op`, `Uart.after` — what can be done to a UART, and the UART after a row of such operations.
* `Uart.Traffic`, `Uart.traffic` — what has been put into the line and what has come out of it.
* `Uart.SameBytes` — most operations leave the bytes in transit alone.
* `input_apply`, `output_apply` — each operation keeps the balance of what comes in and what goes
  out, and so does a row of them (`input_after`, `output_after`).
-/

namespace Rv64Board.Uart

/-! ## Operations and traffic -/

/-- What the host, software and the board can do to a UART. -/
inductive Op
  | push (bytes : List UInt8)
  | pop
  | drain
  | read (offset : UInt64) (w : Width)
  | write (offset : UInt64) (w : Width) (value : UInt64)
  | tick (lines : Lines)
  | reset

def apply (u : Uart) : Op → Uart
  | .push bytes => u.push bytes
  | .pop => u.pop.2
  | .drain => u.drain.2
  | .read offset w => (u.read offset w).device
  | .write offset w value => (u.write offset w value).device
  | .tick lines => (u.tick lines).1
  | .reset => u.reset

/-- The UART after a row of operations. -/
def after (u : Uart) (ops : List Op) : Uart := ops.foldl apply u

/-- What has gone over the line, in order: the bytes that the host has pushed, the values that
    software has got for them, the bytes that software has sent, and those that the host was
    handed. -/
structure Traffic where
  pushed : List UInt8
  received : List UInt64
  sent : List UInt8
  handed : List UInt8

namespace Traffic

/-- Nothing at all. -/
def none : Traffic := ⟨[], [], [], []⟩

/-- First the one, then the other. -/
def append (s t : Traffic) : Traffic :=
  ⟨s.pushed ++ t.pushed, s.received ++ t.received, s.sent ++ t.sent, s.handed ++ t.handed⟩

end Traffic

/-- The traffic of one operation.  The data register takes part while it does not stand for the
    divisor: what is written to it is sent, and reading it gives a byte if one is there. -/
def exchange (u : Uart) : Op → Traffic
  | .push bytes => { Traffic.none with pushed := bytes }
  | .pop => { Traffic.none with handed := u.pop.1.toList }
  | .drain => { Traffic.none with handed := u.drain.1 }
  | .read offset w =>
    if offset = 0 ∧ u.divisorLatched = false ∧ u.input ≠ [] then
      { Traffic.none with received := [(u.read offset w).value] }
    else .none
  | .write offset _ value =>
    if offset = 0 ∧ u.divisorLatched = false then { Traffic.none with sent := [value.toUInt8] }
    else .none
  | .tick _ | .reset => .none

/-- The traffic of a row of operations. -/
def traffic (u : Uart) : List Op → Traffic
  | [] => .none
  | op :: ops => (u.exchange op).append ((u.apply op).traffic ops)

/-! ## Bytes in transit -/

/-- Two UARTs with the same bytes in transit; some may have moved on from the inbox to the queue. -/
structure SameBytes (u u' : Uart) : Prop where
  input : u'.input = u.input
  outbox : u'.outbox = u.outbox

namespace SameBytes

variable (u : Uart)

lemma refl : SameBytes u u := ⟨rfl, rfl⟩

lemma poll : SameBytes u u.poll := by
  rw [poll_eq]
  exact ⟨by simp [Uart.input], rfl⟩

lemma pollIfEnabled : SameBytes u u.pollIfEnabled := by
  rw [Uart.pollIfEnabled]
  split
  · exact poll u
  · exact refl u

lemma identify : SameBytes u u.identify.2 := by
  have hpolled := pollIfEnabled u
  simp only [Uart.identify]
  split
  · exact hpolled
  · split <;> exact ⟨hpolled.input, hpolled.outbox⟩

/-- Reading a register leaves the bytes alone, but for the data register. -/
lemma read {offset : UInt64} (h : ¬(offset = 0 ∧ u.divisorLatched = false)) (w : Width) :
    SameBytes u (u.read offset w).device := by
  rw [Uart.read]
  split
  · next value u' hread =>
    -- only three of the registers change anything, and two of them only look for input
    have hwhere : u' = u ∨ u' = u.identify.2 ∨ u' = u.lineStatus.2 := by
      simp only [Uart.readRegister] at hread
      grind
    rcases hwhere with rfl | rfl | rfl
    · exact refl _
    · exact identify u
    · exact poll u
  · exact refl u

/-- So does writing one, and nothing that is written touches the input. -/
lemma write {offset : UInt64} (h : ¬(offset = 0 ∧ u.divisorLatched = false)) (w : Width)
    (value : UInt64) : SameBytes u (u.write offset w value).device := by
  rw [Uart.write]
  split
  · next u' hwrite =>
    simp only [Uart.writeRegister] at hwrite
    constructor <;> grind [Uart.input, Uart.setInterrupts]
  · exact refl u

lemma tick (lines : Lines) : SameBytes u (u.tick lines).1 := by
  simp only [Uart.tick]
  split <;> exact pollIfEnabled u

end SameBytes

/-! ## The data register -/

variable {u : Uart} {w : Width}

lemma value_read_data (h : u.divisorLatched = false) {b : UInt8} {rest : List UInt8}
    (hinput : u.input = b :: rest) : (u.read 0 w).value = b.toUInt64 := by
  simp [read, readRegister, h, receive, poll_eq, hinput]

lemma outbox_read_data (u : Uart) (w : Width) : (u.read 0 w).device.outbox = u.outbox := by
  rw [read_data, takeByte]
  split
  · rfl
  · rw [receive_eq]

lemma write_data (h : u.divisorLatched = false) (value : UInt64) :
    (u.write 0 w value).device = u.transmit value.toUInt8 := by
  simp [write, writeRegister, h]

/-! ## The balance -/

/-- **What comes in from the host goes on to software, in order.** -/
lemma input_apply (u : Uart) (op : Op) :
    (u.input ++ (u.exchange op).pushed).map UInt8.toUInt64 =
      (u.exchange op).received ++ (u.apply op).input.map UInt8.toUInt64 := by
  cases op with
  | push bytes => simp [exchange, apply, push, input, Traffic.none]
  | pop =>
      simp only [exchange, apply, pop, Traffic.none]
      split <;> simp [input]
  | drain => simp [exchange, apply, drain, input, Traffic.none]
  | read offset w =>
      simp only [exchange, apply]
      by_cases hdata : offset = 0 ∧ u.divisorLatched = false
      · obtain ⟨rfl, hlatched⟩ := hdata
        rw [read_data, input_takeByte hlatched]
        cases hinput : u.input with
        | nil => simp [Traffic.none]
        | cons b rest => simp [hlatched, value_read_data hlatched hinput, Traffic.none]
      · rw [if_neg fun h => hdata ⟨h.1, h.2.1⟩, (SameBytes.read u hdata w).input]
        simp [Traffic.none]
  | write offset w value =>
      simp only [exchange, apply]
      by_cases hdata : offset = 0 ∧ u.divisorLatched = false
      · obtain ⟨rfl, hlatched⟩ := hdata
        simp [hlatched, write_data hlatched, transmit, input, Traffic.none]
      · rw [if_neg hdata, (SameBytes.write u hdata w value).input]
        simp [Traffic.none]
  | tick lines =>
      simp only [exchange, apply]
      rw [(SameBytes.tick u lines).input]
      simp [Traffic.none]
  | reset => simp [exchange, apply, reset, input, Traffic.none]

/-- **What software sends goes on to the host, in order.** -/
lemma output_apply (u : Uart) (op : Op) :
    u.outbox.reverse ++ (u.exchange op).sent =
      (u.exchange op).handed ++ (u.apply op).outbox.reverse := by
  cases op with
  | push bytes => simp [exchange, apply, push, Traffic.none]
  | pop =>
      simp only [exchange, apply, pop, Traffic.none]
      split
      · next hempty => simp
      · next b hlast =>
        obtain ⟨front, hout⟩ := List.getLast?_eq_some_iff.mp hlast
        simp [hout]
  | drain => simp [exchange, apply, drain, Traffic.none]
  | read offset w =>
      simp only [exchange, apply]
      by_cases hdata : offset = 0 ∧ u.divisorLatched = false
      · obtain ⟨rfl, hlatched⟩ := hdata
        rw [outbox_read_data]
        split <;> simp [Traffic.none]
      · rw [if_neg fun h => hdata ⟨h.1, h.2.1⟩, (SameBytes.read u hdata w).outbox]
        simp [Traffic.none]
  | write offset w value =>
      simp only [exchange, apply]
      by_cases hdata : offset = 0 ∧ u.divisorLatched = false
      · obtain ⟨rfl, hlatched⟩ := hdata
        simp [hlatched, write_data hlatched, transmit, Traffic.none]
      · rw [if_neg hdata, (SameBytes.write u hdata w value).outbox]
        simp [Traffic.none]
  | tick lines =>
      simp only [exchange, apply]
      rw [(SameBytes.tick u lines).outbox]
      simp [Traffic.none]
  | reset => simp [exchange, apply, reset, Traffic.none]

/-- The balance of the input over a row of operations. -/
lemma input_after (u : Uart) (ops : List Op) :
    (u.input ++ (u.traffic ops).pushed).map UInt8.toUInt64 =
      (u.traffic ops).received ++ (u.after ops).input.map UInt8.toUInt64 := by
  induction ops generalizing u with
  | nil => simp [traffic, after, Traffic.none]
  | cons op ops ih =>
      have hfirst := input_apply u op
      have hrest := ih (u.apply op)
      simp only [traffic, Traffic.append, List.map_append, after, List.foldl_cons] at hfirst hrest ⊢
      rw [← List.append_assoc, hfirst, List.append_assoc, hrest, List.append_assoc]

/-- The balance of the output. -/
lemma output_after (u : Uart) (ops : List Op) :
    u.outbox.reverse ++ (u.traffic ops).sent =
      (u.traffic ops).handed ++ (u.after ops).outbox.reverse := by
  induction ops generalizing u with
  | nil => simp [traffic, after, Traffic.none]
  | cons op ops ih =>
      have hfirst := output_apply u op
      have hrest := ih (u.apply op)
      simp only [traffic, Traffic.append, after, List.foldl_cons] at hfirst hrest ⊢
      rw [← List.append_assoc, hfirst, List.append_assoc, hrest, List.append_assoc]

/-- The line status tells whether there is input. -/
lemma lineStatus_ready (u : Uart) (w : Width) : (u.read 5 w).value &&& 1 = 1 ↔ u.input ≠ [] := by
  have hvalue : (u.read 5 w).value = (if u.poll.hasData then 0x61 else 0x60 : UInt8).toUInt64 := by
    simp [read, readRegister, lineStatus]
  rw [hvalue, poll_eq]
  cases u.input with
  | nil => exact iff_of_false (show ¬(0x60 : UInt8).toUInt64 &&& 1 = 1 by decide) (by simp)
  | cons b rest => exact iff_of_true (show (0x61 : UInt8).toUInt64 &&& 1 = 1 by decide) (by simp)

/-- **The serial line loses no byte, doubles none and reorders none.**  After any operations on a
    new UART, the bytes that the host has pushed are the values that software has got, then the
    bytes in the queue of the device, then those that it has not looked at yet; the line status
    tells that a byte is there exactly if software has got fewer bytes than were pushed; and what
    the host was handed, then what waits for it, are the bytes that software has sent. -/
theorem serial_line_lossless (ops : List Op) :
    (new.traffic ops).pushed.map UInt8.toUInt64 =
      (new.traffic ops).received ++ (new.after ops).fifo.map UInt8.toUInt64 ++
        (new.after ops).inbox.map UInt8.toUInt64 ∧
    (∀ w, ((new.after ops).read 5 w).value &&& 1 = 1 ↔
      (new.traffic ops).received.length < (new.traffic ops).pushed.length) ∧
    (new.traffic ops).handed ++ (new.after ops).outbox.reverse = (new.traffic ops).sent := by
  have hinput := input_after new ops
  rw [show new.input = [] from rfl, List.nil_append] at hinput
  refine ⟨?_, fun w => ?_, (output_after new ops).symm⟩
  · rw [hinput, input, List.map_append, List.append_assoc]
  · have hcount := congrArg List.length hinput
    simp only [List.length_map, List.length_append] at hcount
    rw [lineStatus_ready, ← List.length_pos_iff]
    omega

end Rv64Board.Uart
