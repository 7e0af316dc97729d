import Rv64Board.Proofs.TrapStack

/-!
# Writes to control and status registers settle at once and stay local

Registers are views of a smaller number of stored words, some of them through masks that are
registers themselves.  What is kept of a written value depends on the view, so two questions are
open: whether the value that is then read would be kept as it is, and which other registers show the
difference.

* `CsrFile.stored` — the words of the file, each by the register that holds all of it.
* `Csr.Register.target?` — the word that a write to a register changes.
* `Csr.Register.shownBy` — the registers whose values depend on a word.
* `stored_writeRegister`, `readRegister_congr` — **these are all.**
* `Csr.dependents` — the registers that a write changes besides its own.
* `settled_writeRegister` — a value that was read after a write is kept as it is.
* `writes_settle_and_stay_local` — for every number of a register.
-/

namespace Rv64Board

/-! ## Words behind registers -/

namespace Csr.Register

/-- The word that a write to a register changes, by the register that holds all of it. -/
def target? : Register → Option Register
  | .sstatus => some .mstatus
  | .sie => some .mie
  | .sip => some .mip
  | .misa | .cycle | .time | .instret => none
  | .mvendorid | .marchid | .mimpid | .mhartid | .mconfigptr => none
  | .member .mhpmevent _ | .member .mhpmcounter _ | .member .hpmcounter _ => none
  | r => some r

/-- The registers that show a word, or whose value is masked or switched by it. -/
def shownBy : Register → List Register
  | .mstatus => [.mstatus, .sstatus]
  | .mie => [.mie, .sie]
  | .mip => [.mip, .sip]
  | .mideleg => [.mideleg, .sie, .sip]
  | .menvcfg => [.menvcfg, .mip, .sip]
  | .stimecmp => [.stimecmp, .mip, .sip]
  | .time => [.time, .mip, .sip]
  | .mcycle => [.mcycle, .cycle]
  | .minstret => [.minstret, .instret]
  | r => [r]

/-- The registers that a write to a register can change besides it. -/
def dependents : Register → List Register
  | .mstatus => [.sstatus]
  | .sstatus => [.mstatus]
  | .mie => [.sie]
  | .sie => [.mie]
  | .mip => [.sip]
  | .sip => [.mip]
  | .mideleg => [.sie, .sip]
  | .menvcfg | .stimecmp => [.mip, .sip]
  | .mcycle => [.cycle]
  | .minstret => [.instret]
  | _ => []

lemma mem_shownBy_self (r : Register) : r ∈ r.shownBy := by
  cases r <;> exact List.mem_cons_self

/-- A register that shows the target of a write is the one written to or one of its dependents. -/
lemma eq_or_mem_dependents {r c s : Register} (hc : r.target? = some c) (hs : s ∈ c.shownBy) :
    s = r ∨ s ∈ r.dependents := by
  cases r with
  | member family i =>
      cases family <;> cases hc <;> exact Or.inl (List.mem_singleton.mp hs)
  | _ =>
      cases hc <;> simpa [shownBy, dependents, or_comm] using hs

end Csr.Register

namespace CsrFile

open Csr (Register)

variable (f : CsrFile)

/-- The stored words of a family.  Counters and their events have none. -/
def storedMember : (family : Csr.Family) → Fin family.count → UInt64
  | .pmpcfg, i => f.pmpcfg.get i
  | .pmpaddr, i => f.pmpaddr.get i
  | .mhpmevent, _ | .mhpmcounter, _ | .hpmcounter, _ => 0

/-- The stored words, by the register that holds all of one.  Other registers have none. -/
def stored : Register → UInt64
  | .mstatus => f.mstatus.bits
  | .medeleg => f.medeleg
  | .mideleg => f.mideleg
  | .mie => f.mie
  | .mip => f.mip
  | .mtvec => f.mtvec
  | .stvec => f.stvec
  | .mepc => f.mepc
  | .sepc => f.sepc
  | .mcause => f.mcause
  | .scause => f.scause
  | .mtval => f.mtval
  | .stval => f.stval
  | .mscratch => f.mscratch
  | .sscratch => f.sscratch
  | .mcounteren => f.mcounteren
  | .scounteren => f.scounteren
  | .mcountinhibit => f.mcountinhibit
  | .menvcfg => f.menvcfg
  | .senvcfg => f.senvcfg
  | .satp => f.satp
  | .stimecmp => f.stimecmp
  | .mcycle => f.mcycle
  | .minstret => f.minstret
  | .time => f.time
  | .member family i => f.storedMember family i
  | _ => 0

/-- **A write changes no word but its target.** -/
lemma stored_writeRegister {r c : Register} (hc : r.target? ≠ some c) (value : UInt64) :
    (f.writeRegister r value).stored c = f.stored c := by
  cases r with
  | misa | cycle | time | instret | mvendorid | marchid | mimpid | mhartid | mconfigptr => rfl
  | satp =>
      simp only [writeRegister]
      split
      · cases c <;> first | rfl | exact absurd rfl hc
      · rfl
  | member family i =>
      cases family with
      | mhpmevent | mhpmcounter | hpmcounter => rfl
      | pmpcfg =>
          cases c with
          | member family' j =>
              cases family' with
              | pmpcfg =>
                  have hne : i.val ≠ j.val := fun h => hc (by rw [Fin.ext h]; rfl)
                  exact Vector.getElem_set_ne i.isLt j.isLt hne
              | _ => rfl
          | _ => rfl
      | pmpaddr =>
          cases c with
          | member family' j =>
              cases family' with
              | pmpaddr =>
                  have hne : i.val ≠ j.val := fun h => hc (by rw [Fin.ext h]; rfl)
                  exact Vector.getElem_set_ne i.isLt j.isLt hne
              | _ => rfl
          | _ => rfl
  | _ => cases c <;> first | rfl | exact absurd rfl hc

lemma hardwareMip_writeRegister (r : Register) (value : UInt64) :
    (f.writeRegister r value).hardwareMip = f.hardwareMip := by
  cases r with
  | satp =>
      simp only [writeRegister]
      split <;> rfl
  | member family i => cases family <;> rfl
  | _ => rfl

lemma pending_congr {f g : CsrFile} (hlines : g.hardwareMip = f.hardwareMip) (hmip : g.mip = f.mip)
    (henable : g.menvcfg = f.menvcfg) (hcomparator : g.stimecmp = f.stimecmp)
    (htime : g.time = f.time) : g.pending = f.pending := by
  rw [pending, pending, timerReached, timerReached, hlines, hmip, henable, hcomparator, htime]

/-- **A register shows no word but those that list it.** -/
lemma readRegister_congr {f g : CsrFile} {s : Register} (hlines : g.hardwareMip = f.hardwareMip)
    (h : ∀ c : Register, s ∈ c.shownBy → g.stored c = f.stored c) :
    g.readRegister s = f.readRegister s := by
  have hown : g.stored s = f.stored s := h s s.mem_shownBy_self
  cases s with
  | sstatus =>
      have hstatus : g.mstatus.bits = f.mstatus.bits := h .mstatus (by decide)
      rw [readRegister, hstatus, readRegister]
  | sie =>
      have henabled : g.mie = f.mie := h .mie (by decide)
      have hdelegated : g.mideleg = f.mideleg := h .mideleg (by decide)
      rw [readRegister, henabled, hdelegated, readRegister]
  | mip =>
      exact pending_congr hlines (h .mip (by decide)) (h .menvcfg (by decide))
        (h .stimecmp (by decide)) (h .time (by decide))
  | sip =>
      have hpending : g.pending = f.pending :=
        pending_congr hlines (h .mip (by decide)) (h .menvcfg (by decide))
          (h .stimecmp (by decide)) (h .time (by decide))
      have hdelegated : g.mideleg = f.mideleg := h .mideleg (by decide)
      rw [readRegister, hpending, hdelegated, readRegister]
  | cycle => exact h .mcycle (by decide)
  | instret => exact h .minstret (by decide)
  | misa | mvendorid | marchid | mimpid | mhartid | mconfigptr => rfl
  | member family i => cases family <;> exact hown
  | _ => exact hown

/-! ## Writing back what is read -/

lemma merged_eq_self {old mask value : UInt64} (h : value &&& mask = old &&& mask) :
    merged old mask value = old := by
  rw [merged, h, ← UInt64.toBitVec_inj]
  refine BitVec.eq_of_getElem_eq fun i hi => ?_
  cases hmask : mask.toBitVec[i] <;> simp [hmask]

lemma or_and_of_apart {x y mask : UInt64} (h : y &&& mask = 0) :
    (x ||| y) &&& mask = x &&& mask := by
  rw [← UInt64.toBitVec_inj] at h ⊢
  refine BitVec.eq_of_getElem_eq fun i hi => ?_
  have hbit := congrArg (fun v => v[i]) h
  cases hmask : mask.toBitVec[i] with
  | false => simp [hmask]
  | true =>
      have hoff : y.toBitVec[i] = false := by simpa [hmask] using hbit
      simp [hoff]

lemma masked_masked (value mask : UInt64) : value &&& mask &&& mask = value &&& mask := by
  rw [UInt64.and_assoc, UInt64.and_self]

lemma set_again {n i : Nat} {words : Vector UInt64 n} {hi : i < n} {x y : UInt64} (h : y = x) :
    (words.set i x hi).set i y hi = words.set i x hi := by
  rw [h, Vector.set_set]

/-- Whatever was written and whatever there was, the stacked level is one that the hart has. -/
lemma mpp_mstatusWritten (s : Mstatus) (value : UInt64) :
    (mstatusWritten s value).bits >>> 11 &&& 3 ≠ 2 := by
  have hfield (x : UInt64) : x >>> 11 &&& 3 = (x &&& Mstatus.mppMask) >>> (11 : UInt64) := by
    rw [UInt64.shiftRight_and]
    rfl
  rw [hfield, mstatusWritten]
  split
  · rw [Mstatus.setMpp_eq_merge, Mstatus.and_merge_self]
    cases s.mpp <;> decide
  · next hvalue =>
    rwa [Mstatus.merge_and s value (by decide : Within Mstatus.writable Mstatus.mppMask), ← hfield]

lemma mstatusWritten_settled (s : Mstatus) (value : UInt64) :
    mstatusWritten (mstatusWritten s value) (mstatusWritten s value).bits =
      mstatusWritten s value := by
  generalize hs' : mstatusWritten s value = s'
  have hmpp : s'.bits >>> 11 &&& 3 ≠ 2 := hs' ▸ mpp_mstatusWritten s value
  rw [mstatusWritten, if_neg hmpp]
  exact congrArg Mstatus.mk (merged_eq_self rfl)

/-- The software interrupt of the supervisor is pending only if software made it so, as long as no
    device drives its line: the comparator is another interrupt. -/
lemma pending_and_software (hlines : f.hardwareMip &&& Interrupt.supervisorSoftware.mask = 0) :
    f.pending &&& Interrupt.supervisorSoftware.mask =
      f.mip &&& Interrupt.supervisorSoftware.mask := by
  have htimer : (if f.timerReached then Interrupt.supervisorTimer.mask else 0) &&&
      Interrupt.supervisorSoftware.mask = 0 := by
    split <;> decide
  rw [pending, or_and_of_apart htimer, or_and_of_apart hlines]

/-- So what `sip` shows of it is what software may change there. -/
lemma software_of_delegated (hlines : f.hardwareMip &&& Interrupt.supervisorSoftware.mask = 0) :
    f.pending &&& f.mideleg &&& (f.mideleg &&& Interrupt.supervisorSoftware.mask) =
      f.mip &&& (f.mideleg &&& Interrupt.supervisorSoftware.mask) := by
  rw [← UInt64.and_assoc, masked_masked, UInt64.and_assoc, UInt64.and_comm f.mideleg,
    ← UInt64.and_assoc, pending_and_software f hlines, UInt64.and_assoc]

/-- **A value that was read after a write is kept as it is.** -/
lemma settled_writeRegister (hlines : f.hardwareMip &&& Interrupt.supervisorSoftware.mask = 0)
    {r : Register} (hr : r ≠ .mip) (value : UInt64) :
    (f.writeRegister r value).writeRegister r ((f.writeRegister r value).readRegister r) =
      f.writeRegister r value := by
  cases r with
  | mip => exact absurd rfl hr
  | sstatus =>
      -- all that can be written is visible
      refine congrArg (fun s => { f with mstatus := s }) (congrArg Mstatus.mk (merged_eq_self ?_))
      exact UInt64.and_assoc ..
  | mstatus => exact congrArg (fun s => { f with mstatus := s }) (mstatusWritten_settled _ value)
  | sie => exact congrArg (fun x => { f with mie := x }) (merged_eq_self (masked_masked _ _))
  | sip =>
      refine congrArg (fun x => { f with mip := x }) (merged_eq_self ?_)
      exact software_of_delegated (f.writeRegister .sip value) hlines
  | satp =>
      simp only [writeRegister]
      split
      · next hmode => simp only [readRegister, hmode, if_true]
      · exact ite_self f
  | medeleg | mideleg | mie | mtvec | stvec | mepc | sepc | mcounteren | scounteren | mcountinhibit
  | menvcfg | senvcfg => simp only [writeRegister, readRegister, masked_masked]
  | member family i =>
      cases family with
      | pmpcfg =>
          refine congrArg (fun words => { f with pmpcfg := words }) (set_again ?_)
          exact Vector.getElem_set_self i.isLt
      | pmpaddr =>
          refine congrArg (fun words => { f with pmpaddr := words }) (set_again ?_)
          have hread : (f.pmpaddr.set i.val (value &&& 0x3FFFFFFFFFFFFF) i.isLt).get i = _ :=
            Vector.getElem_set_self i.isLt
          exact (congrArg (· &&& 0x3FFFFFFFFFFFFF) hread).trans (masked_masked _ _)
      | mhpmevent | mhpmcounter | hpmcounter => rfl
  | _ => rfl

end CsrFile

/-! ## By number -/

/-- The numbers of the registers that a write to a number can change besides it. -/
def Csr.dependents (a : Csr) : List Csr :=
  match a.register? with
  | some r => r.dependents.map Register.csr
  | none => []

namespace CsrFile

open Csr (Register)

lemma settled_write {f : CsrFile} (hlines : f.hardwareMip &&& Interrupt.supervisorSoftware.mask = 0)
    {a : Csr} (ha : a ≠ Register.mip.csr) (value : UInt64) :
    (f.write a value).write a ((f.write a value).read a) = f.write a value := by
  cases hr : a.register? with
  | none => simp only [write, hr]
  | some r =>
      have hmip : r ≠ .mip := by
        rintro rfl
        exact ha (Csr.eq_csr_of_register? hr)
      simp only [write, read, hr]
      exact settled_writeRegister f hlines hmip value

lemma read_write_of_not_dependent (f : CsrFile) {a b : Csr} (hne : b ≠ a) (hb : b ∉ a.dependents)
    (value : UInt64) : (f.write a value).read b = f.read b := by
  cases hr : a.register? with
  | none => simp only [write, hr]
  | some r =>
      cases hs : b.register? with
      | none => simp only [read, hs]
      | some s =>
          obtain rfl := Csr.eq_csr_of_register? hr
          obtain rfl := Csr.eq_csr_of_register? hs
          simp only [Csr.dependents, hr] at hb
          simp only [write, read, hr, hs]
          refine readRegister_congr (hardwareMip_writeRegister f r value) fun c hshown => ?_
          refine stored_writeRegister f (fun htarget => ?_) value
          rcases Register.eq_or_mem_dependents htarget hshown with rfl | hdependent
          · exact hne rfl
          · exact hb (List.mem_map_of_mem hdependent)

/-- A file in which every register that depends on another one shows something of it. -/
def entangled : CsrFile :=
  { atReset with
    mstatus := ⟨0xA00000002⟩
    mideleg := softwareInterrupts
    mie := softwareInterrupts
    mip := Interrupt.supervisorSoftware.mask
    menvcfg := timerEnable
    stimecmp := 0
    mcycle := 1
    minstret := 1 }

lemma legal_entangled : entangled.Legal :=
  { legal_atReset with
    mstatus := ⟨by decide, by decide⟩
    mideleg := by decide
    mip := by decide
    mie := by decide
    menvcfg := by decide }

/-- No dependent could be left out: a write of zero, or of a comparator out of reach, shows. -/
lemma entangled_affected {a b : Csr} (hb : b ∈ a.dependents) :
    (entangled.write a 0).read b ≠ entangled.read b ∨
      (entangled.write a 0xFFFFFFFFFFFFFFFF).read b ≠ entangled.read b := by
  rw [Csr.dependents] at hb
  split at hb
  · next r hr =>
    obtain rfl := Csr.eq_csr_of_register? hr
    obtain ⟨s, hs, rfl⟩ := List.mem_map.mp hb
    revert s
    cases r with
    | member family i => simp [Register.dependents]
    | _ => decide
  · cases hb

/-- **Writes settle at once and stay local.**  Let no device drive the software interrupt of the
    supervisor, as in every legal file.  After a write of any value to any number but that of `mip`,
    writing back what is then read changes nothing.  In any file, a write to a number changes what
    is read from no other one but its dependents, and of these none could be left out. -/
theorem writes_settle_and_stay_local :
    (∀ (f : CsrFile) (a : Csr) (value : UInt64),
      f.hardwareMip &&& Interrupt.supervisorSoftware.mask = 0 → a ≠ Register.mip.csr →
      (f.write a value).write a ((f.write a value).read a) = f.write a value) ∧
    (∀ (f : CsrFile) (a b : Csr) (value : UInt64), b ≠ a → b ∉ a.dependents →
      (f.write a value).read b = f.read b) ∧
    ∀ a b : Csr, b ∈ a.dependents →
      ∃ (f : CsrFile) (value : UInt64), f.Legal ∧ (f.write a value).read b ≠ f.read b := by
  refine ⟨fun f a value hlines ha => settled_write hlines ha value,
    fun f a b value hne hb => read_write_of_not_dependent f hne hb value, fun a b hb => ?_⟩
  rcases entangled_affected hb with hzero | hones
  · exact ⟨entangled, 0, legal_entangled, hzero⟩
  · exact ⟨entangled, _, legal_entangled, hones⟩

/-- The same file while devices drive every line that they have. -/
def besieged : CsrFile :=
  { entangled with hardwareMip := drivenInterrupts }

/-- Ones are written to `sip`: three interrupts show, of which one is stored. -/
theorem besieged_write_settles :
    besieged.hardwareMip &&& Interrupt.supervisorSoftware.mask = 0 ∧
    (besieged.write Register.sip.csr 0xFFFFFFFFFFFFFFFF).read Register.sip.csr = 0x222 ∧
    (besieged.write Register.sip.csr 0xFFFFFFFFFFFFFFFF).mip = 2 ∧
    (besieged.write Register.sip.csr 0xFFFFFFFFFFFFFFFF).write Register.sip.csr 0x222 =
      besieged.write Register.sip.csr 0xFFFFFFFFFFFFFFFF ∧
    (Register.sie.csr ≠ Register.sip.csr ∧ Register.sie.csr ∉ Register.sip.csr.dependents) ∧
    (besieged.write Register.sip.csr 0).read Register.sie.csr = besieged.read Register.sie.csr ∧
    Register.sip.csr ∈ Register.mideleg.csr.dependents ∧
    ∃ (f : CsrFile) (value : UInt64), f.Legal ∧
      (f.write Register.mideleg.csr value).read Register.sip.csr ≠ f.read Register.sip.csr := by
  obtain ⟨hsettled, hlocal, hdependents⟩ := writes_settle_and_stay_local
  have hlines : besieged.hardwareMip &&& Interrupt.supervisorSoftware.mask = 0 := by decide
  have hread :
      (besieged.write Register.sip.csr 0xFFFFFFFFFFFFFFFF).read Register.sip.csr = 0x222 := by
    decide
  have hback := hsettled besieged Register.sip.csr 0xFFFFFFFFFFFFFFFF hlines (by decide)
  have hapart : Register.sie.csr ≠ Register.sip.csr ∧
      Register.sie.csr ∉ Register.sip.csr.dependents := by decide
  have hdependent : Register.sip.csr ∈ Register.mideleg.csr.dependents := by decide
  rw [hread] at hback
  exact ⟨hlines, hread, by decide, hback, hapart, hlocal besieged _ _ 0 hapart.1 hapart.2,
    hdependent, hdependents _ _ hdependent⟩

-- `mip` itself shows lines of devices in bits that can be stored, and would latch them
example : (besieged.write Register.mip.csr 0).mip = 0 ∧
    ((besieged.write Register.mip.csr 0).write Register.mip.csr
      ((besieged.write Register.mip.csr 0).read Register.mip.csr)).mip = 0x220 := by
  decide

end CsrFile

end Rv64Board
