import Rv64Board.Proofs.Histories

/-!
# Control and status registers hold legal values

Every register has a set of values that it can hold.  Software writes what it likes, through several
views of one register; what is kept of it is legal, and so is what traps, returns and devices leave.

* `Within` — a word with nothing outside of a mask.
* `Mstatus.Legal`, `CsrFile.Legal` — the legal values.
* `CsrFile.Legal.write` — a write of any value to any register keeps them.  The views depend on each
  other here: what `sie` can change is up to `mideleg`, so the latter has to be within the former.
* `Hart.legal_trap`, `Hart.legal_mret`, `Hart.legal_sret` — so do traps and returns.
* `Bus.within_tick` — devices drive four of the pending bits and no other.
* `Machine.csrs_legal` — **so no reachable machine holds anything else.**
-/

namespace Rv64Board

/-! ## Words within a mask -/

/-- A word has no bit outside of a mask. -/
def Within (mask x : UInt64) : Prop := x &&& ~~~mask = 0

instance (mask x : UInt64) : Decidable (Within mask x) :=
  inferInstanceAs (Decidable (x &&& ~~~mask = 0))

namespace Within

variable {mask bits x y : UInt64}

lemma iff_sameOutside : Within mask x ↔ SameOutside mask 0 x := by
  rw [Within, SameOutside, UInt64.zero_and]

lemma iff_bits : Within mask x ↔ ∀ i (_ : i < 64), mask.toBitVec[i] = false →
    x.toBitVec[i] = false := by
  rw [iff_sameOutside, SameOutside.iff_bits]
  simp

lemma zero (mask : UInt64) : Within mask 0 := UInt64.zero_and

lemma masked (mask x : UInt64) : Within mask (x &&& mask) := by
  rw [Within, UInt64.and_assoc, UInt64.and_not_self, UInt64.and_zero]

lemma or (hx : Within mask x) (hy : Within mask y) : Within mask (x ||| y) := by
  rw [iff_bits] at hx hy ⊢
  intro i hi hmask
  simp [hx i hi hmask, hy i hi hmask]

/-- Taking bits of the mask from any value stays within it. -/
lemma merged (hx : Within mask x) (hbits : Within mask bits) (value : UInt64) :
    Within mask (CsrFile.merged x bits value) := by
  rw [iff_bits] at hx hbits ⊢
  intro i hi hmask
  simp [CsrFile.merged, hx i hi hmask, hbits i hi hmask]

lemma mono {wider : UInt64} (hmask : Within wider mask) (hx : Within mask x) : Within wider x := by
  rw [iff_bits] at hmask hx ⊢
  intro i hi hwider
  exact hx i hi (hmask i hi hwider)

lemma and_eq_zero (hx : Within mask x) (hy : mask &&& y = 0) : x &&& y = 0 := by
  have hsame := (iff_sameOutside.mp hx).and_eq hy
  rwa [UInt64.zero_and] at hsame

end Within

/-! ## The status register -/

namespace Mstatus

/-- The values of the status register: what cannot be written says that registers are 64 bits wide
    at both lower levels (the fields in bits 32 and 34 are 2), and the stacked level is one that the
    hart has. -/
structure Legal (s : Mstatus) : Prop where
  xlen : s.bits &&& ~~~writable = 0xA00000000
  mpp : (s.bits &&& mppMask) >>> 11 ≠ 2

variable {s s' : Mstatus} {mask flag : UInt64}

lemma xlen_of_sameOutside (hs : s.bits &&& ~~~writable = 0xA00000000)
    (h : SameOutside mask s.bits s'.bits) (hmask : Within writable mask) :
    s'.bits &&& ~~~writable = 0xA00000000 := by
  rw [Within.iff_bits] at hmask
  rw [SameOutside.iff_bits] at h
  rw [← hs]
  refine SameOutside.iff_bits.mpr ?_
  intro i hi hout
  exact h i hi (hmask i hi hout)

/-- The bits that can be written in any combination. -/
def unrestricted : UInt64 := writable &&& ~~~mppMask

/-- What changes unrestricted bits only leaves a legal value. -/
lemma Legal.of_sameOutside (hs : s.Legal) (h : SameOutside mask s.bits s'.bits)
    (hmask : Within unrestricted mask) : s'.Legal := by
  have hwritable : Within writable mask := Within.mono (by decide) hmask
  have hmpp : mask &&& mppMask = 0 := hmask.and_eq_zero (by decide)
  refine ⟨xlen_of_sameOutside hs.xlen h hwritable, ?_⟩
  rw [h.and_eq hmpp]
  exact hs.mpp

lemma Legal.assign (hs : s.Legal) (hmask : Within unrestricted mask) (on : Bool) :
    (s.assign mask on).Legal :=
  hs.of_sameOutside (SameOutside.assign UInt64.or_self s on) hmask

/-- The bits that are taken from a value. -/
lemma merge_and (s : Mstatus) (value : UInt64) (hflag : Within mask flag) :
    (s.merge mask value).bits &&& flag = value &&& flag := by
  rw [Within.iff_bits] at hflag
  rw [← UInt64.toBitVec_inj, UInt64.toBitVec_and, UInt64.toBitVec_and]
  refine BitVec.eq_of_getElem_eq ?_
  intro i hi
  cases hmask : mask.toBitVec[i] with
  | false => simp [hflag i hi hmask]
  | true => simp [merge, hmask]

lemma setMpp_eq_merge (s : Mstatus) (p : Privilege) :
    s.setMpp p = s.merge mppMask (p.bits <<< 11) := by
  cases p <;> rfl

/-- A level that is stacked is one that the hart has, whatever there was before. -/
lemma legal_setMpp (hs : s.bits &&& ~~~writable = 0xA00000000) (p : Privilege) :
    (s.setMpp p).Legal := by
  rw [setMpp_eq_merge]
  constructor
  · exact xlen_of_sameOutside hs (SameOutside.merged UInt64.or_self s.bits _) (by decide)
  · rw [merge_and s _ (by decide : Within mppMask mppMask)]
    cases p <;> decide

/-- A write of the unused encoding keeps the stacked level, and any other encoding is legal. -/
lemma legal_mstatusWritten (hs : s.Legal) (value : UInt64) :
    (CsrFile.mstatusWritten s value).Legal := by
  have hxlen : (s.merge writable value).bits &&& ~~~writable = 0xA00000000 :=
    xlen_of_sameOutside hs.xlen (SameOutside.merged UInt64.or_self s.bits value) (by decide)
  simp only [CsrFile.mstatusWritten]
  split
  · exact legal_setMpp hxlen s.mpp
  · next hmpp =>
    refine ⟨hxlen, ?_⟩
    rwa [merge_and s value (by decide : Within writable mppMask), UInt64.shiftRight_and]

end Mstatus

/-! ## The file -/

namespace CsrFile

/-- The pending bits that devices drive: software and timer of the CLINT (3 and 7), supervisor and
    machine level of the PLIC (9 and 11). -/
def drivenInterrupts : UInt64 := 0xA88

/-- A CSR file in which every register holds a legal value. -/
structure Legal (f : CsrFile) : Prop where
  mstatus : f.mstatus.Legal
  medeleg : Within 0xB3FF f.medeleg
  mideleg : Within 0x222 f.mideleg
  mip : Within 0x222 f.mip
  mie : Within 0xAAA f.mie
  hardwareMip : Within drivenInterrupts f.hardwareMip
  mtvec : f.mtvec &&& 2 = 0
  stvec : f.stvec &&& 2 = 0
  satp : f.satp >>> 60 = 0 ∨ f.satp >>> 60 = 8
  mcounteren : f.mcounteren < 0x100000000
  scounteren : f.scounteren < 0x100000000
  mcountinhibit : Within 5 f.mcountinhibit
  menvcfg : Within 0x8000000000000001 f.menvcfg
  senvcfg : Within 1 f.senvcfg
  pmpaddr : ∀ (i : Nat) (_ : i < 64), f.pmpaddr[i] < 0x40000000000000

lemma legal_atReset : atReset.Legal where
  mstatus := ⟨by decide, by decide⟩
  medeleg := Within.zero _
  mideleg := Within.zero _
  mip := Within.zero _
  mie := Within.zero _
  hardwareMip := Within.zero _
  mtvec := rfl
  stvec := rfl
  satp := Or.inl rfl
  mcounteren := by decide
  scounteren := by decide
  mcountinhibit := Within.zero _
  menvcfg := Within.zero _
  senvcfg := Within.zero _
  pmpaddr i hi := by simp [atReset]

lemma masked_lt {mask limit : UInt64} (h : mask < limit) (value : UInt64) :
    value &&& mask < limit :=
  UInt64.lt_of_le_of_lt UInt64.and_le_right h

lemma cleared (value flag : UInt64) : value &&& ~~~flag &&& flag = 0 := by
  rw [UInt64.and_assoc, UInt64.not_and_self, UInt64.and_zero]

/-- **A write leaves legal values,** whatever is written and to whichever register. -/
lemma Legal.writeRegister {f : CsrFile} (hf : f.Legal) (r : Csr.Register) (value : UInt64) :
    (f.writeRegister r value).Legal := by
  cases r with
  | sstatus =>
      have hmerge : SameOutside Mstatus.supervisorWritable f.mstatus.bits
          (f.mstatus.merge Mstatus.supervisorWritable value).bits :=
        SameOutside.merged UInt64.or_self _ value
      exact { hf with mstatus := hf.mstatus.of_sameOutside hmerge (by decide) }
  | mstatus => exact { hf with mstatus := Mstatus.legal_mstatusWritten hf.mstatus value }
  | sie =>
      -- only delegated interrupts can be enabled here, and these are interrupts of the hart
      have hdelegated : Within 0xAAA f.mideleg := Within.mono (by decide) hf.mideleg
      exact { hf with mie := hf.mie.merged hdelegated value }
  | sip =>
      have hsoftware : Within 0x222 (f.mideleg &&& Interrupt.supervisorSoftware.mask) :=
        Within.mono (by decide) (Within.masked Interrupt.supervisorSoftware.mask f.mideleg)
      exact { hf with mip := hf.mip.merged hsoftware value }
  | mip => exact { hf with mip := hf.mip.merged (by decide) value }
  | satp =>
      simp only [CsrFile.writeRegister]
      split
      · next hmode =>
        simp only [supportedMode, Bool.or_eq_true, beq_iff_eq] at hmode
        exact { hf with satp := hmode }
      · exact hf
  | medeleg => exact { hf with medeleg := Within.masked _ value }
  | mideleg => exact { hf with mideleg := Within.masked _ value }
  | mie => exact { hf with mie := Within.masked _ value }
  | mcountinhibit => exact { hf with mcountinhibit := Within.masked _ value }
  | menvcfg => exact { hf with menvcfg := Within.masked _ value }
  | senvcfg => exact { hf with senvcfg := Within.masked _ value }
  | stvec => exact { hf with stvec := cleared value 2 }
  | mtvec => exact { hf with mtvec := cleared value 2 }
  | scounteren => exact { hf with scounteren := masked_lt (by decide) value }
  | mcounteren => exact { hf with mcounteren := masked_lt (by decide) value }
  | member family i =>
      cases family with
      | pmpaddr =>
          refine { hf with pmpaddr := ?_ }
          intro k hk
          have hset : (f.pmpaddr.set i.val (value &&& 0x3FFFFFFFFFFFFF) i.isLt)[k] = _ :=
            Vector.getElem_set i.isLt hk
          refine hset ▸ ?_
          split
          · exact masked_lt (by decide) value
          · exact hf.pmpaddr k hk
      | pmpcfg => exact { hf with }
      | mhpmevent | mhpmcounter | hpmcounter => exact hf
  | sscratch | sepc | scause | stval | stimecmp | mscratch | mepc | mcause | mtval | mcycle
  | minstret => exact { hf with }
  | misa | cycle | instret | time | mvendorid | marchid | mimpid | mhartid | mconfigptr => exact hf

lemma Legal.write {f : CsrFile} (hf : f.Legal) (c : Csr) (value : UInt64) :
    (f.write c value).Legal := by
  rw [CsrFile.write]
  split
  · exact hf.writeRegister _ value
  · exact hf

end CsrFile

/-! ## Traps and returns -/

namespace Hart

variable {h : Hart}

lemma legal_trap (hh : h.csrs.Legal) (t : Trap) : (h.trap t).csrs.Legal := by
  rw [trap]
  split
  · refine { hh with mstatus := Mstatus.Legal.assign ?_ (by decide) _ }
    refine Mstatus.Legal.assign ?_ (by decide) _
    exact hh.mstatus.assign (by decide) _
  · refine { hh with mstatus := Mstatus.legal_setMpp (Mstatus.Legal.xlen ?_) h.privilege }
    refine Mstatus.Legal.assign ?_ (by decide) _
    exact hh.mstatus.assign (by decide) _

lemma legal_mret (hh : h.csrs.Legal) : h.mret.csrs.Legal := by
  refine { hh with mstatus := ?_ }
  simp only [mret]
  split
  · refine Mstatus.legal_setMpp (Mstatus.Legal.xlen ?_) .user
    refine Mstatus.Legal.assign ?_ (by decide) _
    exact hh.mstatus.assign (by decide) _
  · refine Mstatus.Legal.assign ?_ (by decide) _
    refine Mstatus.legal_setMpp (Mstatus.Legal.xlen ?_) .user
    refine Mstatus.Legal.assign ?_ (by decide) _
    exact hh.mstatus.assign (by decide) _

lemma legal_sret (hh : h.csrs.Legal) : h.sret.csrs.Legal := by
  refine { hh with mstatus := Mstatus.Legal.assign ?_ (by decide) _ }
  refine Mstatus.Legal.assign ?_ (by decide) _
  refine Mstatus.Legal.assign ?_ (by decide) _
  exact hh.mstatus.assign (by decide) _

end Hart

/-! ## Devices -/

namespace Bus

lemma within_deviceTick (d : Device) (ram : Memory) {lines : Lines}
    (hlines : Within CsrFile.drivenInterrupts lines.mip) :
    Within CsrFile.drivenInterrupts (d.tick ram lines).lines.mip := by
  cases d with
  | finisher | plic => exact hlines
  | clint d =>
      refine hlines.or ?_
      simp only [Clint.driven]
      refine Within.or ?_ ?_ <;> split <;> decide
  | uart d =>
      simp only [Device.tick, Uart.tick]
      split <;> exact hlines
  | virtio d =>
      simp only [Device.tick, VirtioBlock.raise]
      split <;> exact hlines

lemma within_tickRegions (regions : List Region) (ram : Memory) {lines : Lines}
    (hlines : Within CsrFile.drivenInterrupts lines.mip) :
    Within CsrFile.drivenInterrupts (tickRegions regions ram lines).2.2.1.mip := by
  induction regions generalizing ram lines with
  | nil => exact hlines
  | cons r regions ih => exact ih _ (within_deviceTick r.device ram hlines)

lemma within_routeRegions (regions : List Region) {lines : Lines}
    (hlines : Within CsrFile.drivenInterrupts lines.mip) :
    Within CsrFile.drivenInterrupts (routeRegions regions lines).2.mip := by
  induction regions generalizing lines with
  | nil => exact hlines
  | cons r regions ih =>
      refine ih ?_
      cases r.device with
      | plic d =>
          refine hlines.or ?_
          simp only [Plic.driven]
          refine Within.or ?_ ?_ <;> split <;> decide
      | finisher | clint | uart | virtio => exact hlines

/-- The lines are collected from nothing at every step. -/
lemma within_tick (b : Bus) (lines : Lines) :
    Within CsrFile.drivenInterrupts (b.tick lines).2.mip :=
  within_routeRegions _ (within_tickRegions b.regions b.ram (Within.zero _))

end Bus

/-! ## Steps and runs -/

namespace Board

lemma legal_execute {i : Instruction} {raw : UInt32} {len : UInt64} {b b' : Board}
    (hx : execute i raw len b = .ok () b') (hb : b.hart.csrs.Legal) : b'.hart.csrs.Legal := by
  rcases execute_ok_cases hx with hsame | ⟨_, hret⟩ | ⟨_, hret⟩ | ⟨csr, value, _, hwrite, _⟩
  · rwa [hsame.csrs]
  · rw [hret]
    exact Hart.legal_mret hb
  · rw [hret]
    exact Hart.legal_sret hb
  · rw [hwrite]
    exact hb.write csr value

lemma legal_step {b : Board} (hb : b.hart.csrs.Legal) : b.step.2.hart.csrs.Legal := by
  refine hart_step (P := fun h => h.csrs.Legal) ?_ ?_ ?_ ?_ hb
  · intro h t hh
    exact Hart.legal_trap hh t
  · intro h hh
    rw [retire_eq]
    exact { hh with }
  · intro h bus lines hh
    rw [ticked_eq]
    exact { hh with hardwareMip := bus.within_tick lines }
  · intro i b₁ hx
    obtain ⟨raw, len, b₀, hsame, hexec⟩ := executeNext_ok hx
    refine legal_execute hexec ?_
    rwa [hsame]

end Board

namespace Machine

/-- **Every control and status register always holds a legal value,** in every machine that the host
    can come to. -/
theorem csrs_legal {m : Machine} (hm : m.Reachable) : m.board.hart.csrs.Legal :=
  hm.hart_induction (P := fun h => h.csrs.Legal) (fun _ => Board.legal_step)
    (fun _ _ _ => CsrFile.legal_atReset) fun _ _ => CsrFile.legal_atReset

/-- Software writes all ones to a row of registers, then the unused encoding of a level to
    `mstatus`. -/
def meddlingImage : List UInt8 :=
  [0xFFF00513, 0x30351073, 0x30251073, 0x30451073, 0x34451073, 0x30551073, 0x18051073, 0x30651073,
    0x3B051073, 0x30051073, 0x000015B7, 0x30059073].flatMap (LittleEndian.toBytes 4)

/-- A machine with a page of memory, once this program has run. -/
def meddled : Machine :=
  (ofConfig { MachineConfig.default with ramSize := 0x1000 }).after
    [.load meddlingImage, .runFor 12]

/-- All that is left of the ones is legal: the stacked level is still machine level, and paging is
    still off. -/
theorem meddled_csrs_legal :
    meddled.board.hart.csrs.mie = 0xAAA ∧ meddled.board.hart.csrs.mip = 0x222 ∧
    meddled.board.hart.csrs.mstatus = ⟨0xA00001800⟩ ∧ meddled.board.hart.csrs.satp = 0 ∧
    meddled.board.hart.csrs.Legal := by
  have hreached : meddled.Reachable :=
    (reachable_ofConfig (by decide +kernel)).after (by decide)
  have hvalues : meddled.board.hart.csrs.mie = 0xAAA ∧ meddled.board.hart.csrs.mip = 0x222 ∧
      meddled.board.hart.csrs.mstatus = ⟨0xA00001800⟩ ∧ meddled.board.hart.csrs.satp = 0 := by
    decide +kernel
  exact ⟨hvalues.1, hvalues.2.1, hvalues.2.2.1, hvalues.2.2.2, csrs_legal hreached⟩

end Machine

end Rv64Board
