import Rv64Board.Proofs.WordFormats

/-!
# Decoding and encoding are inverse

Decoding tells about a hundred forms of instructions apart, by up to five fields of the word.  This
file shows that it makes no mistake in either direction.

* `Instruction.Canonical` — the immediates of an instruction fit into its fields.
* `Instruction.Ignores` — the bits that mean nothing: those of a fence that only order memory, and
  the ordering bits of atomics.
* `Instruction.Spells` — a word is the encoding of an instruction, up to bits that it ignores.
* `decode?_eq_some_iff` — **a word decodes to an instruction exactly if it spells it and the
  instruction is canonical.**

Each enumeration has its codes, and a code stands for a member exactly if it is the code of that
member (`BranchCond.ofFunct3?_eq_some_iff` and its like).  So every case below is one of codes and
one of fields.
-/

namespace Rv64Board

/-! ## Codes -/

section Codes

variable {n top : Nat}

lemma BranchCond.ofFunct3?_eq_some_iff {c : BranchCond} :
    ofFunct3? n = some c ↔ n = c.funct3 := by
  constructor
  · intro h
    unfold ofFunct3? at h
    split at h <;> cases h <;> rfl
  · rintro rfl
    cases c <;> rfl

lemma LoadKind.ofFunct3?_eq_some_iff {k : LoadKind} : ofFunct3? n = some k ↔ n = k.funct3 := by
  constructor
  · intro h
    unfold ofFunct3? at h
    split at h <;> cases h <;> rfl
  · rintro rfl
    cases k <;> rfl

lemma StoreKind.ofFunct3?_eq_some_iff {k : StoreKind} : ofFunct3? n = some k ↔ n = k.funct3 := by
  constructor
  · intro h
    unfold ofFunct3? at h
    split at h <;> cases h <;> rfl
  · rintro rfl
    cases k <;> rfl

lemma AmoKind.ofFunct3?_eq_some_iff {k : AmoKind} : ofFunct3? n = some k ↔ n = k.funct3 := by
  constructor
  · intro h
    unfold ofFunct3? at h
    split at h <;> cases h <;> rfl
  · rintro rfl
    cases k <;> rfl

lemma AmoOp.ofFunct5?_eq_some_iff {op : AmoOp} : ofFunct5? n = some op ↔ n = op.funct5 := by
  constructor
  · intro h
    unfold ofFunct5? at h
    split at h <;> cases h <;> rfl
  · rintro rfl
    cases op <;> rfl

lemma CsrOp.ofFunct2?_eq_some_iff {op : CsrOp} : ofFunct2? n = some op ↔ n = op.funct2 := by
  constructor
  · intro h
    unfold ofFunct2? at h
    split at h <;> cases h <;> rfl
  · rintro rfl
    cases op <;> rfl

lemma Opcode.ofBits?_eq_some_iff {o : Opcode} : ofBits? n = some o ↔ n = o.bits := by
  constructor
  · intro h
    unfold ofBits? at h
    split at h <;> cases h <;> rfl
  · rintro rfl
    cases o <;> rfl

@[simp] lemma Opcode.ofBits?_bits (o : Opcode) : ofBits? o.bits = some o :=
  ofBits?_eq_some_iff.mpr rfl

lemma BranchCond.funct3_lt (c : BranchCond) : c.funct3 < 2 ^ 3 := by cases c <;> decide

lemma LoadKind.funct3_lt (k : LoadKind) : k.funct3 < 2 ^ 3 := by cases k <;> decide

lemma StoreKind.funct3_lt (k : StoreKind) : k.funct3 < 2 ^ 3 := by cases k <;> decide

lemma AmoKind.funct3_lt (k : AmoKind) : k.funct3 < 2 ^ 3 := by cases k <;> decide

lemma AmoOp.funct5_lt (op : AmoOp) : op.funct5 < 2 ^ 5 := by cases op <;> decide

lemma RegOp.funct3_lt (op : RegOp) : op.funct3 < 2 ^ 3 := by cases op <;> decide

lemma RegOp.funct7_lt (op : RegOp) : op.funct7 < 2 ^ 7 := by cases op <;> decide

lemma ImmOp.funct3_lt (op : ImmOp) : op.funct3 < 2 ^ 3 := by cases op <;> decide

lemma RegOp.double?_eq_some_iff {op : RegOp} :
    double? n top = some op ↔ op.isWord = false ∧ n = op.funct3 ∧ top = op.funct7 := by
  constructor
  · intro h
    unfold double? at h
    split at h <;> cases h <;> exact ⟨rfl, rfl, rfl⟩
  · rintro ⟨h, rfl, rfl⟩
    revert h
    cases op <;> decide

lemma RegOp.word?_eq_some_iff {op : RegOp} :
    word? n top = some op ↔ op.isWord = true ∧ n = op.funct3 ∧ top = op.funct7 := by
  constructor
  · intro h
    unfold word? at h
    split at h <;> cases h <;> exact ⟨rfl, rfl, rfl⟩
  · rintro ⟨h, rfl, rfl⟩
    revert h
    cases op <;> decide

end Codes

namespace ImmOp

/-- Shifts, whose immediate is an amount. -/
def isShift : ImmOp → Bool
  | .slli | .srli | .srai | .slliw | .srliw | .sraiw => true
  | _ => false

/-- What arithmetic right shifts carry in the immediate field above their amount. -/
def mark : ImmOp → Nat
  | .srai | .sraiw => 0x400
  | _ => 0

variable {n top : Nat} {op : ImmOp}

lemma plain?_eq_some_iff {word : Bool} :
    plain? word n = some op ↔ op.isShift = false ∧ op.isWord = word ∧ n = op.funct3 := by
  constructor
  · intro h
    unfold plain? at h
    split at h <;> cases h <;> exact ⟨rfl, rfl, rfl⟩
  · rintro ⟨h, rfl, rfl⟩
    revert h
    cases op <;> decide

lemma shift?_eq_some_iff :
    shift? n top = some op ↔
      op.isShift = true ∧ op.isWord = false ∧ n = op.funct3 ∧ top = op.mark / 2 ^ 6 := by
  constructor
  · intro h
    unfold shift? at h
    split at h <;> cases h <;> exact ⟨rfl, rfl, rfl, rfl⟩
  · rintro ⟨hs, hw, rfl, rfl⟩
    revert hs hw
    cases op <;> decide

lemma wordShift?_eq_some_iff :
    wordShift? n top = some op ↔
      op.isShift = true ∧ op.isWord = true ∧ n = op.funct3 ∧ top = op.mark / 2 ^ 5 := by
  constructor
  · intro h
    unfold wordShift? at h
    split at h <;> cases h <;> exact ⟨rfl, rfl, rfl, rfl⟩
  · rintro ⟨hs, hw, rfl, rfl⟩
    revert hs hw
    cases op <;> decide

lemma funct3_eq_of_isShift (h : op.isShift = true) : op.funct3 = 1 ∨ op.funct3 = 5 := by
  revert h
  cases op <;> decide

lemma funct3_ne_of_not_isShift (h : op.isShift = false) : op.funct3 ≠ 1 ∧ op.funct3 ≠ 5 := by
  revert h
  cases op <;> decide

end ImmOp

/-! ## Canonical instructions and the bits that they ignore -/

namespace Instruction

open Bits

/-- The immediates of an instruction can be encoded. -/
def Canonical : Instruction → Prop
  | .lui _ imm | .auipc _ imm => imm.toNat < 2 ^ 20
  | .jal _ offset => offset % 2 = 0 ∧ -1048576 ≤ offset ∧ offset < 1048576
  | .branch _ _ _ offset => offset % 2 = 0 ∧ -4096 ≤ offset ∧ offset < 4096
  | .jalr _ _ imm | .load _ _ _ imm | .store _ _ _ imm => -2048 ≤ imm ∧ imm < 2048
  | .opImm op _ _ imm =>
    if op.isShift then 0 ≤ imm ∧ imm < (if op.isWord then 32 else 64)
    else -2048 ≤ imm ∧ imm < 2048
  | .csrReg _ _ csr _ => csr.number.toNat < 4096
  | .csrImm _ _ csr uimm => csr.number.toNat < 4096 ∧ uimm.toNat < 32
  | _ => True

/-- The bits of its word that an instruction does not depend on. -/
def Ignores : Instruction → Nat → Prop
  | .fence, k | .fenceI, k => 7 ≤ k ∧ k ≤ 11 ∨ 15 ≤ k ∧ k ≤ 31
  | .loadReserved .., k | .storeConditional .., k | .amo .., k => k = 25 ∨ k = 26
  | _, _ => False

/-- A word is the encoding of an instruction, up to bits that the instruction ignores. -/
def Spells (w : UInt32) (i : Instruction) : Prop :=
  ∀ k < 32, ¬i.Ignores k → (encode i).toNat.testBit k = w.toNat.testBit k

/-! ### Words by their bits -/

lemma testBit_eq_of_field_eq {n n' low len k : Nat} (h : field n low len = field n' low len)
    (hlow : low ≤ k) (hhigh : k < low + len) : n.testBit k = n'.testBit k := by
  have hbit := congrArg (·.testBit (k - low)) h
  have hin : k - low < len := by omega
  simpa [testBit_field, hin, Nat.add_sub_cancel' hlow] using hbit

lemma field_eq_of_testBit_eq {n n' low len : Nat}
    (h : ∀ k, low ≤ k → k < low + len → n.testBit k = n'.testBit k) :
    field n low len = field n' low len := by
  refine Nat.eq_of_testBit_eq fun i => ?_
  rw [testBit_field, testBit_field]
  by_cases hi : i < len
  · rw [h (low + i) (by omega) (by omega)]
  · simp [hi]

lemma spells_encode (i : Instruction) : Spells (encode i) i := fun _ _ _ => rfl

/-- A word is all there is to an instruction that depends on every bit. -/
lemma Spells.eq {w : UInt32} {i : Instruction} (h : Spells w i) (hall : ∀ k, ¬i.Ignores k) :
    encode i = w := by
  refine UInt32.toNat_inj.mp (Nat.eq_of_testBit_eq fun k => ?_)
  by_cases hk : k < 32
  · exact h k hk (hall k)
  · have hout (v : UInt32) : v.toNat.testBit k = false := Nat.testBit_lt_two_pow
      (Nat.lt_of_lt_of_le v.toNat_lt (Nat.pow_le_pow_right (by decide) (Nat.le_of_not_lt hk)))
    rw [hout, hout]

/-- Fields outside of the bits that are ignored are as they were encoded. -/
lemma Spells.field_eq {w : UInt32} {i : Instruction} (h : Spells w i) (low len : Nat)
    (hin : low + len ≤ 32)
    (hfree : ∀ k, low ≤ k → k < low + len → ¬i.Ignores k) :
    field w.toNat low len = field (encode i).toNat low len :=
  field_eq_of_testBit_eq fun k hlow hhigh => (h k (by omega) (hfree k hlow hhigh)).symm

/-! ## Operations with an immediate -/

lemma immField_of_not_isShift {op : ImmOp} (h : op.isShift = false) (imm : Int) :
    immField op imm = imm := by
  revert h
  cases op <;> simp [ImmOp.isShift, immField]

lemma immField_natCast (op : ImmOp) {amount : Nat} (ha : amount < 2 ^ 6) :
    immField op amount = ((amount + op.mark : Nat) : Int) := by
  have hslice : slice (amount : Int) 0 6 = amount := by
    rw [slice_natCast, field_of_lt ha]
  cases op <;> simp [immField, ImmOp.mark, hslice]

section OpImm

variable {n : Nat} {op : ImmOp} {imm : Int}

/-- The immediate of an operation that is no shift. -/
lemma plain_iff (hs : op.isShift = false) :
    (-2048 ≤ imm ∧ imm < 2048) ∧ slice (immField op imm) 0 12 = field n 20 12 ↔ imm = immI n := by
  rw [immField_of_not_isShift hs]
  constructor
  · rintro ⟨⟨hlow, hhigh⟩, hn⟩
    exact (immI_eq hn.symm hlow hhigh).symm
  · rintro rfl
    exact ⟨immI_range n, slice_immI n⟩

/-- The amount of a shift, and what stands above it. -/
lemma shift_iff (op : ImmOp) {width : Nat} (hwidth : width = 5 ∨ width = 6) :
    (0 ≤ imm ∧ imm < (2 ^ width : Nat)) ∧ slice (immField op imm) 0 12 = field n 20 12 ↔
      imm = field n 20 width ∧ field n (20 + width) (12 - width) = op.mark / 2 ^ width := by
  have hmark : op.mark = 0 ∨ op.mark = 2 ^ 10 := by cases op <;> decide
  have hlow := field_lt_two_pow n 20 width
  have hcut : field n 20 12 =
      field n 20 width + field n (20 + width) (12 - width) * 2 ^ width := by
    rw [← field_add]
    congr 1
    omega
  have hfield {amount : Nat} (ha : amount < 2 ^ 6) :
      slice (immField op amount) 0 12 = amount + op.mark := by
    rw [immField_natCast op ha, slice_natCast, field_eq]
    omega
  constructor
  · rintro ⟨⟨h₀, hhigh⟩, hn⟩
    obtain ⟨amount, rfl⟩ := Int.eq_ofNat_of_zero_le h₀
    rcases hwidth with rfl | rfl
    all_goals
      rw [hfield (by omega), hcut] at hn
      omega
  · rintro ⟨rfl, hn⟩
    rcases hwidth with rfl | rfl
    all_goals
      rw [hfield (by omega), hcut, hn]
      omega

end OpImm

/-- What the word of an operation with an immediate holds, whether on full registers or on
    halves. -/
def ReadsOpImm (word : Bool) (n : Nat) (i : Instruction) : Prop :=
  ∃ op imm, i = .opImm op (rdOf n) (rs1Of n) imm ∧ i.Canonical ∧ op.isWord = word ∧
    funct3Of n = op.funct3 ∧ slice (immField op imm) 0 12 = field n 20 12

/-- The two decoders differ in the width of a shift amount and in the codes of the shifts. -/
lemma readsOpImm_iff {word : Bool} {width n : Nat} {i : Instruction}
    {shift : Nat → Nat → Option ImmOp} (hwidth : width = if word then 5 else 6)
    (hshift : ∀ {f top op}, shift f top = some op ↔
      op.isShift = true ∧ op.isWord = word ∧ f = op.funct3 ∧ top = op.mark / 2 ^ width) :
    (if funct3Of n = 1 ∨ funct3Of n = 5 then
      (shift (funct3Of n) (field n (20 + width) (12 - width))).map fun op =>
        Instruction.opImm op (rdOf n) (rs1Of n) (field n 20 width)
    else (ImmOp.plain? word (funct3Of n)).map fun op =>
        Instruction.opImm op (rdOf n) (rs1Of n) (immI n)) = some i ↔ ReadsOpImm word n i := by
  have hcanon {op : ImmOp} (hs : op.isShift = true) (hw : op.isWord = word) (imm : Int) :
      (Instruction.opImm op (rdOf n) (rs1Of n) imm).Canonical ↔
        0 ≤ imm ∧ imm < (2 ^ width : Nat) := by
    rw [Canonical, hs, hw, hwidth]
    cases word <;> rfl
  have hcases : width = 5 ∨ width = 6 := by cases word <;> simp_all
  split
  · next hf =>
    simp only [Option.map_eq_some_iff, hshift]
    constructor
    · rintro ⟨op, ⟨hs, hw, hf, htop⟩, rfl⟩
      obtain ⟨himm, hn⟩ := (shift_iff op hcases).mpr ⟨rfl, htop⟩
      exact ⟨op, _, rfl, (hcanon hs hw _).mpr himm, hw, hf, hn⟩
    · rintro ⟨op, imm, rfl, hc, hw, hf', hn⟩
      have hs : op.isShift = true := by
        by_contra hs
        obtain ⟨hne₁, hne₅⟩ := ImmOp.funct3_ne_of_not_isShift (Bool.eq_false_iff.mpr hs)
        omega
      obtain ⟨rfl, htop⟩ := (shift_iff op hcases).mp ⟨(hcanon hs hw imm).mp hc, hn⟩
      exact ⟨op, ⟨hs, hw, hf', htop⟩, rfl⟩
  · next hf =>
    simp only [Option.map_eq_some_iff, ImmOp.plain?_eq_some_iff]
    constructor
    · rintro ⟨op, ⟨hs, hw, hf⟩, rfl⟩
      obtain ⟨himm, hn⟩ := (plain_iff (n := n) hs).mpr rfl
      refine ⟨op, _, rfl, ?_, hw, hf, hn⟩
      simpa [Canonical, hs] using himm
    · rintro ⟨op, imm, rfl, hc, hw, hf', hn⟩
      have hs : op.isShift = false := by
        by_contra hs
        have := ImmOp.funct3_eq_of_isShift (Bool.eq_true_of_not_eq_false hs)
        omega
      simp only [Canonical, hs] at hc
      obtain rfl := (plain_iff hs).mp ⟨hc, hn⟩
      exact ⟨op, ⟨hs, hw, hf'⟩, rfl⟩

lemma decodeOpImm?_eq_some_iff {n : Nat} {i : Instruction} :
    decodeOpImm? n = some i ↔ ReadsOpImm false n i := by
  rw [← readsOpImm_iff rfl ImmOp.shift?_eq_some_iff, decodeOpImm?]
  split <;> simp_all

lemma decodeOpImm32?_eq_some_iff {n : Nat} {i : Instruction} :
    decodeOpImm32? n = some i ↔ ReadsOpImm true n i := by
  rw [← readsOpImm_iff rfl ImmOp.wordShift?_eq_some_iff, decodeOpImm32?]
  split <;> simp_all [funct7Of]

/-! ## System instructions -/

section System

variable {w : UInt32} {i : Instruction}

/-- The function code of a CSR instruction is its operation and the bit of the immediate form. -/
lemma funct3_csr (n : Nat) : funct3Of n = field n 12 2 + field n 14 1 * 2 ^ 2 := field_add n 12 2 1

lemma toNat_csrField (n : Nat) :
    (⟨UInt16.ofNat (field n 20 12)⟩ : Csr).number.toNat = field n 20 12 := by
  have hlt := field_lt_two_pow n 20 12
  exact UInt16.toNat_ofNat_of_lt' (by rw [UInt16.size]; omega)

lemma toNat_uimmField (n : Nat) : (UInt32.ofNat (field n 15 5)).toNat = field n 15 5 := by
  have hlt := field_lt_two_pow n 15 5
  exact UInt32.toNat_ofNat_of_lt' (by rw [UInt32.size]; omega)

lemma encode_csrReg {op : CsrOp} (h₀ : field w.toNat 0 7 = Opcode.system.bits)
    (hf : funct3Of w.toNat = op.funct2) :
    encode (.csrReg op (rdOf w.toNat) ⟨UInt16.ofNat (field w.toNat 20 12)⟩ (rs1Of w.toNat)) =
      w := by
  rw [encode, ← hf]
  refine iType_fields h₀ ?_
  rw [toNat_csrField, slice_natCast, field_of_lt (field_lt_two_pow _ _ _)]

lemma encode_csrImm {op : CsrOp} (h₀ : field w.toNat 0 7 = Opcode.system.bits)
    (hf : funct3Of w.toNat = op.funct2 + 4) :
    encode (.csrImm op (rdOf w.toNat) ⟨UInt16.ofNat (field w.toNat 20 12)⟩
      (UInt32.ofNat (field w.toNat 15 5))) = w := by
  rw [encode, ← hf, toNat_uimmField]
  refine iType_fields h₀ ?_
  rw [toNat_csrField, slice_natCast, field_of_lt (field_lt_two_pow _ _ _)]

lemma encode_of_decodeSystem? (h₀ : field w.toNat 0 7 = Opcode.system.bits)
    (h : decodeSystem? w = some i) : i.Canonical ∧ encode i = w := by
  have hcsr : (⟨UInt16.ofNat (field w.toNat 20 12)⟩ : Csr).number.toNat < 4096 := by
    rw [toNat_csrField]
    exact field_lt_two_pow _ _ _
  simp only [decodeSystem?] at h
  split_ifs at h with hf hecall hebreak hsret hmret hwfi hsfence hreg
  · cases h
    exact ⟨trivial, hecall.symm⟩
  · cases h
    exact ⟨trivial, hebreak.symm⟩
  · cases h
    exact ⟨trivial, hsret.symm⟩
  · cases h
    exact ⟨trivial, hmret.symm⟩
  · cases h
    exact ⟨trivial, hwfi.symm⟩
  · cases h
    refine ⟨trivial, ?_⟩
    rw [encode, ← hf, ← hsfence.1, ← hsfence.2]
    exact rType_fields h₀
  · obtain ⟨op, hop, rfl⟩ := Option.map_eq_some_iff.mp h
    rw [CsrOp.ofFunct2?_eq_some_iff] at hop
    have hf₃ := funct3_csr w.toNat
    exact ⟨hcsr, encode_csrReg h₀ (by omega)⟩
  · obtain ⟨op, hop, rfl⟩ := Option.map_eq_some_iff.mp h
    rw [CsrOp.ofFunct2?_eq_some_iff] at hop
    have hbit := field_lt_two_pow w.toNat 14 1
    have hf₃ := funct3_csr w.toNat
    refine ⟨⟨hcsr, ?_⟩, encode_csrImm h₀ (by omega)⟩
    rw [toNat_uimmField]
    exact field_lt_two_pow _ _ _

/-- A function code with an operation in it is that of a CSR instruction, in one of two forms. -/
lemma decodeSystem?_of_csr {op : CsrOp} (form : Nat)
    (hf : funct3Of w.toNat = op.funct2 + form * 4) :
    decodeSystem? w = some (
      if form = 0 then
        .csrReg op (rdOf w.toNat) ⟨UInt16.ofNat (field w.toNat 20 12)⟩ (rs1Of w.toNat)
      else
        .csrImm op (rdOf w.toNat) ⟨UInt16.ofNat (field w.toNat 20 12)⟩
          (UInt32.ofNat (field w.toNat 15 5))) := by
  have hop : 1 ≤ op.funct2 ∧ op.funct2 < 4 := by cases op <;> decide
  have hcut := funct3_csr w.toNat
  have hlow := field_lt_two_pow w.toNat 12 2
  have hcode : field w.toNat 12 2 = op.funct2 := by omega
  have hbit : field w.toNat 14 1 = form := by omega
  have hne : funct3Of w.toNat ≠ 0 := by omega
  simp only [decodeSystem?, if_neg hne, hcode, CsrOp.ofFunct2?_eq_some_iff.mpr rfl,
    Option.map_some, hbit]

lemma csr_eq {n : Nat} {csr : Csr} (h : csr.number.toNat < 4096)
    (hn : field n 20 12 = slice csr.number.toNat 0 12) :
    (⟨UInt16.ofNat (field n 20 12)⟩ : Csr) = csr := by
  rw [hn, slice_natCast, field_of_lt h, UInt16.ofNat_toNat]

lemma decode?_csrReg {op : CsrOp} {rd rs1 : Reg} {csr : Csr} (h : csr.number.toNat < 4096)
    (hw : encode (.csrReg op rd csr rs1) = w) : decode? w = some (.csrReg op rd csr rs1) := by
  have hop : op.funct2 < 2 ^ 3 := by cases op <;> decide
  obtain ⟨h₀, h₇, h₁₂, h₁₅, h₂₀⟩ :=
    fields_iType .system rd rs1 csr.number.toNat hop (congrArg UInt32.toNat hw)
  simp only [decode?, h₀, Opcode.ofBits?_bits]
  rw [decodeSystem?_of_csr 0 h₁₂, if_pos rfl, csr_eq h h₂₀, rdOf, h₇, rs1Of, h₁₅,
    Reg.ofNat_index, Reg.ofNat_index]

lemma decode?_csrImm {op : CsrOp} {rd : Reg} {csr : Csr} {uimm : UInt32}
    (h : csr.number.toNat < 4096) (hu : uimm.toNat < 32)
    (hw : encode (.csrImm op rd csr uimm) = w) : decode? w = some (.csrImm op rd csr uimm) := by
  have hop : op.funct2 + 4 < 2 ^ 3 := by cases op <;> decide
  obtain ⟨h₀, h₇, h₁₂, h₁₅, h₂₀⟩ := fields_iType .system rd (Reg.ofNat uimm.toNat)
    csr.number.toNat hop (congrArg UInt32.toNat hw)
  simp only [decode?, h₀, Opcode.ofBits?_bits]
  rw [decodeSystem?_of_csr 1 h₁₂, if_neg one_ne_zero, csr_eq h h₂₀, rdOf, h₇, h₁₅,
    Reg.ofNat_index, Reg.index_ofNat hu, UInt32.ofNat_toNat]

/-- The instructions without operands have another code where this one has nine. -/
lemma decodeSystem?_of_sfenceVma (h₃ : funct3Of w.toNat = 0) (h₇ : funct7Of w.toNat = 9)
    (hrd : rdOf w.toNat = Reg.zero) :
    decodeSystem? w = some (.sfenceVma (rs1Of w.toNat) (rs2Of w.toNat)) := by
  have hne {v : UInt32} (hv : funct7Of v.toNat ≠ 9) : w ≠ v := by
    rintro rfl
    exact hv h₇
  have hecall : w ≠ ecallWord := hne (by decide)
  have hebreak : w ≠ ebreakWord := hne (by decide)
  have hsret : w ≠ sretWord := hne (by decide)
  have hmret : w ≠ mretWord := hne (by decide)
  have hwfi : w ≠ wfiWord := hne (by decide)
  rw [decodeSystem?, if_pos h₃, if_neg hecall, if_neg hebreak, if_neg hsret, if_neg hmret,
    if_neg hwfi, if_pos ⟨h₇, hrd⟩]

lemma decode?_sfenceVma {rs1 rs2 : Reg} (hw : encode (.sfenceVma rs1 rs2) = w) :
    decode? w = some (.sfenceVma rs1 rs2) := by
  obtain ⟨h₀, h₇, h₁₂, h₁₅, h₂₀, h₂₅⟩ := fields_rType .system Reg.zero rs1 rs2
    (by decide : 0 < 2 ^ 3) (by decide : 9 < 2 ^ 7) (congrArg UInt32.toNat hw)
  have hrd : rdOf w.toNat = Reg.zero := by rw [rdOf, h₇, Reg.ofNat_index]
  simp only [decode?, h₀, Opcode.ofBits?_bits]
  rw [decodeSystem?_of_sfenceVma h₁₂ h₂₅ hrd, rs1Of, h₁₅, rs2Of, h₂₀, Reg.ofNat_index,
    Reg.ofNat_index]

end System

/-! ## Atomics -/

section Atomics

variable {n : Nat}

/-- The upper part of the last field tells the operation, the two bits below it are for ordering. -/
lemma funct7_atomic (n : Nat) : funct7Of n = field n 25 2 + field n 27 5 * 2 ^ 2 :=
  field_add n 25 2 5

lemma fields_atomic (rd : Reg) (kind : AmoKind) (rs1 rs2 : Reg) {funct5 : Nat}
    (h₅ : funct5 < 2 ^ 5)
    (hn : (rType .amo rd kind.funct3 rs1 rs2 (funct5 <<< 2)).toNat = n) :
    field n 0 7 = Opcode.amo.bits ∧ rdOf n = rd ∧ AmoKind.ofFunct3? (funct3Of n) = some kind ∧
      rs1Of n = rs1 ∧ rs2Of n = rs2 ∧ field n 27 5 = funct5 := by
  obtain ⟨h₀, h₇, h₁₂, h₁₅, h₂₀, h₂₅⟩ := fields_rType .amo rd rs1 rs2 kind.funct3_lt
    (by rw [Nat.shiftLeft_eq]; omega) hn
  have hcut := funct7_atomic n
  have hlow := field_lt_two_pow n 25 2
  rw [funct7Of, h₂₅, Nat.shiftLeft_eq] at hcut
  refine ⟨h₀, ?_, AmoKind.ofFunct3?_eq_some_iff.mpr h₁₂, ?_, ?_, by omega⟩
  · rw [rdOf, h₇, Reg.ofNat_index]
  · rw [rs1Of, h₁₅, Reg.ofNat_index]
  · rw [rs2Of, h₂₀, Reg.ofNat_index]

/-- A word spells an atomic instruction if all but the ordering bits are laid down for it. -/
lemma spells_of_atomic {w : UInt32} {i : Instruction}
    (h₀ : field w.toNat 0 7 = Opcode.amo.bits) (hignores : ∀ k, k = 25 ∨ k = 26 → i.Ignores k)
    (henc : encode i = rType .amo (rdOf w.toNat) (funct3Of w.toNat) (rs1Of w.toNat) (rs2Of w.toNat)
      (field w.toNat 27 5 <<< 2)) : Spells w i := by
  have hlt := w.toNat_lt
  have hreg (low : Nat) := Reg.index_ofNat (field_lt_two_pow w.toNat low 5)
  have hsum : (encode i).toNat = w.toNat % 2 ^ 25 + w.toNat / 2 ^ 27 * 2 ^ 27 := by
    rw [henc, rType, UInt32.toNat_ofNat', ← h₀, rdOf, rs1Of, rs2Of, hreg, hreg, hreg, funct3Of]
    simp only [field_eq, Nat.shiftLeft_eq]
    omega
  have hlow : field (encode i).toNat 0 25 = field w.toNat 0 25 := by
    rw [hsum, field_eq, field_eq]
    omega
  have hhigh : field (encode i).toNat 27 5 = field w.toNat 27 5 := by
    rw [hsum, field_eq, field_eq]
    omega
  intro k hk hfree
  by_cases hk₂₅ : k < 25
  · exact testBit_eq_of_field_eq hlow (Nat.zero_le k) (by omega)
  · have hne : ¬(k = 25 ∨ k = 26) := fun h => hfree (hignores k h)
    exact testBit_eq_of_field_eq hhigh (by omega) (by omega)

lemma spells_of_decodeAmo? {w : UInt32} {i : Instruction}
    (h₀ : field w.toNat 0 7 = Opcode.amo.bits) (h : decodeAmo? w.toNat = some i) :
    i.Canonical ∧ Spells w i := by
  rw [decodeAmo?] at h
  split at h
  · cases h
  · next kind hkind =>
    rw [AmoKind.ofFunct3?_eq_some_iff] at hkind
    split at h
    · next hop =>
      split at h <;> cases h
      next hrs2 =>
      refine ⟨trivial, spells_of_atomic h₀ (fun _ => id) ?_⟩
      rw [encode, hop, hkind, hrs2]
    · next hop =>
      cases h
      refine ⟨trivial, spells_of_atomic h₀ (fun _ => id) ?_⟩
      rw [encode, hop, hkind]
    · obtain ⟨op, hop, rfl⟩ := Option.map_eq_some_iff.mp h
      rw [AmoOp.ofFunct5?_eq_some_iff] at hop
      refine ⟨trivial, spells_of_atomic h₀ (fun _ => id) ?_⟩
      rw [encode, hop, hkind]

lemma decode?_loadReserved {w : UInt32} {kind : AmoKind} {rd rs1 : Reg}
    (hw : encode (.loadReserved kind rd rs1) = w) :
    decode? w = some (.loadReserved kind rd rs1) := by
  obtain ⟨h₀, hrd, hkind, hrs1, hrs2, hop⟩ :=
    fields_atomic rd kind rs1 Reg.zero (by decide : 2 < 2 ^ 5) (congrArg UInt32.toNat hw)
  simp only [decode?, h₀, Opcode.ofBits?_bits, decodeAmo?, hkind, hop, hrs2, if_true, hrd, hrs1]

lemma decode?_storeConditional {w : UInt32} {kind : AmoKind} {rd rs1 rs2 : Reg}
    (hw : encode (.storeConditional kind rd rs1 rs2) = w) :
    decode? w = some (.storeConditional kind rd rs1 rs2) := by
  obtain ⟨h₀, hrd, hkind, hrs1, hrs2, hop⟩ :=
    fields_atomic rd kind rs1 rs2 (by decide : 3 < 2 ^ 5) (congrArg UInt32.toNat hw)
  simp only [decode?, h₀, Opcode.ofBits?_bits, decodeAmo?, hkind, hop, hrs2, hrd, hrs1]

lemma decode?_amo {w : UInt32} {op : AmoOp} {kind : AmoKind} {rd rs1 rs2 : Reg}
    (hw : encode (.amo op kind rd rs1 rs2) = w) :
    decode? w = some (.amo op kind rd rs1 rs2) := by
  obtain ⟨h₀, hrd, hkind, hrs1, hrs2, hop⟩ :=
    fields_atomic rd kind rs1 rs2 op.funct5_lt (congrArg UInt32.toNat hw)
  simp only [decode?, h₀, Opcode.ofBits?_bits, decodeAmo?, hkind, hop, hrs2, hrd, hrs1]
  cases op <;> rfl

/-- Decoding an atomic instruction does not look at the ordering bits. -/
lemma decode?_of_spells_atomic {w : UInt32} {i : Instruction} (hs : Spells w i)
    (hignores : ∀ k, i.Ignores k → k = 25 ∨ k = 26)
    (h₀ : field (encode i).toNat 0 7 = Opcode.amo.bits) : decode? w = decode? (encode i) := by
  have hfield (low len : Nat) (hin : low + len ≤ 25 ∨ 27 ≤ low ∧ low + len ≤ 32) :
      field w.toNat low len = field (encode i).toNat low len := by
    refine hs.field_eq low len (by omega) fun k hlow hhigh hk => ?_
    have := hignores k hk
    omega
  have hw₀ := (hfield 0 7 (by decide)).trans h₀
  simp only [decode?, hw₀, h₀, Opcode.ofBits?_bits]
  unfold decodeAmo? funct3Of rdOf rs1Of rs2Of
  rw [hfield 12 3 (by decide), hfield 27 5 (by decide), hfield 7 5 (by decide),
    hfield 15 5 (by decide), hfield 20 5 (by decide)]

end Atomics

/-! ## Fences -/

section Fences

variable {w : UInt32} {i : Instruction}

/-- Of both fences only two fields mean something. -/
lemma spells_fence_iff (hi : i = .fence ∨ i = .fenceI) :
    Spells w i ↔ field w.toNat 0 7 = field (encode i).toNat 0 7 ∧
      funct3Of w.toNat = funct3Of (encode i).toNat := by
  have hignores (k : Nat) : i.Ignores k ↔ 7 ≤ k ∧ k ≤ 11 ∨ 15 ≤ k ∧ k ≤ 31 := by
    rcases hi with rfl | rfl <;> exact Iff.rfl
  constructor
  · intro hs
    exact ⟨hs.field_eq 0 7 (by decide) fun k hlow hhigh => by rw [hignores]; omega,
      hs.field_eq 12 3 (by decide) fun k hlow hhigh => by rw [hignores]; omega⟩
  · rintro ⟨h₀, h₃⟩ k hk hfree
    rw [hignores] at hfree
    by_cases hk₇ : k < 7
    · exact testBit_eq_of_field_eq h₀.symm (Nat.zero_le k) (by omega)
    · exact testBit_eq_of_field_eq (h₃.symm : field _ 12 3 = field _ 12 3) (by omega) (by omega)

end Fences

/-! ## Both directions -/

variable {w : UInt32} {i : Instruction}

/-- Encoding loses nothing.  The word has a name of its own here and above, because with most of its
    fields known, unification would rather compute it. -/
lemma decode?_of_encode_eq (h : i.Canonical) (hw : encode i = w) : decode? w = some i := by
  have hn := congrArg UInt32.toNat hw
  cases i with
  | lui rd imm =>
      obtain ⟨h₀, h₇, h₁₂⟩ := fields_uType .lui rd imm hn
      simp only [decode?, h₀, Opcode.ofBits?_bits, rdOf, h₇, Reg.ofNat_index, immU_eq h h₁₂]
  | auipc rd imm =>
      obtain ⟨h₀, h₇, h₁₂⟩ := fields_uType .auipc rd imm hn
      simp only [decode?, h₀, Opcode.ofBits?_bits, rdOf, h₇, Reg.ofNat_index, immU_eq h h₁₂]
  | jal rd offset =>
      obtain ⟨heven, hlow, hhigh⟩ := h
      rw [encode, jType_eq_uType] at hn
      obtain ⟨h₀, h₇, h₁₂⟩ := fields_uType .jal rd _ hn
      rw [field_jumpField] at h₁₂
      simp only [decode?, h₀, Opcode.ofBits?_bits, rdOf, h₇, Reg.ofNat_index,
        immJ_eq h₁₂ heven hlow hhigh]
  | jalr rd rs1 offset =>
      obtain ⟨h₀, h₇, h₁₂, h₁₅, h₂₀⟩ := fields_iType .jalr rd rs1 offset (by decide : 0 < 2 ^ 3) hn
      simp only [decode?, h₀, Opcode.ofBits?_bits, rdOf, h₇, rs1Of, h₁₅, Reg.ofNat_index, funct3Of,
        h₁₂, immI_eq h₂₀ h.1 h.2, if_true]
  | branch cond rs1 rs2 offset =>
      obtain ⟨heven, hlow, hhigh⟩ := h
      rw [encode, bType_eq_rType] at hn
      have p₁₁ := slice_lt offset 11 1
      have p₁ := slice_lt offset 1 4
      have p₅ := slice_lt offset 5 6
      have p₁₂ := slice_lt offset 12 1
      obtain ⟨h₀, h₇, h₁₂, h₁₅, h₂₀, h₂₅⟩ :=
        fields_rType .branch _ rs1 rs2 cond.funct3_lt (by omega) hn
      rw [Reg.index_ofNat (by omega)] at h₇
      simp only [decode?, h₀, Opcode.ofBits?_bits, funct3Of, h₁₂,
        BranchCond.ofFunct3?_eq_some_iff.mpr rfl, Option.map_some, rs1Of, h₁₅, rs2Of, h₂₀,
        Reg.ofNat_index, immB_eq h₇ h₂₅ heven hlow hhigh]
  | load kind rd rs1 offset =>
      obtain ⟨h₀, h₇, h₁₂, h₁₅, h₂₀⟩ := fields_iType .load rd rs1 offset kind.funct3_lt hn
      simp only [decode?, h₀, Opcode.ofBits?_bits, funct3Of, h₁₂,
        LoadKind.ofFunct3?_eq_some_iff.mpr rfl, Option.map_some, rdOf, h₇, rs1Of, h₁₅,
        Reg.ofNat_index, immI_eq h₂₀ h.1 h.2]
  | store kind rs1 rs2 offset =>
      rw [encode, sType_eq_rType] at hn
      obtain ⟨h₀, h₇, h₁₂, h₁₅, h₂₀, h₂₅⟩ :=
        fields_rType .store _ rs1 rs2 kind.funct3_lt (slice_lt offset 5 7) hn
      rw [Reg.index_ofNat (slice_lt offset 0 5)] at h₇
      simp only [decode?, h₀, Opcode.ofBits?_bits, funct3Of, h₁₂,
        StoreKind.ofFunct3?_eq_some_iff.mpr rfl, Option.map_some, rs1Of, h₁₅, rs2Of, h₂₀,
        Reg.ofNat_index, immS_eq h₇ h₂₅ h.1 h.2]
  | opImm op rd rs1 imm =>
      obtain ⟨h₀, h₇, h₁₂, h₁₅, h₂₀⟩ := fields_iType _ rd rs1 (immField op imm) op.funct3_lt hn
      have hreads : ReadsOpImm op.isWord w.toNat (.opImm op rd rs1 imm) := by
        refine ⟨op, imm, ?_, h, rfl, h₁₂, h₂₀.symm⟩
        rw [rdOf, h₇, rs1Of, h₁₅, Reg.ofNat_index, Reg.ofNat_index]
      cases hword : op.isWord
      · rw [hword] at h₀ hreads
        simp only [decode?, h₀, Bool.false_eq_true, if_false, Opcode.ofBits?_bits]
        exact decodeOpImm?_eq_some_iff.mpr hreads
      · rw [hword] at h₀ hreads
        simp only [decode?, h₀, if_true, Opcode.ofBits?_bits]
        exact decodeOpImm32?_eq_some_iff.mpr hreads
  | opReg op rd rs1 rs2 =>
      obtain ⟨h₀, h₇, h₁₂, h₁₅, h₂₀, h₂₅⟩ := fields_rType _ rd rs1 rs2 op.funct3_lt op.funct7_lt hn
      cases hword : op.isWord
      · rw [hword] at h₀
        simp only [decode?, h₀, Bool.false_eq_true, if_false, Opcode.ofBits?_bits, funct3Of, h₁₂,
          funct7Of, h₂₅, RegOp.double?_eq_some_iff.mpr ⟨hword, rfl, rfl⟩, Option.map_some, rdOf, h₇,
          rs1Of, h₁₅, rs2Of, h₂₀, Reg.ofNat_index]
      · rw [hword] at h₀
        simp only [decode?, h₀, if_true, Opcode.ofBits?_bits, funct3Of, h₁₂, funct7Of, h₂₅,
          RegOp.word?_eq_some_iff.mpr ⟨hword, rfl, rfl⟩, Option.map_some, rdOf, h₇, rs1Of, h₁₅,
          rs2Of, h₂₀, Reg.ofNat_index]
  | sfenceVma rs1 rs2 => exact decode?_sfenceVma hw
  | csrReg op rd csr rs1 => exact decode?_csrReg h hw
  | csrImm op rd csr uimm => exact decode?_csrImm h.1 h.2 hw
  | loadReserved kind rd rs1 => exact decode?_loadReserved hw
  | storeConditional kind rd rs1 rs2 => exact decode?_storeConditional hw
  | amo op kind rd rs1 rs2 => exact decode?_amo hw
  | _ =>
      rw [← hw]
      decide

/-- What the decoders of operations with an immediate read was laid down by the encoder. -/
lemma encode_of_readsOpImm (word : Bool)
    (h₀ : field w.toNat 0 7 = (if word then Opcode.opImm32 else Opcode.opImm).bits)
    (h : ReadsOpImm word w.toNat i) : i.Canonical ∧ encode i = w := by
  obtain ⟨op, imm, rfl, hcanon, rfl, hf, himm⟩ := h
  refine ⟨hcanon, ?_⟩
  rw [encode, ← hf]
  exact iType_fields h₀ himm

lemma encode_of_reg {op : RegOp}
    (h₀ : field w.toNat 0 7 = (if op.isWord then Opcode.op32 else Opcode.op).bits)
    (h₃ : funct3Of w.toNat = op.funct3) (h₇ : funct7Of w.toNat = op.funct7) :
    encode (.opReg op (rdOf w.toNat) (rs1Of w.toNat) (rs2Of w.toNat)) = w := by
  rw [encode, ← h₃, ← h₇]
  exact rType_fields h₀

/-- Decoding makes nothing up. -/
lemma spells_of_decode? (h : decode? w = some i) : i.Canonical ∧ Spells w i := by
  have hexact (hi : i.Canonical ∧ encode i = w) : i.Canonical ∧ Spells w i :=
    ⟨hi.1, hi.2 ▸ spells_encode i⟩
  cases hop : Opcode.ofBits? (field w.toNat 0 7) with
  | none => simp [decode?, hop] at h
  | some opcode =>
    have h₀ := Opcode.ofBits?_eq_some_iff.mp hop
    simp only [decode?, hop] at h
    cases opcode with
    | lui =>
        obtain rfl := Option.some.inj h
        exact hexact ⟨immU_lt _, uType_immU h₀⟩
    | auipc =>
        obtain rfl := Option.some.inj h
        exact hexact ⟨immU_lt _, uType_immU h₀⟩
    | jal =>
        obtain rfl := Option.some.inj h
        exact hexact ⟨⟨immJ_even _, immJ_range _⟩, jType_fields h₀⟩
    | jalr =>
        simp only [Option.ite_none_right_eq_some, Option.some.injEq] at h
        obtain ⟨h₃, rfl⟩ := h
        refine hexact ⟨immI_range _, ?_⟩
        rw [encode, ← h₃]
        exact iType_fields h₀ (slice_immI _)
    | branch =>
        obtain ⟨cond, hcond, rfl⟩ := Option.map_eq_some_iff.mp h
        rw [BranchCond.ofFunct3?_eq_some_iff] at hcond
        refine hexact ⟨⟨immB_even _, immB_range _⟩, ?_⟩
        rw [encode, ← hcond]
        exact bType_fields h₀
    | load =>
        obtain ⟨kind, hkind, rfl⟩ := Option.map_eq_some_iff.mp h
        rw [LoadKind.ofFunct3?_eq_some_iff] at hkind
        refine hexact ⟨immI_range _, ?_⟩
        rw [encode, ← hkind]
        exact iType_fields h₀ (slice_immI _)
    | store =>
        obtain ⟨kind, hkind, rfl⟩ := Option.map_eq_some_iff.mp h
        rw [StoreKind.ofFunct3?_eq_some_iff] at hkind
        refine hexact ⟨immS_range _, ?_⟩
        rw [encode, ← hkind]
        exact sType_fields h₀
    | opImm => exact hexact (encode_of_readsOpImm false h₀ (decodeOpImm?_eq_some_iff.mp h))
    | opImm32 => exact hexact (encode_of_readsOpImm true h₀ (decodeOpImm32?_eq_some_iff.mp h))
    | op =>
        obtain ⟨op, hcode, rfl⟩ := Option.map_eq_some_iff.mp h
        obtain ⟨hword, h₃, h₇⟩ := RegOp.double?_eq_some_iff.mp hcode
        exact hexact ⟨trivial, encode_of_reg (by simpa [hword] using h₀) h₃ h₇⟩
    | op32 =>
        obtain ⟨op, hcode, rfl⟩ := Option.map_eq_some_iff.mp h
        obtain ⟨hword, h₃, h₇⟩ := RegOp.word?_eq_some_iff.mp hcode
        exact hexact ⟨trivial, encode_of_reg (by simpa [hword] using h₀) h₃ h₇⟩
    | miscMem =>
        dsimp only at h
        split at h
        · next h₃ =>
          obtain rfl := Option.some.inj h
          exact ⟨trivial, (spells_fence_iff (Or.inl rfl)).mpr ⟨h₀, h₃⟩⟩
        · next h₃ =>
          obtain rfl := Option.some.inj h
          exact ⟨trivial, (spells_fence_iff (Or.inr rfl)).mpr ⟨h₀, h₃⟩⟩
        · cases h
    | system => exact hexact (encode_of_decodeSystem? h₀ h)
    | amo => exact spells_of_decodeAmo? h₀ h

/-- **What a word decodes to.**  It is the canonical instruction that the word spells, if any. -/
lemma decode?_eq_some_iff : decode? w = some i ↔ i.Canonical ∧ Spells w i := by
  refine ⟨spells_of_decode?, fun ⟨hcanon, hs⟩ => ?_⟩
  have hencode := decode?_of_encode_eq hcanon rfl
  -- Instructions that depend on every bit are the rule; the others are decoded as if encoded.
  cases i with
  | fence =>
      obtain ⟨h₀, h₃⟩ : field w.toNat 0 7 = Opcode.miscMem.bits ∧ funct3Of w.toNat = 0 :=
        (spells_fence_iff (Or.inl rfl)).mp hs
      simp only [decode?, h₀, Opcode.ofBits?_bits, h₃]
  | fenceI =>
      obtain ⟨h₀, h₃⟩ : field w.toNat 0 7 = Opcode.miscMem.bits ∧ funct3Of w.toNat = 1 :=
        (spells_fence_iff (Or.inr rfl)).mp hs
      simp only [decode?, h₀, Opcode.ofBits?_bits, h₃]
  | loadReserved kind rd rs1 =>
      have h₀ := (fields_atomic rd kind rs1 Reg.zero (by decide : 2 < 2 ^ 5) rfl).1
      exact (decode?_of_spells_atomic hs (fun _ => id) h₀).trans hencode
  | storeConditional kind rd rs1 rs2 =>
      have h₀ := (fields_atomic rd kind rs1 rs2 (by decide : 3 < 2 ^ 5) rfl).1
      exact (decode?_of_spells_atomic hs (fun _ => id) h₀).trans hencode
  | amo op kind rd rs1 rs2 =>
      have h₀ := (fields_atomic rd kind rs1 rs2 op.funct5_lt rfl).1
      exact (decode?_of_spells_atomic hs (fun _ => id) h₀).trans hencode
  | _ => exact decode?_of_encode_eq hcanon (hs.eq fun _ => id)

lemma decode_eq_ok_iff : decode w = .ok i ↔ decode? w = some i := by
  rw [decode]
  split <;> simp_all

/-- **Decoding and encoding are inverse.**  Every canonical instruction is decoded from its
    encoding.  A word decodes to an instruction exactly if the instruction is canonical and its
    encoding is the word, but for the bits that mean nothing; all other words are illegal. -/
theorem decode_encode_inverse :
    (∀ i : Instruction, i.Canonical → decode (encode i) = .ok i) ∧
    ∀ w : UInt32,
      (∀ i : Instruction, decode w = .ok i ↔ i.Canonical ∧ Spells w i) ∧
      ((¬∃ i, decode w = .ok i) → decode w = .error (.illegalInstruction w)) := by
  refine ⟨fun i hcanon => decode_eq_ok_iff.mpr (decode?_of_encode_eq hcanon rfl), fun w => ⟨?_, ?_⟩⟩
  · intro i
    rw [decode_eq_ok_iff, decode?_eq_some_iff]
  · intro hnone
    rw [decode]
    split
    · next i hi => exact absurd ⟨i, decode_eq_ok_iff.mpr hi⟩ hnone
    · rfl

end Instruction
end Rv64Board
