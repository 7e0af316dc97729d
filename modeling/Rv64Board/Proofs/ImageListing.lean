import Mathlib.Data.List.Chain
import Rv64Board.Assembly
import Rv64Board.Disassembly
import Rv64Board.Proofs.Histories
import Rv64Board.Proofs.InstructionCodec
import Rv64Board.Proofs.PowerCycle
import Rv64Board.Proofs.StraightAccess

/-!
# What a listing shows is what is executed

A listing and the hart cut an image into instructions independently of each other.  Here they are
shown to cut it at the same places and to find the same instructions.

* `Parcel` — the bits of one instruction, of either length.
* `parcel_induction` — **an image is a row of parcels and an incomplete rest,** so what a listing
  shows follows one parcel at a time (`disassemble_parcel`).
* `Tiles` — lines that stand in a row and take up an image, as those of every listing do
  (`tiles_disassemble`).
* `disassemble_image` — an assembled program is listed as it was written.
* `fetch_disassemble` — **at machine level, the hart fetches what a listing of its memory shows.**
* `Machine.listing_agrees_with_hart` — all of this, for machines with an image loaded.
-/

namespace Rv64Board

open LittleEndian

/-! ## Parcels -/

namespace Instruction

lemma lengthOf_eq (w : UInt32) : lengthOf w = if w.toNat % 4 = 3 then 4 else 2 := by
  have hmod : (w &&& 3).toNat = w.toNat % 4 := by
    rw [UInt32.toNat_and]
    exact Nat.and_two_pow_sub_one_eq_mod w.toNat 2
  have hiff : w &&& 3 = 3 ↔ w.toNat % 4 = 3 := by
    rw [← UInt32.toNat_inj, hmod]
    rfl
  simp only [lengthOf, hiff]

lemma lengthOf_eq_four {w : UInt32} : lengthOf w = 4 ↔ w.toNat % 4 = 3 := by
  rw [lengthOf_eq]
  split <;> simp_all

lemma lengthOf_cases (w : UInt32) : lengthOf w = 2 ∨ lengthOf w = 4 := by
  rw [lengthOf_eq]
  split
  · exact Or.inr rfl
  · exact Or.inl rfl

end Instruction

/-- Two numbers put side by side. -/
lemma toNat_or_shiftLeft {low high k : UInt32} (hk : k.toNat < 32)
    (hlow : low.toNat < 2 ^ k.toNat) (hhigh : high.toNat * 2 ^ k.toNat < 2 ^ 32) :
    (low ||| high <<< k).toNat = low.toNat + 2 ^ k.toNat * high.toNat := by
  rw [UInt32.toNat_or, UInt32.toNat_shiftLeft, Nat.mod_eq_of_lt hk, Nat.mod_eq_of_lt, Nat.or_comm,
    ← Nat.shiftLeft_add_eq_or_of_lt hlow, Nat.shiftLeft_eq]
  · ring
  · rwa [Nat.shiftLeft_eq]

lemma toNat_half (b0 b1 : UInt8) : (half b0 b1).toNat = ofBytes [b0, b1] := by
  have h0 := b0.toNat_lt
  have h1 := b1.toNat_lt
  have height : (8 : UInt32).toNat = 8 := rfl
  rw [half, toNat_or_shiftLeft (by decide)] <;> rw [height, UInt8.toNat_toUInt32]
  · simp [ofBytes]
  · exact h0
  · omega

lemma half_lt (b0 b1 : UInt8) : (half b0 b1).toNat < 2 ^ 16 := by
  rw [toNat_half]
  exact Nat.lt_of_lt_of_eq (ofBytes_lt [b0, b1]) (by simp)

lemma toNat_halves (b0 b1 b2 b3 : UInt8) :
    (half b0 b1 ||| half b2 b3 <<< 16).toNat = ofBytes [b0, b1, b2, b3] := by
  have hhigh := half_lt b2 b3
  have hsixteen : (16 : UInt32).toNat = 16 := rfl
  rw [toNat_or_shiftLeft (by decide) (half_lt b0 b1), hsixteen, toNat_half, toNat_half]
  · simp only [ofBytes]
    omega
  · rw [hsixteen]
    omega

/-- The first bits tell the length. -/
lemma lengthOf_halves (b0 b1 b2 b3 : UInt8) :
    Instruction.lengthOf (half b0 b1 ||| half b2 b3 <<< 16) =
      Instruction.lengthOf (half b0 b1) := by
  have hmod : ofBytes [b0, b1, b2, b3] % 4 = ofBytes [b0, b1] % 4 := by
    simp only [ofBytes]
    omega
  rw [Instruction.lengthOf_eq, Instruction.lengthOf_eq, toNat_halves, toNat_half, hmod]

/-- The bits of one instruction.  A short one has no more than sixteen. -/
structure Parcel where
  raw : UInt32
  fits : raw.toNat < 256 ^ (Instruction.lengthOf raw).toNat

namespace Parcel

/-- The bytes of an instruction in an image. -/
def bytes (p : Parcel) : List UInt8 :=
  toBytes (Instruction.lengthOf p.raw).toNat p.raw.toNat

lemma length_bytes (p : Parcel) : p.bytes.length = (Instruction.lengthOf p.raw).toNat :=
  length_toBytes _ _

lemma ofBytes_bytes (p : Parcel) : ofBytes p.bytes = p.raw.toNat := by
  rw [bytes, ofBytes_toBytes, Nat.shiftLeft_eq, Nat.one_mul, Nat.pow_mul]
  exact Nat.mod_eq_of_lt p.fits

/-- The instruction that a row of bytes stands for. -/
lemma exists_bytes {raw : UInt32} {bs : List UInt8} (hraw : raw.toNat = ofBytes bs)
    (hlength : (Instruction.lengthOf raw).toNat = bs.length) : ∃ p : Parcel, p.bytes = bs := by
  have hfits : raw.toNat < 256 ^ (Instruction.lengthOf raw).toNat := by
    rw [hraw, hlength]
    exact ofBytes_lt bs
  refine ⟨⟨raw, hfits⟩, ?_⟩
  rw [bytes, hlength, hraw, toBytes_ofBytes]

/-- **An instruction takes two bytes or four,** as its first two say. -/
lemma halves (p : Parcel) :
    (∃ b0 b1, p.bytes = [b0, b1] ∧ p.raw = half b0 b1 ∧ Instruction.lengthOf (half b0 b1) = 2) ∨
      ∃ b0 b1 b2 b3, p.bytes = [b0, b1, b2, b3] ∧ p.raw = half b0 b1 ||| half b2 b3 <<< 16 ∧
        Instruction.lengthOf (half b0 b1) = 4 := by
  have hlength := p.length_bytes
  have hraw := p.ofBytes_bytes
  rcases Instruction.lengthOf_cases p.raw with htwo | hfour
  · rw [htwo] at hlength
    match hbytes : p.bytes, hlength with
    | [b0, b1], _ =>
        rw [hbytes, ← toNat_half, UInt32.toNat_inj] at hraw
        exact Or.inl ⟨b0, b1, rfl, hraw.symm, hraw ▸ htwo⟩
  · rw [hfour] at hlength
    match hbytes : p.bytes, hlength with
    | [b0, b1, b2, b3], _ =>
        rw [hbytes, ← toNat_halves, UInt32.toNat_inj] at hraw
        refine Or.inr ⟨b0, b1, b2, b3, rfl, hraw.symm, ?_⟩
        rw [← lengthOf_halves b0 b1 b2 b3, hraw, hfour]

end Parcel

/-- Bytes that are no whole instruction: fewer than two, or fewer than four that start a long
    one. -/
def Incomplete : List UInt8 → Prop
  | b0 :: b1 :: rest => rest.length < 2 ∧ Instruction.lengthOf (half b0 b1) = 4
  | _ => True

/-- **An image is a row of instructions and an incomplete rest.** -/
@[elab_as_elim]
lemma parcel_induction {motive : List UInt8 → Prop} (rest : ∀ bs, Incomplete bs → motive bs)
    (parcel : ∀ (p : Parcel) bs, motive bs → motive (p.bytes ++ bs)) : ∀ image, motive image
  | [] | [_] => rest _ trivial
  | b0 :: b1 :: bs => by
      -- the first two bytes tell how many belong to the parcel
      rcases Instruction.lengthOf_cases (half b0 b1) with htwo | hfour
      · obtain ⟨p, hp⟩ := Parcel.exists_bytes (toNat_half b0 b1) (by rw [htwo]; rfl)
        have hmotive := parcel p bs (parcel_induction rest parcel bs)
        rwa [hp] at hmotive
      · match bs with
        | [] | [_] => exact rest _ ⟨by simp, hfour⟩
        | b2 :: b3 :: bs =>
            obtain ⟨p, hp⟩ := Parcel.exists_bytes (toNat_halves b0 b1 b2 b3)
              (by rw [lengthOf_halves, hfour]; rfl)
            have hmotive := parcel p bs (parcel_induction rest parcel bs)
            rwa [hp] at hmotive
termination_by image => image.length

/-! ## Listings -/

section Listing

variable (address : UInt64)

lemma disassemble_incomplete {rest : List UInt8} (h : Incomplete rest) :
    disassemble address rest = [] := by
  match rest, h with
  | [], _ | [_], _ => rfl
  | [_, _], ⟨_, hfour⟩ | [_, _, _], ⟨_, hfour⟩ => simp [disassemble, disassembleOnto, hfour]

/-- **A listing has a line for each instruction,** at the address where it stands. -/
lemma disassemble_parcel (p : Parcel) (rest : List UInt8) :
    disassemble address (p.bytes ++ rest) =
      Line.ofBits address p.raw :: disassemble (address + Instruction.lengthOf p.raw) rest := by
  obtain ⟨b0, b1, hbytes, hraw, htwo⟩ | ⟨b0, b1, b2, b3, hbytes, hraw, hfour⟩ := p.halves
  · have hshort : Instruction.lengthOf (half b0 b1) ≠ 4 := by
      rw [htwo]
      decide
    rw [hbytes, hraw, htwo]
    exact disassemble_short address rest hshort
  · rw [hbytes, hraw, lengthOf_halves, hfour]
    exact disassemble_long address b2 b3 rest hfour

end Listing

/-- The bytes that a line was read from. -/
def Line.bytes (l : Line) : List UInt8 := toBytes l.size.toNat l.raw.toNat

/-- The lines stand in a row, from a base on, and take up an image. -/
structure Tiles (base : UInt64) (image : List UInt8) (lines : List Line) : Prop where
  /-- Nothing is left over but an incomplete instruction at the end. -/
  covers : ∃ rest, image = lines.flatMap Line.bytes ++ rest ∧ Incomplete rest
  sizes : ∀ l ∈ lines, l.size = 2 ∨ l.size = 4
  first : ∀ l ∈ lines.head?, l.address = base
  next : lines.IsChain fun l l' => l'.address.toNat = l.address.toNat + l.size.toNat
  ends : 2 * lines.length ≤ image.length

namespace Tiles

variable {base : UInt64} {image : List UInt8} {lines : List Line}

lemma nil (h : Incomplete image) : Tiles base image [] where
  covers := ⟨image, rfl, h⟩
  sizes := by simp
  first := by simp
  next := List.IsChain.nil
  ends := Nat.zero_le _

/-- A line in front of a tiling, where there is room for it. -/
lemma cons (p : Parcel) (hroom : base.toNat + (p.bytes ++ image).length < 2 ^ 64)
    (h : Tiles (base + Instruction.lengthOf p.raw) image lines) :
    Tiles base (p.bytes ++ image) (Line.ofBits base p.raw :: lines) := by
  have hsize := Instruction.lengthOf_cases p.raw
  have hlength := p.length_bytes
  rw [List.length_append, hlength] at hroom
  refine ⟨?_, ?_, ?_, ?_, ?_⟩
  · obtain ⟨rest, hcovers, hrest⟩ := h.covers
    refine ⟨rest, ?_, hrest⟩
    rw [List.flatMap_cons, List.append_assoc, ← hcovers]
    rfl
  · rw [List.forall_mem_cons]
    exact ⟨hsize, h.sizes⟩
  · simp [Line.ofBits]
  · refine List.isChain_cons.mpr ⟨fun l hl => ?_, h.next⟩
    rw [h.first l hl, UInt64.toNat_add]
    exact Nat.mod_eq_of_lt (by omega)
  · have htwo : 2 ≤ p.bytes.length := by
      rw [hlength]
      rcases hsize with htwo | hfour
      · rw [htwo]
        decide
      · rw [hfour]
        decide
    have hends := h.ends
    rw [List.length_cons, List.length_append]
    omega

end Tiles

/-- **The lines of a listing tile the image.** -/
lemma tiles_disassemble (base : UInt64) (image : List UInt8)
    (hroom : base.toNat + image.length < 2 ^ 64) : Tiles base image (disassemble base image) := by
  induction image using parcel_induction generalizing base with
  | rest bs hrest =>
      rw [disassemble_incomplete base hrest]
      exact Tiles.nil hrest
  | parcel p bs ih =>
      rw [disassemble_parcel]
      refine Tiles.cons p hroom (ih _ ?_)
      rw [List.length_append, p.length_bytes] at hroom
      rw [UInt64.toNat_add]
      exact Nat.lt_of_le_of_lt (Nat.add_le_add_right (Nat.mod_le _ _) _) (by omega)

/-! ## Programs -/

/-- A word that decodes is long. -/
lemma Instruction.lengthOf_of_decode? {w : UInt32} {i : Instruction} (h : decode? w = some i) :
    lengthOf w = 4 := by
  rw [lengthOf_eq_four]
  cases hop : Opcode.ofBits? (Bits.field w.toNat 0 7) with
  | none => simp [decode?, hop] at h
  | some opcode =>
      have hbits := Opcode.ofBits?_eq_some_iff.mp hop
      have hmod : opcode.bits % 4 = 3 := by cases opcode <;> decide
      rw [← hbits, Bits.field_eq] at hmod
      omega

lemma Instruction.lengthOf_encode {i : Instruction} (h : i.Canonical) : lengthOf i.encode = 4 :=
  lengthOf_of_decode? (decode?_of_encode_eq h rfl)

lemma Line.ofBits_encode (address : UInt64) {i : Instruction} (h : i.Canonical) :
    ofBits address i.encode = ⟨address, i.encode, some i⟩ := by
  have hdecode : Instruction.decodeParcel i.encode = .ok (i, 4) := by
    rw [Instruction.decodeParcel, Instruction.lengthOf_encode h, if_neg (by decide),
      Instruction.decode_eq_ok_iff.mpr (Instruction.decode?_of_encode_eq h rfl)]
    rfl
  rw [ofBits, hdecode]
  rfl

/-- An instruction that has been assembled is listed as it was written. -/
lemma disassemble_encode (address : UInt64) {i : Instruction} (h : i.Canonical)
    (rest : List UInt8) :
    disassemble address (toBytes 4 i.encode.toNat ++ rest) =
      ⟨address, i.encode, some i⟩ :: disassemble (address + 4) rest := by
  have hfour := Instruction.lengthOf_encode h
  have hfits : i.encode.toNat < 256 ^ (Instruction.lengthOf i.encode).toNat := by
    rw [hfour]
    exact i.encode.toNat_lt
  have hlisted := disassemble_parcel address ⟨i.encode, hfits⟩ rest
  rwa [Parcel.bytes, hfour, Line.ofBits_encode address h] at hlisted

/-- **And so is a program.** -/
lemma disassemble_image (base : UInt64) {program : List Instruction}
    (hcanon : ∀ i ∈ program, i.Canonical) :
    disassemble base (Assembly.image program) =
      program.mapIdx fun k i => ⟨base + UInt64.ofNat (4 * k), i.encode, some i⟩ := by
  induction program generalizing base with
  | nil => rfl
  | cons i program ih =>
      obtain ⟨hi, hrest⟩ := List.forall_mem_cons.mp hcanon
      have hfirst : base + UInt64.ofNat (4 * 0) = base := UInt64.add_zero base
      have hnext (k : Nat) :
          base + UInt64.ofNat (4 * (k + 1)) = base + 4 + UInt64.ofNat (4 * k) := by
        rw [Nat.mul_succ, UInt64.ofNat_add, UInt64.add_assoc, UInt64.add_comm 4]
        rfl
      rw [List.mapIdx_cons, hfirst]
      simp only [hnext]
      rw [← ih (base + 4) hrest]
      exact disassemble_encode base hi (Assembly.image program)

/-! ## Fetching -/

namespace Memory

variable {m : Memory} {a : UInt64}

lemma readBytes_eq_ok {n : Nat} {bs : List UInt8} :
    m.readBytes a n = .ok bs ↔ m.contains a n = true ∧ m.slice (m.offset a) n = bs := by
  rw [readBytes]
  split <;> simp_all

/-- A row of bytes is read in two parts. -/
lemma readBytes_append (hm : m.base.toNat + m.size.toNat < 2 ^ 64) {xs ys : List UInt8}
    (h : m.readBytes a (xs ++ ys).length = .ok (xs ++ ys)) :
    m.readBytes a xs.length = .ok xs ∧
      m.readBytes (a + UInt64.ofNat xs.length) ys.length = .ok ys := by
  simp only [readBytes_eq_ok, Sv39.contains_iff, List.length_append] at h ⊢
  obtain ⟨hc, hslice⟩ := h
  have hlength : (UInt64.ofNat xs.length).toNat = xs.length :=
    UInt64.toNat_ofNat_of_lt' (by rw [UInt64.size]; omega)
  -- memory that went up to the last address could have its second part start over at zero
  have hnext : (a + UInt64.ofNat xs.length).toNat = a.toNat + xs.length := by
    rw [UInt64.toNat_add, hlength]
    exact Nat.mod_eq_of_lt (by omega)
  have hoffset : m.offset (a + UInt64.ofNat xs.length) = m.offset a + xs.length := by
    have hhere := base_add_offset ((Sv39.contains_iff m a 0).mpr (by omega))
    have hthere := base_add_offset
      ((Sv39.contains_iff m (a + UInt64.ofNat xs.length) 0).mpr (by omega))
    omega
  rw [slice_append] at hslice
  obtain ⟨hxs, hys⟩ := List.append_inj hslice (length_slice _ _ _)
  rw [hnext, hoffset]
  exact ⟨⟨by omega, hxs⟩, by omega, hys⟩

end Memory

/-- What a fetch of a line answers. -/
def Line.fetched (l : Line) : EStateM Exception Bus Hart.Fetched :=
  match l.instruction with
  | some i => pure ⟨i, l.raw, l.size⟩
  | none => throw (.illegalInstruction l.raw)

namespace Line

lemma fetched_of_some {l : Line} {i : Instruction} {b : Bus} (h : l.instruction = some i) :
    l.fetched b = .ok ⟨i, l.raw, l.size⟩ b := by
  rw [fetched, h]
  rfl

lemma fetched_of_none {l : Line} {b : Bus} (h : l.instruction = none) :
    l.fetched b = .error (.illegalInstruction l.raw) b := by
  rw [fetched, h]
  rfl

variable {address : UInt64} {raw : UInt32}

lemma fetched_short {parcel : UInt16} (hraw : parcel.toUInt32 = raw)
    (h : Instruction.lengthOf raw = 2) :
    (ofBits address raw).fetched = do
      let i ← Hart.ofExcept (Instruction.decodeCompressed parcel)
      return ⟨i, raw, 2⟩ := by
  have hparcel : raw.toUInt16 = parcel := by
    rw [← hraw, UInt16.toUInt16_toUInt32]
  simp only [fetched, ofBits, size, Instruction.decodeParcel, h, if_true, hparcel,
    Instruction.decodeCompressed]
  cases Instruction.decodeCompressed? parcel with
  | none =>
      rw [hraw]
      rfl
  | some i => rfl

lemma fetched_long (h : Instruction.lengthOf raw = 4) :
    (ofBits address raw).fetched = do
      let i ← Hart.ofExcept (Instruction.decode raw)
      return ⟨i, raw, 4⟩ := by
  have hlong : (4 : UInt64) ≠ 2 := by decide
  simp only [fetched, ofBits, size, Instruction.decodeParcel, h, if_neg hlong, Instruction.decode]
  cases Instruction.decode? raw with
  | none => rfl
  | some i => rfl

end Line

namespace Hart

variable {h : Hart} {b : Bus}

/-- At machine level, half an instruction is fetched from where its address says. -/
lemma fetchHalf_of_readBytes (hlevel : h.privilege = .machine) {a : UInt64} {b0 b1 : UInt8}
    (hread : b.ram.readBytes a 2 = .ok [b0, b1]) :
    ∃ parcel, h.fetchHalf a b = .ok parcel b ∧ parcel.toUInt32 = half b0 b1 := by
  obtain ⟨hc, hslice⟩ := Memory.readBytes_eq_ok.mp hread
  have hoff : ¬h.Paged .fetch := fun hpaged => hpaged.1 hlevel
  have htranslate : h.translate .fetch a b = .ok a b := physicalAddress_of_not_paged hoff true a b
  refine ⟨(b.ram.load a .half).toUInt16, ?_, ?_⟩
  · rw [fetchHalf, bind_run_ok htranslate,
      bind_run_ok (adaptExcept_eq_ok.mpr (Bus.read_of_ram (w := .half) hc))]
    rfl
  · have hload := Memory.toNat_load b.ram a .half
    rw [Width.bytes, hslice, ← toNat_half] at hload
    apply UInt32.toNat_inj.mp
    rw [UInt16.toNat_toUInt32, UInt64.toNat_toUInt16, hload]
    exact Nat.mod_eq_of_lt (half_lt b0 b1)

/-- **At machine level, a fetch answers what a listing shows for the same bytes.** -/
lemma fetch_parcel (hm : b.ram.base.toNat + b.ram.size.toNat < 2 ^ 64)
    (hlevel : h.privilege = .machine) {p : Parcel}
    (hread : b.ram.readBytes h.pc p.bytes.length = .ok p.bytes) :
    h.fetch b = (Line.ofBits h.pc p.raw).fetched b := by
  obtain ⟨b0, b1, hbytes, hraw, htwo⟩ | ⟨b0, b1, b2, b3, hbytes, hraw, hfour⟩ := p.halves
  · rw [hbytes] at hread
    obtain ⟨parcel, hfetch, hparcel⟩ := fetchHalf_of_readBytes hlevel hread
    rw [hraw, Line.fetched_short hparcel htwo, fetch, bind_run_ok hfetch, hparcel, if_pos htwo]
  · have hlong : Instruction.lengthOf (half b0 b1) ≠ 2 := by
      rw [hfour]
      decide
    have hread :
        b.ram.readBytes h.pc ([b0, b1] ++ [b2, b3]).length = .ok ([b0, b1] ++ [b2, b3]) := by
      rwa [hbytes] at hread
    obtain ⟨hlow, hhigh⟩ := Memory.readBytes_append hm hread
    obtain ⟨low, hfetch, hparcel⟩ := fetchHalf_of_readBytes hlevel hlow
    obtain ⟨high, hfetch', hparcel'⟩ := fetchHalf_of_readBytes hlevel hhigh
    rw [hraw, Line.fetched_long ((lengthOf_halves b0 b1 b2 b3).trans hfour), fetch,
      bind_run_ok hfetch, hparcel, if_neg hlong]
    refine (bind_run_ok hfetch' _).trans ?_
    rw [hparcel']

end Hart

/-- **At machine level, the hart fetches what a listing of its memory shows.** -/
lemma fetch_disassemble {b : Bus} (hm : b.ram.base.toNat + b.ram.size.toNat < 2 ^ 64)
    {address : UInt64} {image : List UInt8}
    (hread : b.ram.readBytes address image.length = .ok image) {l : Line}
    (hl : l ∈ disassemble address image) {h : Hart} (hlevel : h.privilege = .machine)
    (hpc : h.pc = l.address) : h.fetch b = l.fetched b := by
  induction image using parcel_induction generalizing address with
  | rest bs hrest =>
      rw [disassemble_incomplete address hrest] at hl
      cases hl
  | parcel p bs ih =>
      obtain ⟨hhere, hthere⟩ := Memory.readBytes_append hm hread
      rw [disassemble_parcel] at hl
      rcases List.mem_cons.mp hl with rfl | hl
      · have haddress : h.pc = address := hpc
        rw [← haddress] at hhere ⊢
        exact h.fetch_parcel hm hlevel hhere
      · rw [p.length_bytes, UInt64.ofNat_toNat] at hthere
        exact ih hthere hl

/-- At machine level, the hart fetches what a line shows. -/
def Line.AgreesWith (l : Line) (b : Bus) : Prop :=
  ∀ h : Hart, h.privilege = .machine → h.pc = l.address →
    (∀ i, l.instruction = some i ↔ h.fetch b = .ok ⟨i, l.raw, l.size⟩ b) ∧
      (l.instruction = none ↔ h.fetch b = .error (.illegalInstruction l.raw) b)

lemma agreesWith_of_mem {b : Bus} (hm : b.ram.base.toNat + b.ram.size.toNat < 2 ^ 64)
    {address : UInt64} {image : List UInt8}
    (hread : b.ram.readBytes address image.length = .ok image) {l : Line}
    (hl : l ∈ disassemble address image) : l.AgreesWith b := by
  intro h hlevel hpc
  rw [fetch_disassemble hm hread hl hlevel hpc]
  cases hi : l.instruction with
  | none =>
      rw [Line.fetched_of_none hi]
      simp
  | some i =>
      rw [Line.fetched_of_some hi]
      simp

/-! ## Machines -/

namespace Machine

/-- After a load, the image can be read back from the start of memory. -/
lemma readBytes_of_load {m m' : Machine} {image : List UInt8} (hload : m.load image = .ok m') :
    m'.board.bus.ram.readBytes m.board.bus.ram.base image.length = .ok image := by
  obtain ⟨hfits, rfl⟩ := load_eq_ok hload
  have hin : 0 + image.length ≤ m.board.bus.ram.clear.size.toNat := by
    rw [Nat.zero_add]
    exact hfits
  have hoffset : (m.board.bus.ram.clear.patch 0 image).offset m.board.bus.ram.base = 0 := by
    simp [Memory.offset, Memory.clear, Memory.zeroed]
  rw [Memory.readBytes_eq_ok, hoffset]
  refine ⟨?_, Memory.slice_patch _ hin⟩
  simpa [Memory.contains, Memory.clear, Memory.zeroed] using hfits

/-- Memory is where the description says, after any history. -/
lemma ram_after {c : MachineConfig} {n : Machine} (hnew : Machine.new c = .ok n)
    (history : List HostOp) :
    (n.after history).board.bus.ram.base = c.ramBase ∧
      (n.after history).board.bus.ram.size = c.ramSize := by
  have hsame := sameMap_after n history
  obtain ⟨hbus, _⟩ := MachineConfig.bus_eq_ok (new_eq_ok hnew).2
  rw [hsame.base, hsame.size, hbus]
  exact ⟨rfl, rfl⟩

/-- **A listing shows what the hart executes.**  Where an image has been loaded, the hart at machine
    level fetches at the address of each line the instruction, the bits and the length that the line
    shows, and finds the bits illegal exactly where the line has no instruction.  The lines of every
    image stand in a row and leave nothing out but an incomplete instruction at the end; and those
    of an assembled program are the program, four bytes apart. -/
theorem listing_agrees_with_hart :
    (∀ (c : MachineConfig) (n : Machine) (history : List HostOp) (image : List UInt8),
      Machine.new c = .ok n → image.length ≤ c.ramSize.toNat →
        ∃ m, (n.after history).load image = .ok m ∧
          ∀ l ∈ disassemble c.ramBase image, l.AgreesWith m.board.bus) ∧
    (∀ (base : UInt64) (image : List UInt8), base.toNat + image.length < 2 ^ 64 →
      Tiles base image (disassemble base image)) ∧
    ∀ (base : UInt64) (program : List Instruction), (∀ i ∈ program, i.Canonical) →
      disassemble base (Assembly.image program) =
        program.mapIdx fun k i => ⟨base + UInt64.ofNat (4 * k), i.encode, some i⟩ := by
  refine ⟨fun c n history image hnew hfits => ?_, tiles_disassemble,
    fun base program hcanon => disassemble_image base hcanon⟩
  obtain ⟨hbase, hsize⟩ := ram_after hnew history
  rw [← hsize] at hfits
  obtain ⟨m, hload⟩ := exists_load hfits
  have hread := readBytes_of_load hload
  rw [hbase] at hread
  have hroom : m.board.bus.ram.base.toNat + m.board.bus.ram.size.toNat < 2 ^ 64 := by
    obtain ⟨_, rfl⟩ := load_eq_ok hload
    rw [Memory.base_patch, Memory.size_patch, Memory.clear, Memory.zeroed, hbase, hsize]
    exact room_of_new hnew
  exact ⟨m, hload, fun l hl => agreesWith_of_mem hroom hread hl⟩

/-- Instructions of either length, one that is illegal, and a byte at the end that is none. -/
def mixedImage : List UInt8 :=
  [0x13, 0x05, 0x80, 0x04, 0x05, 0x05, 0x6F, 0x00, 0x00, 0x00, 0x00, 0x00, 0xFF]

/-- A machine that has run before lists and fetches them alike. -/
theorem mixedImage_agrees : ∃ m,
    ((ofConfig { MachineConfig.default with ramSize := 0x1000 }).after [.runFor 3]).load
      mixedImage = .ok m ∧
    (Hart.atReset 0x80000004).fetch m.board.bus =
      .ok ⟨.opImm .addi Reg.a0 Reg.a0 1, 0x0505, 2⟩ m.board.bus ∧
    (Hart.atReset 0x80000006).fetch m.board.bus = .ok ⟨.jal Reg.zero 0, 0x6F, 4⟩ m.board.bus ∧
    (Hart.atReset 0x8000000A).fetch m.board.bus = .error (.illegalInstruction 0) m.board.bus ∧
    Tiles 0x80000000 mixedImage (disassemble 0x80000000 mixedImage) ∧
    disassemble 0x80000000 (Assembly.image [Assembly.nop, Assembly.halt]) =
      [⟨0x80000000, 0x13, some Assembly.nop⟩, ⟨0x80000004, 0x6F, some Assembly.halt⟩] := by
  obtain ⟨hload, htiles, hprogram⟩ := listing_agrees_with_hart
  have hlines : disassemble MachineConfig.default.ramBase mixedImage =
      [⟨0x80000000, 0x04800513, some (.opImm .addi Reg.a0 Reg.zero 72)⟩,
        ⟨0x80000004, 0x0505, some (.opImm .addi Reg.a0 Reg.a0 1)⟩,
        ⟨0x80000006, 0x6F, some (.jal Reg.zero 0)⟩, ⟨0x8000000A, 0, none⟩] := rfl
  obtain ⟨m, hm, hagrees⟩ := hload { MachineConfig.default with ramSize := 0x1000 } _ [.runFor 3]
    mixedImage (new_eq_ofConfig (by decide +kernel)) (by decide)
  simp only [hlines, List.forall_mem_cons] at hagrees
  obtain ⟨_, hshort, hlong, hillegal, _⟩ := hagrees
  refine ⟨m, hm, ((hshort _ rfl rfl).1 _).mp rfl, ((hlong _ rfl rfl).1 _).mp rfl,
    (hillegal _ rfl rfl).2.mp rfl, htiles _ _ (by decide), ?_⟩
  refine hprogram 0x80000000 [Assembly.nop, Assembly.halt] ?_
  simp [Assembly.nop, Assembly.halt, Assembly.j, Instruction.Canonical, ImmOp.isShift]

end Machine

end Rv64Board
