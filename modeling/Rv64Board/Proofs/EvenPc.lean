import Rv64Board.Proofs.CompressedForms
import Rv64Board.Proofs.Histories
import Rv64Board.Proofs.MarkedTables

/-!
# The program counter is even

Instructions are two or four bytes long and start at even addresses.  That takes all the ways in
which the program counter moves: over an instruction, by the offset of a jump or a branch, to an
address from a register, to a handler, and back to where a trap came from.

* `Instruction.successor` — where an instruction leads, with `execute_pc` to say that it does.
* `Hart.EvenPc` — the program counter and the two registers that can become it are even.  The three
  depend on each other: a trap saves the first, a return takes it back.
* `even_step` — **a step keeps them even,** from what is known of the offsets that a fetched
  instruction can have (`fetch_ok`).
* `Hart.InOnePage` — two bytes in one page, translated by one entry.  For the parcels of an
  instruction this is so because they start at even addresses (`inOnePage_of_even`).
-/

namespace Rv64Board

/-! ## Where an instruction leads -/

/-- The address of the next instruction, after one of `len` bytes that completes. -/
def Instruction.successor (h : Hart) (len : UInt64) : Instruction → UInt64
  | .jal _ offset => h.pc + UInt64.ofInt offset
  | .jalr _ rs1 offset => (h.get rs1 + UInt64.ofInt offset) &&& ~~~1
  | .branch cond rs1 rs2 offset =>
    if cond.holds (h.get rs1) (h.get rs2) then h.pc + UInt64.ofInt offset else h.pc + len
  | .mret => h.csrs.mepc
  | .sret => h.csrs.sepc
  | _ => h.pc + len

namespace Board

lemma jump_pc {target : UInt64} {b b' : Board} (hx : jump target b = .ok () b') :
    b'.hart.pc = target := by
  cases hx
  rfl

/-- Most instructions end with a jump. -/
lemma bind_jump_pc {α : Type} {x : EStateM Exception Board α} {target : UInt64} {b b' : Board}
    (hx : (x >>= fun _ => jump target) b = .ok () b') : b'.hart.pc = target := by
  obtain ⟨_, t, _, hjump⟩ := bind_eq_ok hx
  exact jump_pc hjump

/-- **An instruction that completes leads to its successor.** -/
lemma execute_pc {i : Instruction} {raw : UInt32} {len : UInt64} {b b' : Board}
    (hx : execute i raw len b = .ok () b') : b'.hart.pc = i.successor b.hart len := by
  unfold execute at hx
  rw [getHart_bind] at hx
  cases i with
  | lui | auipc | jal | jalr | opImm | opReg | csrReg | csrImm | store | loadReserved
  | storeConditional | amo => exact bind_jump_pc hx
  | load =>
      obtain ⟨v, t, _, hx⟩ := bind_eq_ok hx
      exact bind_jump_pc hx
  | fence | fenceI => exact jump_pc hx
  | ecall | ebreak => cases hx
  | branch cond rs1 rs2 offset =>
      simp only [Instruction.successor]
      simp only at hx
      split at hx
      · rw [jump_pc hx, if_pos (by assumption)]
      · rw [jump_pc hx, if_neg (by assumption)]
  | wfi | sfenceVma =>
      simp only at hx
      split at hx
      · cases hx
      · exact jump_pc hx
  | mret | sret =>
      simp only at hx
      split at hx
      · cases hx
      · cases hx
        rfl

end Board

/-! ## Even addresses -/

/-- An address that an instruction can start at. -/
def EvenAddress (x : UInt64) : Prop := x.toNat % 2 = 0

instance (x : UInt64) : Decidable (EvenAddress x) := inferInstanceAs (Decidable (x.toNat % 2 = 0))

namespace EvenAddress

variable {x y : UInt64}

lemma add (hx : EvenAddress x) (hy : EvenAddress y) : EvenAddress (x + y) := by
  rw [EvenAddress] at hx hy ⊢
  rw [UInt64.toNat_add]
  omega

lemma ofInt {offset : Int} (h : offset % 2 = 0) : EvenAddress (UInt64.ofInt offset) := by
  rw [EvenAddress, UInt64.ofInt, UInt64.toNat_ofNat']
  omega

lemma masked {mask : UInt64} (hmask : EvenAddress mask) (x : UInt64) :
    EvenAddress (x &&& mask) := by
  rw [EvenAddress] at hmask ⊢
  rw [UInt64.toNat_and, ← Nat.pow_one 2, Nat.and_mod_two_pow, Nat.pow_one, hmask, Nat.and_zero]

lemma toNat_succ (hx : EvenAddress x) : (x + 1).toNat = x.toNat + 1 := by
  rw [EvenAddress] at hx
  have hlt := x.toNat_lt
  rw [UInt64.toNat_add]
  simp only [UInt64.reduceToNat]
  omega

lemma page_succ (hx : EvenAddress x) : (x + 1).toNat / 2 ^ 12 = x.toNat / 2 ^ 12 := by
  rw [hx.toNat_succ]
  rw [EvenAddress] at hx
  omega

end EvenAddress

/-- The registers that a return can continue at are even. -/
structure CsrFile.EvenReturns (f : CsrFile) : Prop where
  mepc : EvenAddress f.mepc
  sepc : EvenAddress f.sepc

/-- The program counter is even, and stays so over a return. -/
structure Hart.EvenPc (h : Hart) : Prop where
  pc : EvenAddress h.pc
  returns : h.csrs.EvenReturns

namespace CsrFile

/-- What is written to these registers loses its lowest bit. -/
lemma EvenReturns.writeRegister {f : CsrFile} (hf : f.EvenReturns) (r : Csr.Register)
    (value : UInt64) : (f.writeRegister r value).EvenReturns := by
  cases r with
  | mepc => exact { hf with mepc := EvenAddress.masked (by decide) value }
  | sepc => exact { hf with sepc := EvenAddress.masked (by decide) value }
  | satp =>
      simp only [CsrFile.writeRegister]
      split <;> exact { hf with }
  | member family i => cases family <;> exact { hf with }
  | _ => exact { hf with }

lemma EvenReturns.write {f : CsrFile} (hf : f.EvenReturns) (c : Csr) (value : UInt64) :
    (f.write c value).EvenReturns := by
  rw [CsrFile.write]
  split
  · exact hf.writeRegister _ value
  · exact hf

end CsrFile

namespace Hart

lemma even_handler (tvec : UInt64) (t : Trap) : EvenAddress (handler tvec t) := by
  have hbase : EvenAddress (tvec &&& ~~~3) := EvenAddress.masked (by decide) tvec
  cases t with
  | exception e => exact hbase
  | interrupt i =>
      simp only [handler]
      split
      · exact hbase.add (by cases i <;> decide)
      · exact hbase

variable {h : Hart}

lemma EvenPc.trap (hh : h.EvenPc) (t : Trap) : (h.trap t).EvenPc := by
  rw [Hart.trap]
  split
  · exact ⟨even_handler _ t, hh.returns.mepc, hh.pc⟩
  · exact ⟨even_handler _ t, hh.pc, hh.returns.sepc⟩

/-! ## Fetched instructions -/

lemma ofExcept_eq_ok {α : Type} {x : Except Exception α} {a : α} {b c : Bus}
    (hx : ofExcept x b = .ok a c) : x = .ok a ∧ c = b := by
  cases x with
  | error e => cases hx
  | ok a => cases hx; exact ⟨rfl, rfl⟩

/-- **An instruction is fetched in one parcel or in two.** -/
lemma fetch_ok {b c : Bus} {f : Fetched} (hf : h.fetch b = .ok f c) :
    ∃ low t, h.fetchHalf h.pc b = .ok low t ∧
      ((f.len = 2 ∧ c = t ∧ f.raw = low.toUInt32 ∧
          Instruction.decodeCompressed low = .ok f.instruction) ∨
        f.len = 4 ∧ ∃ high, h.fetchHalf (h.pc + 2) t = .ok high c ∧
          f.raw = low.toUInt32 ||| high.toUInt32 <<< 16 ∧
          Instruction.decode f.raw = .ok f.instruction) := by
  unfold fetch at hf
  obtain ⟨low, t, hlow, hf⟩ := bind_eq_ok hf
  refine ⟨low, t, hlow, ?_⟩
  split at hf
  · obtain ⟨i, u, hi, hpure⟩ := bind_eq_ok hf
    obtain ⟨hdecode, rfl⟩ := ofExcept_eq_ok hi
    cases hpure
    exact Or.inl ⟨rfl, rfl, rfl, hdecode⟩
  · obtain ⟨high, u, hhigh, hf⟩ := bind_eq_ok hf
    obtain ⟨i, v, hi, hpure⟩ := bind_eq_ok hf
    obtain ⟨hdecode, rfl⟩ := ofExcept_eq_ok hi
    cases hpure
    exact Or.inr ⟨rfl, high, hhigh, rfl, hdecode⟩

/-- Either way it is canonical, and its length is even. -/
lemma canonical_of_fetch {b c : Bus} {f : Fetched} (hf : h.fetch b = .ok f c) :
    f.instruction.Canonical ∧ EvenAddress f.len := by
  obtain ⟨low, t, _, ⟨hlen, _, _, hdecode⟩ | ⟨hlen, high, _, _, hdecode⟩⟩ := fetch_ok hf
  · rw [hlen]
    exact ⟨Instruction.canonical_of_decodeCompressed hdecode, by decide⟩
  · rw [hlen]
    have hword := Instruction.decode?_eq_some_iff.mp (Instruction.decode_eq_ok_iff.mp hdecode)
    exact ⟨hword.1, by decide⟩

end Hart

/-- **What a canonical instruction leads to is even.** -/
lemma Instruction.even_successor {i : Instruction} (hi : i.Canonical) {h : Hart} (hh : h.EvenPc)
    {len : UInt64} (hlen : EvenAddress len) : EvenAddress (i.successor h len) := by
  cases i with
  | jal rd offset => exact hh.pc.add (EvenAddress.ofInt hi.1)
  | jalr rd rs1 offset => exact EvenAddress.masked (by decide) _
  | branch cond rs1 rs2 offset =>
      simp only [successor]
      split
      · exact hh.pc.add (EvenAddress.ofInt hi.1)
      · exact hh.pc.add hlen
  | mret => exact hh.returns.mepc
  | sret => exact hh.returns.sepc
  | _ => exact hh.pc.add hlen

/-! ## Steps -/

namespace Board

lemma evenReturns_execute {i : Instruction} {raw : UInt32} {len : UInt64} {b b' : Board}
    (hx : execute i raw len b = .ok () b') (hb : b.hart.csrs.EvenReturns) :
    b'.hart.csrs.EvenReturns := by
  rcases execute_ok_cases hx with hsame | ⟨_, hret⟩ | ⟨_, hret⟩ | ⟨csr, value, _, hwrite, _⟩
  · rwa [hsame.csrs]
  · rw [hret]
    exact { hb with }
  · rw [hret]
    exact { hb with }
  · rw [hwrite]
    exact hb.write csr value

lemma even_executeNext {b b' : Board} {i : Instruction} (hx : executeNext b = .ok i b')
    (hb : b.hart.EvenPc) : b'.hart.EvenPc := by
  obtain ⟨f, bus, hfetch, rfl, hexec⟩ := executeNext_fetched hx
  obtain ⟨hcanonical, hlen⟩ := Hart.canonical_of_fetch hfetch
  refine ⟨?_, evenReturns_execute hexec hb.returns⟩
  rw [execute_pc hexec]
  exact Instruction.even_successor hcanonical hb hlen

lemma even_step {b : Board} (hb : b.hart.EvenPc) : b.step.2.hart.EvenPc := by
  refine hart_step (P := Hart.EvenPc) ?_ ?_ ?_ ?_ hb
  · intro h t hh
    exact hh.trap t
  · intro h hh
    rw [retire_eq]
    exact ⟨hh.pc, { hh.returns with }⟩
  · intro h bus lines hh
    rw [ticked_eq]
    exact ⟨hh.pc, { hh.returns with }⟩
  · intro i b₁ hx
    exact even_executeNext hx hb

end Board

/-- A program starts at a page. -/
lemma Hart.evenPc_atReset {base : UInt64} (hbase : base.toNat % pageSize = 0) :
    (Hart.atReset base).EvenPc := by
  have hpage : base.toNat % 4096 = 0 := hbase
  refine ⟨?_, rfl, rfl⟩
  show base.toNat % 2 = 0
  omega

lemma Machine.Reachable.evenPc {m : Machine} (hm : m.Reachable) : m.board.hart.EvenPc :=
  hm.hart_induction (fun _ => Board.even_step)
    (fun _ _ hnew => Hart.evenPc_atReset (aligned_of_new hnew))
    fun _ hm => Hart.evenPc_atReset hm.aligned_base

/-! ## Two addresses in one page -/

namespace Paging

variable {a a' : UInt64} (hp : a'.toNat / 2 ^ 12 = a.toNat / 2 ^ 12)
include hp

lemma index_of_page {depth : Nat} (hdepth : depth < 3) : index a' depth = index a depth := by
  rw [← UInt64.toNat_inj, Sv39.toNat_index a' hdepth, Sv39.toNat_index a hdepth,
    Sv39.vpn_eq_of_page_eq hp]

lemma canonical_of_page (hc : canonical a = true) : canonical a' = true := by
  rw [Sv39.canonical_iff] at hc ⊢
  exact hc.of_page_eq hp

/-- **The walks of two addresses in one page read the same entries,** wherever the tables are. -/
lemma locate_of_page {access : Access} {depth : Nat} {table : UInt64} {b c : Bus} {leaf : Leaf}
    (hdepth : depth ≤ 3) (h : locate access a depth table b = .ok leaf c) :
    locate access a' depth table b = .ok leaf c := by
  induction depth generalizing table b with
  | zero => cases h
  | succ depth ih =>
      obtain ⟨bits, t, hread, hrest⟩ := bind_eq_ok h
      rw [adaptExcept_eq_ok, ← index_of_page hp (by omega)] at hread
      rw [locate, bind_run_ok (adaptExcept_eq_ok.mpr hread)]
      simp only at hrest ⊢
      split at hrest
      · cases hrest
      · next hformed =>
        rw [if_neg hformed]
        split at hrest
        · next hpointer =>
          rw [if_pos hpointer]
          exact ih (by omega) hrest
        · next hleaf =>
          rw [if_neg hleaf, index_of_page hp (by omega)]
          exact hrest

omit hp in
/-- The verdict on a leaf depends on the address only in where it leads. -/
lemma settle_ok {status : Mstatus} {level : Privilege} {update : Bool} {access : Access}
    {pa : UInt64} {leaf : Leaf} {b c : Bus}
    (h : settle status level update access a leaf b = .ok pa c) (a' : UInt64) :
    pa = physical leaf.pte leaf.depth a ∧
      settle status level update access a' leaf b =
        .ok (physical leaf.pte leaf.depth a') c := by
  unfold settle at h ⊢
  split at h
  · cases h
  · next hpermits =>
    rw [if_neg hpermits]
    split at h
    · next hmark =>
      obtain ⟨_, t, hwrite, hpure⟩ := bind_eq_ok h
      cases hpure
      rw [if_pos hmark]
      exact ⟨rfl, bind_run_ok (adaptExcept_eq_ok.mpr (adaptExcept_eq_ok.mp hwrite)) _⟩
    · next hmark =>
      rw [if_neg hmark]
      cases h
      exact ⟨rfl, rfl⟩

end Paging

namespace Hart

variable {h : Hart} {access : Access} {a a' pa : UInt64} {b c : Bus} {leaf : Paging.Leaf}

lemma Finds.of_page (hp : a'.toNat / 2 ^ 12 = a.toNat / 2 ^ 12) (hf : h.Finds access a b leaf c) :
    h.Finds access a' b leaf c :=
  ⟨hf.1, Paging.canonical_of_page hp hf.2.1, Paging.locate_of_page hp (by decide) hf.2.2⟩

/-- **Two addresses in one page are translated by the same entry.** -/
lemma translate_of_page (hpaged : h.Paged access) (hp : a'.toNat / 2 ^ 12 = a.toNat / 2 ^ 12)
    (ht : h.translate access a b = .ok pa c) :
    ∃ leaf t, h.Finds access a b leaf t ∧ pa = Paging.physical leaf.pte leaf.depth a ∧
      h.translate access a' b = .ok (Paging.physical leaf.pte leaf.depth a') c := by
  rw [translate, physicalAddress_of_paged hpaged] at ht ⊢
  split at ht
  · next hcanonical =>
    obtain ⟨leaf, t, hlocate, hsettle⟩ := bind_eq_ok ht
    obtain ⟨hpa, hother⟩ := Paging.settle_ok hsettle a'
    refine ⟨leaf, t, ⟨hpaged, hcanonical, hlocate⟩, hpa, ?_⟩
    rw [if_pos (Paging.canonical_of_page hp hcanonical),
      bind_run_ok (Paging.locate_of_page hp (by decide) hlocate)]
    exact hother
  · cases ht

/-! ## Parcels -/

/-- The two bytes from an address on are in one page, so whatever the tables say, the walks of both
    end at the same entry, and they are translated to two bytes in a row. -/
structure InOnePage (h : Hart) (a : UInt64) : Prop where
  fits : a.toNat % pageSize + 2 ≤ pageSize
  sameEntry : ∀ b leaf c, h.Finds .fetch a b leaf c ↔ h.Finds .fetch (a + 1) b leaf c
  translated : ∀ b pa c,
    h.translate .fetch a b = .ok pa c ↔ h.translate .fetch (a + 1) b = .ok (pa + 1) c

/-- A parcel is read where its address is translated to. -/
def FetchesParcel (h : Hart) (a : UInt64) (b : Bus) (parcel : UInt16) (c : Bus) : Prop :=
  ∃ pa t value, h.translate .fetch a b = .ok pa t ∧ Bus.read pa .half t = .ok value c ∧
    parcel = value.toUInt16

/-- An instruction comes from the parcel at the program counter, or from that one and the next. -/
def FetchedInParcels (h : Hart) (b : Bus) (f : Fetched) (c : Bus) : Prop :=
  (∃ low, h.FetchesParcel h.pc b low c ∧ f.len = 2 ∧ f.raw = low.toUInt32) ∨
    ∃ low t high, h.FetchesParcel h.pc b low t ∧ h.FetchesParcel (h.pc + 2) t high c ∧
      f.len = 4 ∧ f.raw = low.toUInt32 ||| high.toUInt32 <<< 16

lemma fetchHalf_ok {parcel : UInt16} (hf : h.fetchHalf a b = .ok parcel c) :
    h.FetchesParcel a b parcel c := by
  obtain ⟨pa, t, ht, hf⟩ := bind_eq_ok hf
  obtain ⟨value, u, hread, hpure⟩ := bind_eq_ok hf
  cases hpure
  exact ⟨pa, t, value, ht, adaptExcept_eq_ok.mp hread, rfl⟩

lemma fetchedInParcels {f : Fetched} (hf : h.fetch b = .ok f c) : h.FetchedInParcels b f c := by
  obtain ⟨low, t, hlow, ⟨hlen, rfl, hraw, _⟩ | ⟨hlen, high, hhigh, hraw, _⟩⟩ := fetch_ok hf
  · exact Or.inl ⟨low, fetchHalf_ok hlow, hlen, hraw⟩
  · exact Or.inr ⟨low, t, high, fetchHalf_ok hlow, fetchHalf_ok hhigh, hlen, hraw⟩

/-- The byte after an even address is the next one of its page, and of any page that this page is
    translated to. -/
lemma physical_succ (ha : EvenAddress a) (p : Pte) {depth : Nat} (hdepth : depth < 3) :
    Paging.physical p depth (a + 1) = Paging.physical p depth a + 1 := by
  have hpage := ha.page_succ
  rw [ha.toNat_succ] at hpage
  have hnext : (Paging.physical p depth (a + 1)).toNat =
      (Paging.physical p depth a).toNat + 1 := by
    rw [Sv39.toNat_physical p hdepth, Sv39.toNat_physical p hdepth, ha.toNat_succ,
      Sv39.physical_add hpage]
  have hlt := (Paging.physical p depth (a + 1)).toNat_lt
  rw [← UInt64.toNat_inj, UInt64.toNat_add, hnext]
  simp only [UInt64.reduceToNat]
  omega

/-- **A parcel at an even address is within one page.** -/
lemma inOnePage_of_even (ha : EvenAddress a) (h : Hart) : h.InOnePage a where
  fits := by
    have hmod : a.toNat % 2 = 0 := ha
    have hrest : a.toNat % 4096 < 4096 := Nat.mod_lt _ (by decide)
    show a.toNat % 4096 + 2 ≤ 4096
    omega
  sameEntry b leaf c := ⟨Finds.of_page ha.page_succ, Finds.of_page ha.page_succ.symm⟩
  translated b pa c := by
    by_cases hpaged : h.Paged .fetch
    · constructor
      · intro ht
        obtain ⟨leaf, t, hf, rfl, hnext⟩ := translate_of_page hpaged ha.page_succ ht
        rw [hnext, physical_succ ha _ (Paging.locate_ok hf.2.2).1]
      · intro ht
        obtain ⟨leaf, t, hf, hpa, hfirst⟩ := translate_of_page hpaged ha.page_succ.symm ht
        rw [physical_succ ha _ (Paging.locate_ok hf.2.2).1] at hpa
        rw [hfirst, (UInt64.add_left_inj 1).mp hpa]
    · rw [translate, translate, physicalAddress_of_not_paged hpaged,
        physicalAddress_of_not_paged hpaged]
      simp

end Hart

namespace Machine

/-- **The program counter is always even,** and so are the registers that a return continues at, in
    every machine that the host can come to.  So each parcel of an instruction is within one page,
    and it is read where the entry of that page leads. -/
theorem pc_even {m : Machine} (hm : m.Reachable) :
    m.board.hart.EvenPc ∧
    (∀ a ∈ [m.board.hart.pc, m.board.hart.pc + 2], m.board.hart.InOnePage a) ∧
    ∀ b f c, m.board.hart.fetch b = .ok f c → m.board.hart.FetchedInParcels b f c := by
  have heven := hm.evenPc
  refine ⟨heven, ?_, fun b f c => Hart.fetchedInParcels⟩
  intro a ha
  simp only [List.mem_cons, List.not_mem_nil, or_false] at ha
  rcases ha with rfl | rfl
  · exact Hart.inOnePage_of_even heven.pc _
  · exact Hart.inOnePage_of_even (heven.pc.add (by decide)) _

/-- Machine level turns paging on, with a root table in the image that gives a gigabyte to the user.
    It puts an instruction of four bytes across the border of two pages and returns to it, by an odd
    address. -/
def crossingImage : List UInt8 :=
  [0x0180006F, 0, 0, 0, 0x2000001F, 0, 0x00100513, 0x03F51513, 0x000805B7, 0x00B56533, 0x18051073,
    0x00001597, 0xFD358593, 0x00150637, 0x51360613, 0xFEC5AFA3, 0x34159073,
    0x30200073].flatMap (LittleEndian.toBytes 4)

/-- A machine with two pages of memory, once this program has come to user level. -/
def crossing : Machine :=
  (ofConfig { MachineConfig.default with ramSize := 0x2000 }).after
    [.load crossingImage, .runFor 13]

lemma crossing_state :
    crossing.board.hart.pc = 0x80000FFE ∧ crossing.board.hart.privilege = .user ∧
    crossing.board.hart.csrs.sv39Enabled = true ∧
    (crossing.board.hart.fetch.run' crossing.board.bus).map Hart.Fetched.raw =
      some 0x00150513 := by
  decide +kernel

/-- The instruction that the user is at has one parcel in each page. -/
theorem crossing_pc_even :
    crossing.board.hart.pc = 0x80000FFE ∧ crossing.board.hart.privilege = .user ∧
    crossing.board.hart.csrs.sv39Enabled = true ∧
    (∃ f c, crossing.board.hart.fetch crossing.board.bus = .ok f c ∧ f.raw = 0x00150513 ∧
      crossing.board.hart.FetchedInParcels crossing.board.bus f c) ∧
    crossing.board.hart.EvenPc ∧ crossing.board.hart.InOnePage 0x80000FFE ∧
    crossing.board.hart.InOnePage 0x80001000 := by
  have hreached : crossing.Reachable :=
    (reachable_ofConfig (by decide +kernel)).after (by decide)
  obtain ⟨hpc, huser, hpaging, hraw⟩ := crossing_state
  obtain ⟨heven, hpages, hparcels⟩ := pc_even hreached
  rw [hpc] at hpages
  obtain ⟨f, hrun, hraw⟩ := Option.map_eq_some_iff.mp hraw
  obtain ⟨c, hfetch⟩ := run'_eq_some hrun
  exact ⟨hpc, huser, hpaging, ⟨f, c, hfetch, hraw, hparcels _ f c hfetch⟩, heven,
    hpages _ (by decide), hpages _ (by decide)⟩

end Machine

end Rv64Board
