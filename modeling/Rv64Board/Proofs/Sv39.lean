import Mathlib.Data.Nat.Bitwise
import Rv64Board.Proofs.Walk

/-!
# Sv39, declaratively

What a virtual address means, said in numbers: addresses and entries are natural numbers, fields are
quotients and remainders, flags are bits.  Nothing here is computed the way the hart computes it.

* `Memory.doubleword?` — the number that eight bytes of memory stand for.
* `IsPointer`, `IsLeaf`, `Permits` — the entries of a page table.
* `Meets` — the entries that the walk of an address comes to, level by level from the root.
* `Translates` — what an address is translated to.

The second half of the file leads from the hart's words to these numbers, one lemma for each piece
of the walk: `toNat_index`, `toNat_page`, `canonical_iff`, `isPointer_iff`, `isLeaf_iff`,
`permits_iff`, `toNat_physical`.
-/

namespace Rv64Board

/-- The number held by the eight bytes from an address on, if they all belong to memory. -/
def Memory.doubleword? (m : Memory) (address : Nat) : Option Nat :=
  if m.base.toNat ≤ address ∧ address + 8 ≤ m.base.toNat + m.size.toNat then
    some (LittleEndian.ofBytes (m.slice (address - m.base.toNat) 8))
  else none

namespace Sv39

/-! ## Addresses and entries -/

/-- Bits 39 to 63 of an address repeat bit 38. -/
def Canonical (va : Nat) : Prop :=
  ∀ i, 39 ≤ i → i < 64 → va.testBit i = va.testBit 38

/-- The nine bits of an address that select an entry at a level. -/
def vpn (va level : Nat) : Nat := va / 2 ^ 12 / 2 ^ (9 * level) % 2 ^ 9

/-- The physical page number of an entry. -/
def ppn (pte : Nat) : Nat := pte / 2 ^ 10 % 2 ^ 44

/-- An entry that leads to another table: valid, not readable, writable or executable, and with
    bits 54 to 63 clear. -/
structure IsPointer (pte : Nat) : Prop where
  valid : pte.testBit 0 = true
  notReadable : pte.testBit 1 = false
  notWritable : pte.testBit 2 = false
  notExecutable : pte.testBit 3 = false
  reserved : pte < 2 ^ 54

/-- An entry that leads to a page: valid, readable or executable, writable only if readable, and
    with bits 54 to 63 clear. -/
structure IsLeaf (pte : Nat) : Prop where
  valid : pte.testBit 0 = true
  page : pte.testBit 1 = true ∨ pte.testBit 3 = true
  writable : pte.testBit 2 = true → pte.testBit 1 = true
  reserved : pte < 2 ^ 54

/-- The entry grants this kind of access.  `mxr` is the switch by which executable pages can be
    read. -/
def Grants (mxr : Prop) (pte : Nat) : Access → Prop
  | .fetch => pte.testBit 3 = true
  | .load => pte.testBit 1 = true ∨ pte.testBit 3 = true ∧ mxr
  | .store => pte.testBit 2 = true

/-- The entry belongs to the level that makes the access: a user page to the user, and to the
    supervisor for data if `sum` is on; any other page to the supervisor. -/
def Owned (sum : Prop) (pte : Nat) (access : Access) : Privilege → Prop
  | .user => pte.testBit 4 = true
  | _ => pte.testBit 4 = true → access ≠ .fetch ∧ sum

/-- The entry permits an access from a level, with the switches of the status register: bit 18 for
    `sum` and bit 19 for `mxr`. -/
def Permits (status pte : Nat) (access : Access) (level : Privilege) : Prop :=
  Grants (status.testBit 19 = true) pte access ∧ Owned (status.testBit 18 = true) pte access level

/-- The page number of an entry with its low bits replaced by those of the address, followed by the
    offset within the page. -/
def physical (pte va level : Nat) : Nat :=
  (ppn pte / 2 ^ (9 * level) * 2 ^ (9 * level) + va / 2 ^ 12 % 2 ^ (9 * level)) * 2 ^ 12 +
    va % 2 ^ 12

/-! ## The walk -/

/-- `Meets m va levels page level entry`: starting at the table in page `page`, with `levels` levels
    to go, the walk of `va` comes to the entry at address `entry`, which is one of level `level`.
    Beyond the first entry it goes through pointers only. -/
inductive Meets (m : Memory) (va : Nat) : Nat → Nat → Nat → Nat → Prop
  | here (levels page : Nat) :
    Meets m va (levels + 1) page levels (page * 2 ^ 12 + vpn va levels * 8)
  | through {levels page level entry pte : Nat} :
    m.doubleword? (page * 2 ^ 12 + vpn va levels * 8) = some pte → IsPointer pte →
      Meets m va levels (ppn pte) level entry → Meets m va (levels + 1) page level entry

/-- The root table of a hart. -/
def root (h : Hart) : Nat := h.csrs.satp.toNat % 2 ^ 44

/-- The walk of an address ends at a leaf. -/
def EndsAt (h : Hart) (m : Memory) (va level entry pte : Nat) : Prop :=
  Canonical va ∧ Meets m va 3 (root h) level entry ∧ m.doubleword? entry = some pte ∧ IsLeaf pte

/-- An access of the hart to the virtual address `va` goes to the physical address `pa`. -/
def Translates (h : Hart) (m : Memory) (access : Access) (va pa : Nat) : Prop :=
  ∃ level entry pte, EndsAt h m va level entry pte ∧
    Permits h.csrs.mstatus.bits.toNat pte access (h.effectiveLevel access) ∧
    ppn pte % 2 ^ (9 * level) = 0 ∧ pa = physical pte va level

/-- An access of the hart comes to an entry that lies neither in memory nor in a device. -/
def Strays (h : Hart) (b : Bus) (va : Nat) : Prop :=
  Canonical va ∧ ∃ level entry, Meets b.ram va 3 (root h) level entry ∧
    b.contains (UInt64.ofNat entry) 8 = false

lemma Meets.level_lt {m : Memory} {va levels page level entry : Nat}
    (h : Meets m va levels page level entry) : level < levels := by
  induction h with
  | here levels page => omega
  | through _ _ _ ih => omega

lemma ppn_lt (pte : Nat) : ppn pte < 2 ^ 44 := Nat.mod_lt _ (by decide)

lemma vpn_lt (va level : Nat) : vpn va level < 2 ^ 9 := Nat.mod_lt _ (by decide)

lemma root_lt (h : Hart) : root h < 2 ^ 44 := Nat.mod_lt _ (by decide)

/-! ## From words to numbers -/

/-- A flag of a word is a bit of its number. -/
lemma flag_eq_testBit (x mask : UInt64) (k : Nat) (hmask : mask.toNat = 2 ^ k) :
    (x &&& mask != 0) = x.toNat.testBit k := by
  have hand : (x &&& mask).toNat = (x.toNat.testBit k).toNat * 2 ^ k := by
    rw [UInt64.toNat_and, hmask, Nat.and_two_pow]
  rw [Bool.eq_iff_iff, bne_iff_ne, Ne, ← UInt64.toNat_inj, hand]
  cases x.toNat.testBit k <;> simp

/-- A switch of the status register is a bit of its number. -/
lemma test_eq_testBit (s : Mstatus) (mask : UInt64) (k : Nat) (hmask : mask.toNat = 2 ^ k) :
    s.test mask = s.bits.toNat.testBit k := by
  have hand : (s.bits &&& mask).toNat = (s.bits.toNat.testBit k).toNat * 2 ^ k := by
    rw [UInt64.toNat_and, hmask, Nat.and_two_pow]
  rw [Mstatus.test, Bool.eq_iff_iff, beq_iff_eq, ← UInt64.toNat_inj, hand, hmask]
  have hpos : 0 ≠ 2 ^ k := (Nat.two_pow_pos k).ne
  cases s.bits.toNat.testBit k <;> simp [hpos]

/-- Shifting by a distance below the width and keeping low bits. -/
lemma toNat_field (x : UInt64) (shift : UInt64) (mask : UInt64) (k n : Nat)
    (hshift : shift.toNat = k) (hk : k < 64) (hmask : mask.toNat = 2 ^ n - 1) :
    ((x >>> shift) &&& mask).toNat = x.toNat / 2 ^ k % 2 ^ n := by
  rw [UInt64.toNat_and, UInt64.toNat_shiftRight, hshift, hmask, Nat.mod_eq_of_lt hk,
    Nat.and_two_pow_sub_one_eq_mod, Nat.shiftRight_eq_div_pow]

lemma toNat_index (address : UInt64) {depth : Nat} (hdepth : depth < 3) :
    (Paging.index address depth).toNat = vpn address.toNat depth := by
  have hshift : (UInt64.ofNat (12 + 9 * depth)).toNat = 12 + 9 * depth :=
    UInt64.toNat_ofNat_of_lt' (by rw [UInt64.size]; omega)
  rw [Paging.index, toNat_field address _ _ _ 9 hshift (by omega) rfl, vpn, Nat.pow_add,
    Nat.div_div_eq_div_mul]

lemma toNat_page (p : Pte) : p.page.toNat = ppn p.bits.toNat :=
  toNat_field p.bits _ _ 10 44 rfl (by decide) rfl

lemma toNat_rootPage (h : Hart) : h.csrs.rootPage.toNat = root h := by
  rw [CsrFile.rootPage, UInt64.toNat_and]
  exact Nat.and_two_pow_sub_one_eq_mod _ 44

/-- The address of an entry, which is too small to wrap around. -/
lemma toNat_entry (page address : UInt64) {depth : Nat} (hdepth : depth < 3)
    (hpage : page.toNat < 2 ^ 44) :
    (page * 0x1000 + Paging.index address depth * 8).toNat =
      page.toNat * 2 ^ 12 + vpn address.toNat depth * 8 := by
  have hvpn := vpn_lt address.toNat depth
  rw [← toNat_index address hdepth] at hvpn ⊢
  simp only [UInt64.toNat_add, UInt64.toNat_mul, UInt64.reduceToNat]
  omega

lemma canonical_iff (address : UInt64) :
    Paging.canonical address = true ↔ Canonical address.toNat := by
  have hlt : address.toNat / 2 ^ 38 < 2 ^ 26 := by
    have := address.toNat_lt
    omega
  have hbit (i : Nat) : (address.toNat / 2 ^ 38).testBit i = address.toNat.testBit (i + 38) :=
    Nat.testBit_div_two_pow _ _
  have htop : (address >>> 38).toNat = address.toNat / 2 ^ 38 := by
    rw [UInt64.toNat_shiftRight, Nat.shiftRight_eq_div_pow]
    rfl
  have hcode : Paging.canonical address = true ↔
      address.toNat / 2 ^ 38 = 0 ∨ address.toNat / 2 ^ 38 = 2 ^ 26 - 1 := by
    rw [Paging.canonical, Bool.or_eq_true, beq_iff_eq, beq_iff_eq, ← UInt64.toNat_inj,
      ← UInt64.toNat_inj, htop]
    rfl
  rw [hcode]
  constructor
  · intro h i hlow hhigh
    obtain ⟨k, rfl⟩ : ∃ k, i = k + 38 := ⟨i - 38, by omega⟩
    rw [← hbit k, show (38 : Nat) = 0 + 38 from rfl, ← hbit 0]
    rcases h with h | h <;> rw [h]
    · rw [Nat.zero_testBit, Nat.zero_testBit]
    · have hk : k < 26 := by omega
      rw [Nat.testBit_two_pow_sub_one, Nat.testBit_two_pow_sub_one, decide_eq_true hk]
      rfl
  · intro h
    have hall (i : Nat) (hi : i < 26) :
        (address.toNat / 2 ^ 38).testBit i = address.toNat.testBit 38 := by
      rw [hbit]
      rcases Nat.eq_zero_or_pos i with rfl | hpos
      · rw [Nat.zero_add]
      · exact h _ (by omega) (by omega)
    have hnone (i : Nat) (hi : ¬i < 26) : (address.toNat / 2 ^ 38).testBit i = false :=
      Nat.testBit_lt_two_pow
        (Nat.lt_of_lt_of_le hlt (Nat.pow_le_pow_right (by decide) (Nat.le_of_not_lt hi)))
    cases hsign : address.toNat.testBit 38 with
    | false =>
        left
        refine Nat.eq_of_testBit_eq fun i => ?_
        rw [Nat.zero_testBit]
        by_cases hi : i < 26
        · rw [hall i hi, hsign]
        · exact hnone i hi
    | true =>
        right
        refine Nat.eq_of_testBit_eq fun i => ?_
        rw [Nat.testBit_two_pow_sub_one]
        by_cases hi : i < 26
        · rw [hall i hi, hsign, decide_eq_true hi]
        · rw [hnone i hi, decide_eq_false hi]

/-! ### Entries -/

lemma malformed_eq_false_iff (p : Pte) :
    p.malformed = false ↔ p.bits.toNat.testBit 0 = true ∧
      (p.bits.toNat.testBit 2 = true → p.bits.toNat.testBit 1 = true) ∧ p.bits.toNat < 2 ^ 54 := by
  have hhigh : (p.bits >>> 54 != 0) = false ↔ p.bits.toNat < 2 ^ 54 := by
    rw [bne_eq_false_iff_eq, ← UInt64.toNat_inj, UInt64.toNat_shiftRight,
      Nat.shiftRight_eq_div_pow]
    exact Nat.div_eq_zero_iff_lt (by decide)
  rw [Pte.malformed, Bool.or_eq_false_iff, hhigh, Pte.valid, Pte.writable, Pte.readable,
    flag_eq_testBit _ _ 0 rfl, flag_eq_testBit _ _ 2 rfl, flag_eq_testBit _ _ 1 rfl]
  cases p.bits.toNat.testBit 0 <;> cases p.bits.toNat.testBit 1 <;>
    cases p.bits.toNat.testBit 2 <;> simp

lemma isLeaf_eq_true_iff (p : Pte) :
    p.isLeaf = true ↔ p.bits.toNat.testBit 1 = true ∨ p.bits.toNat.testBit 3 = true := by
  rw [Pte.isLeaf, Pte.readable, Pte.executable, flag_eq_testBit _ _ 1 rfl,
    flag_eq_testBit _ _ 3 rfl, Bool.or_eq_true]

lemma isPointer_iff (p : Pte) :
    IsPointer p.bits.toNat ↔ p.malformed = false ∧ p.isLeaf = false := by
  rw [malformed_eq_false_iff, Bool.eq_false_iff, Ne, isLeaf_eq_true_iff]
  constructor
  · rintro ⟨hv, hr, hw, hx, hlt⟩
    refine ⟨⟨hv, fun hw' => absurd hw' (by simp [hw]), hlt⟩, ?_⟩
    simp [hr, hx]
  · rintro ⟨⟨hv, hw, hlt⟩, hleaf⟩
    rw [not_or, Bool.not_eq_true, Bool.not_eq_true] at hleaf
    refine ⟨hv, hleaf.1, ?_, hleaf.2, hlt⟩
    rw [hleaf.1] at hw
    simpa using hw

lemma isLeaf_iff (p : Pte) :
    IsLeaf p.bits.toNat ↔ p.malformed = false ∧ p.isLeaf = true := by
  rw [malformed_eq_false_iff, isLeaf_eq_true_iff]
  exact ⟨fun h => ⟨⟨h.valid, h.writable, h.reserved⟩, h.page⟩,
    fun h => ⟨h.1.1, h.2, h.1.2.1, h.1.2.2⟩⟩

lemma permits_iff (p : Pte) (status : Mstatus) (access : Access) (level : Privilege) :
    p.permits status access level = true ↔
      Permits status.bits.toNat p.bits.toNat access level := by
  have hgrants : p.allows status access = true ↔
      Grants (status.bits.toNat.testBit 19 = true) p.bits.toNat access := by
    cases access <;>
      simp [Pte.allows, Grants, Pte.executable, Pte.readable, Pte.writable,
        flag_eq_testBit _ 0x08 3 rfl, flag_eq_testBit _ 0x02 1 rfl, flag_eq_testBit _ 0x04 2 rfl,
        test_eq_testBit _ Mstatus.mxr 19 rfl]
  have howned : p.opens status access level = true ↔
      Owned (status.bits.toNat.testBit 18 = true) p.bits.toNat access level := by
    cases level <;>
      simp [Pte.opens, Owned, Pte.user, flag_eq_testBit _ 0x10 4 rfl,
        test_eq_testBit _ Mstatus.sum 18 rfl] <;>
      cases p.bits.toNat.testBit 4 <;> simp
  rw [Pte.permits, Bool.and_eq_true, hgrants, howned, Permits]

/-! ### Pages -/

lemma toNat_pageMask {depth : Nat} (hdepth : depth < 3) :
    (Paging.pageMask depth).toNat = 2 ^ (9 * depth) - 1 := by
  obtain rfl | rfl | rfl : depth = 0 ∨ depth = 1 ∨ depth = 2 := by omega
  all_goals rfl

lemma misaligned_eq_false_iff (p : Pte) {depth : Nat} (hdepth : depth < 3) :
    (p.page &&& Paging.pageMask depth != 0) = false ↔
      ppn p.bits.toNat % 2 ^ (9 * depth) = 0 := by
  rw [bne_eq_false_iff_eq, ← UInt64.toNat_inj, UInt64.toNat_and, toNat_pageMask hdepth, toNat_page,
    Nat.and_two_pow_sub_one_eq_mod]
  rfl

/-- Clearing the lowest bits of a word. -/
lemma toNat_and_not (x mask : UInt64) (k : Nat) (hmask : mask.toNat = 2 ^ k - 1) :
    (x &&& ~~~mask).toNat = x.toNat / 2 ^ k * 2 ^ k := by
  have hnot : (~~~mask).toNat = 2 ^ 64 - (mask.toNat + 1) := by
    rw [UInt64.toNat_not, Nat.sub_sub, Nat.add_comm]
    rfl
  rw [UInt64.toNat_and, hnot]
  refine Nat.eq_of_testBit_eq fun i => ?_
  rw [Nat.testBit_and, Nat.testBit_two_pow_sub_succ mask.toNat_lt, hmask,
    Nat.testBit_two_pow_sub_one, Nat.testBit_mul_two_pow, Nat.testBit_div_two_pow]
  by_cases hi : i < k
  · rw [decide_eq_true hi, decide_eq_false (Nat.not_le.mpr hi)]
    simp
  · rw [decide_eq_false hi, decide_eq_true (Nat.le_of_not_lt hi),
      Nat.sub_add_cancel (Nat.le_of_not_lt hi)]
    by_cases hwidth : i < 64
    · simp [hwidth]
    · have hnone : x.toNat.testBit i = false := Nat.testBit_lt_two_pow
        (Nat.lt_of_lt_of_le x.toNat_lt (Nat.pow_le_pow_right (by decide) (Nat.le_of_not_lt hwidth)))
      simp [hnone]

/-- Numbers with no bits in common are put together by addition. -/
lemma mul_two_pow_or {b k : Nat} (hb : b < 2 ^ k) (a : Nat) : a * 2 ^ k ||| b = a * 2 ^ k + b := by
  rw [← Nat.shiftLeft_eq, Nat.shiftLeft_add_eq_or_of_lt hb]

lemma toNat_physical (p : Pte) {depth : Nat} (hdepth : depth < 3) (address : UInt64) :
    (Paging.physical p depth address).toNat = physical p.bits.toNat address.toNat depth := by
  have hmask := toNat_pageMask hdepth
  have hlow : address.toNat / 2 ^ 12 % 2 ^ (9 * depth) < 2 ^ (9 * depth) :=
    Nat.mod_lt _ (Nat.two_pow_pos _)
  have hoffset : (address &&& 0xFFF).toNat = address.toNat % 2 ^ 12 := by
    rw [UInt64.toNat_and]
    exact Nat.and_two_pow_sub_one_eq_mod _ 12
  have hpage : ((p.page &&& ~~~(Paging.pageMask depth)) |||
      ((address >>> 12) &&& Paging.pageMask depth)).toNat =
      ppn p.bits.toNat / 2 ^ (9 * depth) * 2 ^ (9 * depth) +
        address.toNat / 2 ^ 12 % 2 ^ (9 * depth) := by
    rw [UInt64.toNat_or, toNat_and_not _ _ _ hmask, toNat_page,
      toNat_field address 12 _ 12 (9 * depth) rfl (by decide) hmask, mul_two_pow_or hlow]
  -- the page number has 44 bits, also after the address has supplied its lowest ones
  have hbound : ppn p.bits.toNat / 2 ^ (9 * depth) * 2 ^ (9 * depth) +
      address.toNat / 2 ^ 12 % 2 ^ (9 * depth) < 2 ^ 44 := by
    have hppn := ppn_lt p.bits.toNat
    obtain rfl | rfl | rfl : depth = 0 ∨ depth = 1 ∨ depth = 2 := by omega
    all_goals omega
  have hin : address.toNat % 2 ^ 12 < 2 ^ 12 := Nat.mod_lt _ (by decide)
  rw [Paging.physical, UInt64.toNat_or, UInt64.toNat_mul, hpage, hoffset, physical,
    ← mul_two_pow_or hin]
  congr 1
  exact Nat.mod_eq_of_lt (by rw [show (0x1000 : UInt64).toNat = 2 ^ 12 from rfl]; omega)

/-! ### Memory -/

lemma contains_iff (m : Memory) (address : UInt64) (len : Nat) :
    m.contains address len = true ↔
      m.base.toNat ≤ address.toNat ∧ address.toNat + len ≤ m.base.toNat + m.size.toNat := by
  rw [Memory.contains, Bool.and_eq_true, decide_eq_true_eq, decide_eq_true_eq,
    UInt64.le_iff_toNat_le]
  constructor
  · rintro ⟨hle, hfit⟩
    rw [UInt64.toNat_sub_of_le _ _ (UInt64.le_iff_toNat_le.mpr hle)] at hfit
    omega
  · rintro ⟨hle, hfit⟩
    rw [UInt64.toNat_sub_of_le _ _ (UInt64.le_iff_toNat_le.mpr hle)]
    omega

/-- **A doubleword of memory is what is loaded there.** -/
lemma doubleword?_eq_some_iff (m : Memory) (address : UInt64) (n : Nat) :
    m.doubleword? address.toNat = some n ↔
      m.contains address 8 = true ∧ (m.load address .double).toNat = n := by
  rw [Memory.doubleword?]
  by_cases hc : m.contains address 8 = true
  · have hoffset : m.offset address = address.toNat - m.base.toNat := by
      have := Memory.base_add_offset hc
      omega
    rw [if_pos ((contains_iff m address 8).mp hc), Memory.toNat_load, hoffset]
    simp [hc, Width.bytes]
  · rw [if_neg (fun h => hc ((contains_iff m address 8).mpr h))]
    simp [hc]

end Sv39

end Rv64Board
