import Rv64Board.Proofs.NumeralTexts
import Rv64Board.Proofs.ParsedTexts

/-!
# Texts of terms

How the literals, registers and the program counter are written in expressions, and how they are
taken off a text.

* `Literal`, `Spells` — how literals and terms are written.
* `sound_parseLiteral`, `sound_parseTerm` — **what is taken as a term is written as one,** whatever
  follows it.
* `parseLiteral_append`, `parseTerm_append` — **a term is taken whole,** if what follows is no
  letter or digit. A name with a digit in front is no term, as no register has such a name.
* `parseLiteral_mark` — a hexadecimal number that does not fit is not refused as a whole.
-/

namespace Rv64Board.Debugger

open Text (Parser DigitOf Numeral)
open Text.Parser

/-! ## The grammar -/

/-- A name: letters and digits, at least one. -/
structure IsName (w : List Char) : Prop where
  nonempty : w ≠ []
  chars : ∀ c ∈ w, c.isAlphanum = true

/-- A literal: a numeral in hexadecimal after its mark, or in decimal, that fits in a word. -/
inductive Literal : List Char → UInt64 → Prop
  | hexadecimal {x : Char} {digits : List Char} {n : Nat} : x = 'x' ∨ x = 'X' →
      Numeral 16 digits n → n < UInt64.size → Literal ('0' :: x :: digits) (UInt64.ofNat n)
  | decimal {digits : List Char} {n : Nat} :
      Numeral 10 digits n → n < UInt64.size → Literal digits (UInt64.ofNat n)

/-- How terms are written. -/
inductive Spells : List Char → Term → Prop
  | literal {w : List Char} {value : UInt64} : Literal w value → Spells w (.literal value)
  | pc {w : List Char} : IsName w → Text.lowercase (String.ofList w) = "pc" → Spells w .pc
  | register {w : List Char} {r : Reg} :
      IsName w → Reg.parse? (String.ofList w) = some r → Spells w (.register r)

variable {c : Char} {cs rest w : List Char}

/-! ## Names -/

lemma isAlphanum_iff : c.isAlphanum = true ↔ 48 ≤ c.toNat ∧ c.toNat ≤ 57 ∨
    65 ≤ c.toNat ∧ c.toNat ≤ 90 ∨ 97 ≤ c.toNat ∧ c.toNat ≤ 122 := by
  have hclasses : c.isAlphanum = (decide (65 ≤ c.val ∧ c.val ≤ 90) ||
      decide (97 ≤ c.val) && decide (c.val ≤ 122) || decide (48 ≤ c.val) && decide (c.val ≤ 57)) :=
    rfl
  simp [hclasses, UInt32.le_iff_toNat_le]
  omega

lemma isDigit_iff : c.isDigit = true ↔ 48 ≤ c.toNat ∧ c.toNat ≤ 57 := by
  simp [Char.isDigit, UInt32.le_iff_toNat_le]

lemma isAlphanum_of_digitOf {radix d : Nat} (hradix : radix ≤ 36) (h : DigitOf radix c d) :
    c.isAlphanum = true := by
  obtain ⟨hd, hdigit⟩ := h
  simp only [Char.reduceToNat] at hdigit
  rw [isAlphanum_iff]
  omega

lemma isName_of_numeral {radix n : Nat} (hradix : radix ≤ 36) (h : Numeral radix w n) :
    IsName w := by
  refine ⟨h.nonempty, fun c hc => ?_⟩
  obtain ⟨d, hd⟩ := h.isDigit c hc
  exact isAlphanum_of_digitOf hradix hd

lemma not_gap_of_letter (hc : c.isAlphanum = true) : isGap c = false := by
  have hne {d : Char} (hd : d.isAlphanum = false) : c ≠ d := by
    rintro rfl
    rw [hc] at hd
    cases hd
  simp [isGap, hne (d := ' ') rfl, hne (d := '\t') rfl, hne (d := '\r') rfl, hne (d := '\n') rfl]

lemma not_letter_of_gap (hc : c ∈ blankChars) : c.isAlphanum = false := by
  by_contra hletter
  rw [← isGap_iff, not_gap_of_letter (eq_true_of_ne_false hletter)] at hc
  cases hc

lemma isBlank_of_letter (hc : c.isAlphanum = true) : Text.isBlank c = false := by
  rw [isAlphanum_iff] at hc
  simp [Text.isBlank]
  omega

/-- There are no blanks to cut off from a name. -/
lemma IsName.trim (hw : IsName w) : Text.trim (String.ofList w) = String.ofList w := by
  have hblank (cs : List Char) (hcs : ∀ c ∈ cs, c ∈ w) : cs.dropWhile Text.isBlank = cs := by
    cases cs with
    | nil => rfl
    | cons c cs =>
        have hc := isBlank_of_letter (hw.chars c (hcs c List.mem_cons_self))
        rw [List.dropWhile_cons_of_neg (by simp [hc])]
  rw [Text.trim, Text.dropBlanksRight, String.toList_ofList, hblank w fun c hc => hc,
    hblank w.reverse fun c hc => List.mem_reverse.mp hc, List.reverse_reverse]

lemma toNat_toLower (c : Char) :
    c.toLower.toNat = if 65 ≤ c.toNat ∧ c.toNat ≤ 90 then c.toNat + 32 else c.toNat := by
  by_cases h : 65 ≤ c.toNat ∧ c.toNat ≤ 90
  · have hlower : c.toLower = ⟨c.val + 32, _⟩ := dif_pos h
    have hsum : (c.val + 32).toNat = (c.toNat + 32) % 2 ^ 32 := UInt32.toNat_add _ _
    rw [hlower, if_pos h]
    exact hsum.trans (Nat.mod_eq_of_lt (by omega))
  · have hlower : c.toLower = c := dif_neg h
    rw [hlower, if_neg h]

lemma lowercase_of_digit (hc : c.isDigit = true) (rest : List Char) :
    Text.lowercase (String.ofList (c :: rest)) = String.ofList (c :: rest.map Char.toLower) := by
  have hlower : c.toLower = c := by
    have hdigit := isDigit_iff.mp hc
    rw [← Char.toNat_inj, toNat_toLower, if_neg (by omega)]
  rw [Text.lowercase, String.toList_ofList, List.map_cons, hlower]

/-- No register has a name that starts with a decimal digit. -/
lemma parse?_of_digit {rest : List Char} (hw : IsName (c :: rest)) (hc : c.isDigit = true) :
    Reg.parse? (String.ofList (c :: rest)) = none := by
  have hnames : ∀ i : Fin 32, (Reg.mk i).name.toList.head?.any Char.isDigit = false := by decide
  have hname : Reg.ofName? (String.ofList (c :: rest.map Char.toLower)) = none := by
    refine List.find?_eq_none.mpr fun r _ heq => ?_
    have hhead := hnames r.index
    rw [beq_iff_eq.mp heq, String.toList_ofList, List.head?_cons, Option.any_some, hc] at hhead
    cases hhead
  rw [Reg.parse?, hw.trim, lowercase_of_digit hc, String.toList_ofList]
  split
  · next hfp =>
    obtain ⟨rfl, -⟩ := List.cons.inj (String.ofList_injective hfp)
    exact absurd hc (by decide)
  · split
    · next hx =>
      obtain ⟨rfl, -⟩ := List.cons.inj hx
      exact absurd hc (by decide)
    · exact hname

/-- A name that starts with a decimal digit stands for nothing. -/
lemma named?_of_digit {rest : List Char} (hw : IsName (c :: rest)) (hc : c.isDigit = true) :
    named? (c :: rest) = none := by
  have hpc : Text.lowercase (String.ofList (c :: rest)) ≠ "pc" := by
    intro hpc
    rw [lowercase_of_digit hc] at hpc
    obtain ⟨rfl, -⟩ := List.cons.inj (String.ofList_injective hpc)
    exact absurd hc (by decide)
  rw [named?, if_neg hpc, parse?_of_digit hw hc, Option.map_none]

lemma parse?_of_pc (hw : IsName w) (h : Text.lowercase (String.ofList w) = "pc") :
    Reg.parse? (String.ofList w) = none := by
  rw [Reg.parse?, hw.trim, h]
  decide

lemma isDigit_of_digitOf {d : Nat} (h : DigitOf 10 c d) : c.isDigit = true := by
  obtain ⟨hd, hdigit⟩ := h
  simp only [Char.reduceToNat] at hdigit
  exact isDigit_iff.mpr (by omega)

/-! ## Terms -/

/-- A text does not go on with a letter or digit. -/
def Ends (cs : List Char) : Prop := cs.head?.any Char.isAlphanum = false

/-- The mark of hexadecimal is taken in either case. -/
lemma tagNoCase_mark_iff {front : List Char} :
    tagNoCase "0x" cs = some (front, rest) ↔
      ∃ x, (x = 'x' ∨ x = 'X') ∧ front = ['0', x] ∧ cs = '0' :: x :: rest := by
  have hzero (c : Char) : c.toLower = '0' ↔ c = '0' := by
    simp only [← Char.toNat_inj, toNat_toLower, Char.reduceToNat]
    split_ifs <;> omega
  have hx (c : Char) : c.toLower = 'x' ↔ c = 'x' ∨ c = 'X' := by
    simp only [← Char.toNat_inj, toNat_toLower, Char.reduceToNat]
    split_ifs <;> omega
  have hmark : "0x".toList.map Char.toLower = ['0', 'x'] := by decide
  have hlength : "0x".length = 2 := by decide
  simp only [tagNoCase, hmark, hlength]
  match cs with
  | [] | [c] => simp
  | c :: x :: cs =>
      simp only [List.take_succ_cons, List.take_zero, List.map_cons, List.map_nil, List.cons.injEq,
        hzero, hx, and_true, Option.ite_none_right_eq_some, Option.some.injEq, Prod.mk.injEq,
        List.drop_succ_cons, List.drop_zero]
      constructor
      · rintro ⟨⟨rfl, hx⟩, rfl, rfl⟩
        exact ⟨x, hx, rfl, rfl, rfl, rfl⟩
      · rintro ⟨_, hx, rfl, rfl, rfl, rfl⟩
        exact ⟨⟨rfl, hx⟩, rfl, rfl⟩

lemma digits1_eq_some_iff {radix : Nat} (hradix : radix ≤ 36) :
    digits1 radix cs = some (w, rest) ↔ cs = w ++ rest ∧ w ≠ [] ∧
      (∀ c ∈ w, ∃ d, DigitOf radix c d) ∧
      rest.head?.any (fun c => (Text.digit? radix c).isSome) = false := by
  simp only [digits1, run1_eq_some_iff, Text.isSome_digit?_iff hradix]

/-- A numeral is taken whole, if what follows is no letter or digit. -/
lemma digits1_append {radix n : Nat} (hradix : radix ≤ 36) (h : Numeral radix w n)
    (hends : Ends rest) : digits1 radix (w ++ rest) = some (w, rest) := by
  refine (digits1_eq_some_iff hradix).mpr ⟨rfl, h.nonempty, h.isDigit, ?_⟩
  cases rest with
  | nil => rfl
  | cons c rest =>
      have hc : c.isAlphanum = false := hends
      rw [List.head?_cons, Option.any_some, Bool.eq_false_iff, ne_eq,
        Text.isSome_digit?_iff hradix]
      rintro ⟨d, hd⟩
      rw [isAlphanum_of_digitOf hradix hd] at hc
      cases hc

section Numbers

variable {radix : Nat} {v : UInt64} (hpos : 0 < radix) (hradix : radix ≤ 36)
include hpos hradix

lemma numeral_of_number? (hdigits : ∀ c ∈ w, ∃ d, DigitOf radix c d)
    (h : number? radix w = some v) :
    ∃ n, Numeral radix w n ∧ n < UInt64.size ∧ v = UInt64.ofNat n := by
  rw [number?] at h
  cases hread : Text.readWord radix (String.ofList w) with
  | error e =>
      rw [hread] at h
      cases h
  | ok v' =>
      rw [hread] at h
      cases h
      obtain ⟨digits, n, hw, hn⟩ := Text.numeral_of_readWord hpos hradix hread
      rw [String.toList_ofList] at hw
      rcases hw with rfl | rfl
      · exact ⟨n, hn⟩
      · obtain ⟨d, hd⟩ := hdigits '+' List.mem_cons_self
        exact absurd hd Text.not_digitOf_plus

lemma number?_of_numeral {n : Nat} (h : Numeral radix w n) (hlt : n < UInt64.size) :
    number? radix w = some (UInt64.ofNat n) := by
  rw [number?, Text.readWord_of_numeral hpos hradix (String.toList_ofList ▸ h) hlt]
  rfl

end Numbers

/-- What is taken as a literal is one. -/
lemma sound_parseLiteral : Sound parseLiteral Literal := by
  intro cs v rest h
  rcases alt_eq_some_iff.mp h with h | ⟨-, h⟩
  · obtain ⟨digits, hdigits, hv⟩ := mapRes_eq_some_iff.mp h
    obtain ⟨_, mid, hmark, hrest⟩ := preceded_eq_some_iff.mp hdigits
    obtain ⟨x, hx, -, rfl⟩ := tagNoCase_mark_iff.mp hmark
    obtain ⟨rfl, -, hchars, -⟩ := (digits1_eq_some_iff (by decide)).mp hrest
    obtain ⟨n, hn, hlt, rfl⟩ := numeral_of_number? (by decide) (by decide) hchars hv
    exact ⟨'0' :: x :: digits, rfl, .hexadecimal hx hn hlt⟩
  · obtain ⟨digits, hdigits, hv⟩ := mapRes_eq_some_iff.mp h
    obtain ⟨rfl, -, hchars, -⟩ := (digits1_eq_some_iff (by decide)).mp hdigits
    obtain ⟨n, hn, hlt, rfl⟩ := numeral_of_number? (by decide) (by decide) hchars hv
    exact ⟨digits, rfl, .decimal hn hlt⟩

/-- Without the mark of hexadecimal, only decimal digits are a literal. -/
lemma parseLiteral_unmarked (h : ∀ x, x = 'x' ∨ x = 'X' → ∀ rest, cs ≠ '0' :: x :: rest) :
    parseLiteral cs = mapRes (digits1 10) (number? 10) cs := by
  have hhex : mapRes (preceded (tagNoCase "0x") (digits1 16)) (number? 16) cs = none := by
    refine Option.eq_none_iff_forall_ne_some.mpr fun taken htaken => ?_
    obtain ⟨_, hdigits, -⟩ := mapRes_eq_some_iff.mp htaken
    obtain ⟨_, _, hmark, -⟩ := preceded_eq_some_iff.mp hdigits
    obtain ⟨x, hx, -, hcs⟩ := tagNoCase_mark_iff.mp hmark
    exact h x hx _ hcs
  rw [parseLiteral, alt, hhex]

/-- **Where no number follows the mark of hexadecimal, or one that is too large,** the `0` of the
    mark is a literal alone. -/
lemma parseLiteral_mark {x : Char} (hx : x = 'x' ∨ x = 'X')
    (h : mapRes (digits1 16) (number? 16) rest = none) :
    parseLiteral ('0' :: x :: rest) = some (0, x :: rest) := by
  have hhex : mapRes (preceded (tagNoCase "0x") (digits1 16)) (number? 16) ('0' :: x :: rest) =
      none := by
    refine Option.eq_none_iff_forall_ne_some.mpr fun taken htaken => ?_
    obtain ⟨digits, hdigits, hv⟩ := mapRes_eq_some_iff.mp htaken
    obtain ⟨_, mid, hmark, hrest⟩ := preceded_eq_some_iff.mp hdigits
    obtain ⟨_, -, -, heq⟩ := tagNoCase_mark_iff.mp hmark
    cases heq
    rw [mapRes_eq_some_iff.mpr ⟨digits, hrest, hv⟩] at h
    cases h
  have hzero : number? 10 ['0'] = some 0 := by decide
  refine alt_eq_some_iff.mpr (Or.inr ⟨hhex, mapRes_eq_some_iff.mpr ⟨['0'], ?_, hzero⟩⟩)
  rcases hx with rfl | rfl <;> rfl

/-- A literal starts with a digit. -/
lemma parseLiteral_of_not_digit (hc : c.isDigit = false) (cs : List Char) :
    parseLiteral (c :: cs) = none := by
  rw [parseLiteral_unmarked]
  · have hdigits : digits1 10 (c :: cs) = none := by
      refine if_neg fun hdigit => ?_
      obtain ⟨d, hd⟩ := (Text.isSome_digit?_iff (by decide)).mp hdigit
      rw [isDigit_of_digitOf hd] at hc
      cases hc
    rw [mapRes, hdigits, Option.bind_none]
  · rintro x - rest heq
    cases heq
    cases hc

/-- Literals are taken as they are written, if what follows is no letter or digit. -/
lemma parseLiteral_append {v : UInt64} (h : Literal w v) (hends : Ends rest) :
    parseLiteral (w ++ rest) = some (v, rest) := by
  cases h with
  | @hexadecimal x digits n hx hn hlt =>
      refine alt_eq_some_iff.mpr (Or.inl (mapRes_eq_some_iff.mpr ⟨digits, ?_, ?_⟩))
      · exact preceded_eq_some_iff.mpr ⟨['0', x], digits ++ rest,
          tagNoCase_mark_iff.mpr ⟨x, hx, rfl, rfl⟩, digits1_append (by decide) hn hends⟩
      · exact number?_of_numeral (by decide) (by decide) hn hlt
  | decimal hn hlt =>
      rw [parseLiteral_unmarked]
      · exact mapRes_eq_some_iff.mpr ⟨w, digits1_append (by decide) hn hends,
          number?_of_numeral (by decide) (by decide) hn hlt⟩
      · -- The mark is a letter: it is neither one of the digits nor what follows them.
        intro x hx tail heq
        have hletter : x.isAlphanum = true ∧ x.isDigit = false := by
          rcases hx with rfl | rfl <;> decide
        match w, hn, heq with
        | [], hn, _ => exact hn.nonempty rfl
        | [c], _, heq =>
            obtain ⟨-, rfl⟩ := List.cons.inj heq
            exact absurd hends (by simp [Ends, hletter.1])
        | c :: d :: w, hn, heq =>
            obtain ⟨-, heq⟩ := List.cons.inj heq
            obtain ⟨rfl, -⟩ := List.cons.inj heq
            obtain ⟨value, hvalue⟩ := hn.isDigit d (by simp)
            exact absurd (isDigit_of_digitOf hvalue) (by simp [hletter.2])

/-- **What is taken as a term is one.** -/
lemma sound_parseTerm : Sound parseTerm Spells := by
  intro cs t rest h
  rcases alt_eq_some_iff.mp h with h | ⟨-, h⟩
  · obtain ⟨v, hv, rfl⟩ := map_eq_some_iff.mp h
    obtain ⟨w, rfl, hw⟩ := sound_parseLiteral hv
    exact ⟨w, rfl, .literal hw⟩
  · obtain ⟨w, hw, ht⟩ := mapRes_eq_some_iff.mp h
    obtain ⟨rfl, hne, hchars, -⟩ := run1_eq_some_iff.mp hw
    have hname : IsName w := ⟨hne, hchars⟩
    refine ⟨w, rfl, ?_⟩
    rw [named?] at ht
    split at ht
    · next hpc =>
      cases ht
      exact .pc hname hpc
    · obtain ⟨r, hr, rfl⟩ := Option.map_eq_some_iff.mp ht
      exact .register hname hr

/-- What a name stands for is taken. The name starts with no digit then, and is not taken for a
    literal before that. -/
lemma parseTerm_of_name {t : Term} (hw : IsName w) (ht : named? w = some t) (hends : Ends rest) :
    parseTerm (w ++ rest) = some (t, rest) := by
  obtain ⟨c, w, rfl⟩ := List.exists_cons_of_ne_nil hw.nonempty
  have hc : c.isDigit = false := by
    by_contra hc
    rw [named?_of_digit hw (eq_true_of_ne_false hc)] at ht
    cases ht
  refine alt_eq_some_iff.mpr (Or.inr ⟨?_, mapRes_eq_some_iff.mpr ⟨c :: w, ?_, ht⟩⟩)
  · rw [map, List.cons_append, parseLiteral_of_not_digit hc, Option.map_none]
  · exact run1_eq_some_iff.mpr ⟨rfl, hw.nonempty, hw.chars, hends⟩

/-- **Terms are taken as they are written,** if what follows is no letter or digit. -/
lemma parseTerm_append {t : Term} (h : Spells w t) (hends : Ends rest) :
    parseTerm (w ++ rest) = some (t, rest) := by
  cases h with
  | literal h =>
      exact alt_eq_some_iff.mpr (Or.inl (map_eq_some_iff.mpr ⟨_, parseLiteral_append h hends, rfl⟩))
  | pc hw hpc => exact parseTerm_of_name hw (if_pos hpc) hends
  | register hw hr =>
      have hpc : Text.lowercase (String.ofList w) ≠ "pc" := by
        intro hpc
        rw [parse?_of_pc hw hpc] at hr
        cases hr
      refine parseTerm_of_name hw ?_ hends
      rw [named?, if_neg hpc, hr]
      rfl

lemma Spells.isName {t : Term} (h : Spells w t) : IsName w := by
  cases h with
  | literal h =>
      cases h with
      | @hexadecimal x digits n hx hn =>
          refine ⟨List.cons_ne_nil _ _, List.forall_mem_cons.mpr ⟨rfl, List.forall_mem_cons.mpr
            ⟨?_, (isName_of_numeral (by decide) hn).chars⟩⟩⟩
          rcases hx with rfl | rfl <;> rfl
      | decimal hn => exact isName_of_numeral (by decide) hn
  | pc hw | register hw => exact hw

/-- A term does not start with a blank. -/
lemma Spells.front {t : Term} (h : Spells w t) (rest : List Char) :
    (w ++ rest).head?.any isGap = false := by
  obtain ⟨c, w, rfl⟩ := List.exists_cons_of_ne_nil h.isName.nonempty
  exact not_gap_of_letter (h.isName.chars c List.mem_cons_self)

/-- A term starts with a letter or digit, and with no other character. -/
lemma Spells.char_eq_none {t : Term} (h : Spells w t) (hc : c.isAlphanum = false)
    (rest : List Char) : char c (w ++ rest) = none := by
  refine Option.eq_none_iff_forall_ne_some.mpr fun taken htaken => ?_
  obtain ⟨d, w, rfl⟩ := List.exists_cons_of_ne_nil h.isName.nonempty
  obtain ⟨rfl, -⟩ := List.cons.inj (char_eq_some_iff.mp htaken).2
  rw [h.isName.chars d List.mem_cons_self] at hc
  cases hc

end Rv64Board.Debugger
