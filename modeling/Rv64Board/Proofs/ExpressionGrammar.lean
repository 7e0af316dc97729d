import Rv64Board.Proofs.TermTexts

/-!
# The grammar of expressions

Which texts the debugger reads as expressions and as targets, and what their values are.

* `IsSum` — how sums are written, part by part.
* `Expression.Reads`, `Target.Reads` — the texts that stand for an expression or a target.
* `sound_parseExpression`, `sound_parseTarget` — **what the parsers take is written so,** whatever
  follows it.
* `parseExpression_append`, `parseTarget_memory`, `parseTarget_term` — **what is written so is taken
  whole.**
* `Expression.parse?_eq_some_iff`, `Target.parse?_eq_some_iff` — the two together, for whole texts.
* `Expression.toNat_eval` — sums wrap once, whatever they come to on the way.
* `eval_of_parseNumber` — numbers alone have the value that they have as expressions.
-/

namespace Rv64Board.Debugger

open Text (Parser Numeral)
open Text.Parser

/-! ## The grammar -/

/-- The character of a sign. -/
def Sign.mark : Sign → Char
  | .plus => '+'
  | .minus => '-'

/-- Terms with a sign before each of them. -/
inductive SignedTerms : List (List Char) → List (Sign × Term) → Prop
  | nil : SignedTerms [] []
  | cons {s : Sign} {w : List Char} {t : Term} {parts : List (List Char)}
      {ts : List (Sign × Term)} :
      Spells w t → SignedTerms parts ts → SignedTerms ([s.mark] :: w :: parts) ((s, t) :: ts)

/-- A sum: an optional sign, a term, and signed terms. -/
inductive IsSum : List (List Char) → Expression → Prop
  | plain {w : List Char} {t : Term} {parts : List (List Char)} {ts : List (Sign × Term)} :
      Spells w t → SignedTerms parts ts → IsSum (w :: parts) ⟨(.plus, t) :: ts⟩
  | signed {s : Sign} {w : List Char} {t : Term} {parts : List (List Char)}
      {ts : List (Sign × Term)} :
      Spells w t → SignedTerms parts ts → IsSum ([s.mark] :: w :: parts) ⟨(s, t) :: ts⟩

/-- How expressions are written. -/
def Expression.Reads (cs : List Char) (e : Expression) : Prop :=
  ∃ parts, Spaced parts cs ∧ IsSum parts e

/-- How targets are written. -/
inductive Target.Reads : List Char → Target → Prop
  | memory {parts : List (List Char)} {cs : List Char} {address : Expression} :
      IsSum parts address → Spaced (['['] :: (parts ++ [[']']])) cs →
      Target.Reads cs (.memory address)
  | register {w cs : List Char} {r : Reg} :
      Spells w (.register r) → Spaced [w] cs → Target.Reads cs (.register r)
  | pc {w cs : List Char} : Spells w .pc → Spaced [w] cs → Target.Reads cs .pc

variable {c : Char} {cs rest w : List Char}

/-! ## Sums -/

variable {parts : List (List Char)} {ts : List (Sign × Term)} {e : Expression}

lemma parseSign_eq_some_iff {s : Sign} : parseSign cs = some (s, rest) ↔ cs = s.mark :: rest := by
  cases cs with
  | nil => simp [parseSign, alt, value, map, char]
  | cons c cs =>
      by_cases hplus : c = '+'
      · cases s <;> simp [parseSign, alt, value, map, char, Sign.mark, hplus]
      · by_cases hminus : c = '-'
        · cases s <;> simp [parseSign, alt, value, map, char, Sign.mark, hminus]
        · cases s <;> simp [parseSign, alt, value, map, char, Sign.mark, hplus, hminus]

lemma sound_parseSign : Sound parseSign fun w s => w = [s.mark] := by
  intro cs s rest h
  rw [parseSign_eq_some_iff] at h
  exact ⟨[s.mark], h, rfl⟩

/-- A sign and a term, with blanks around both. -/
lemma sound_signedTerm : Sound (pair (withBlanks parseSign) (withBlanks parseTerm)) fun text t =>
    ∃ w, Spaced [[t.1.mark], w] text ∧ Spells w t.2 := by
  intro cs t rest h
  obtain ⟨mid, hsign, hterm⟩ := pair_eq_some_iff.mp h
  obtain ⟨text, rfl, _, hspaced, rfl⟩ := sound_withBlanks sound_parseSign hsign
  obtain ⟨text', rfl, w, hspaced', hw⟩ := sound_withBlanks sound_parseTerm hterm
  exact ⟨text ++ text', (List.append_assoc _ _ _).symm, w, hspaced.append hspaced', hw⟩

lemma sound_signedTerms :
    Sound (many0 (pair (withBlanks parseSign) (withBlanks parseTerm))) fun text ts =>
      ∃ parts, Spaced parts text ∧ SignedTerms parts ts := by
  intro cs ts rest h
  refine many0_induction (motive := fun cs ts rest => ∃ text, cs = text ++ rest ∧
    ∃ parts, Spaced parts text ∧ SignedTerms parts ts) ?_ ?_ h
  · exact fun cs => ⟨[], rfl, [], .done Blanks.nil, .nil⟩
  · rintro cs t _ ts rest ht ⟨text', rfl, parts, hspaced', hts⟩
    obtain ⟨text, rfl, w, hspaced, hw⟩ := sound_signedTerm ht
    exact ⟨text ++ text', (List.append_assoc _ _ _).symm, _, hspaced.append hspaced',
      .cons hw hts⟩

lemma parseExpression_eq_some_iff :
    parseExpression cs = some (e, rest) ↔ ∃ sign first ts mid mid',
      opt (withBlanks parseSign) cs = some (sign, mid) ∧
      withBlanks parseTerm mid = some (first, mid') ∧
      many0 (pair (withBlanks parseSign) (withBlanks parseTerm)) mid' = some (ts, rest) ∧
      e = ⟨(sign.getD .plus, first) :: ts⟩ := by
  simp only [parseExpression, Option.bind_eq_bind, Option.bind_eq_some_iff, Prod.exists,
    Option.pure_def, Option.some.injEq, Prod.mk.injEq]
  constructor
  · rintro ⟨sign, mid, hsign, first, mid', hfirst, ts, _, hts, rfl, rfl⟩
    exact ⟨sign, first, ts, mid, mid', hsign, hfirst, hts, rfl⟩
  · rintro ⟨sign, first, ts, mid, mid', hsign, hfirst, hts, rfl⟩
    exact ⟨sign, mid, hsign, first, mid', hfirst, ts, _, hts, rfl, rfl⟩

/-- **What is taken as an expression is one.** -/
lemma sound_parseExpression : Sound parseExpression Expression.Reads := by
  intro cs e rest h
  obtain ⟨sign, first, ts, mid, mid', hsign, hfirst, hts, rfl⟩ := parseExpression_eq_some_iff.mp h
  obtain ⟨text, rfl, w, hspaced, hw⟩ := sound_withBlanks sound_parseTerm hfirst
  obtain ⟨text', rfl, parts, hspaced', hmore⟩ := sound_signedTerms hts
  rcases opt_eq_some_iff.mp hsign with ⟨s, rfl, hs⟩ | ⟨rfl, -, rfl⟩
  · obtain ⟨front, rfl, _, hfront, rfl⟩ := sound_withBlanks sound_parseSign hs
    exact ⟨front ++ (text ++ text'), by simp, _, hfront.append (hspaced.append hspaced'),
      .signed hw hmore⟩
  · exact ⟨text ++ text', (List.append_assoc _ _ _).symm, _, hspaced.append hspaced',
      .plain hw hmore⟩

/-- The text of an expression is over: it ends here, or a bracket is closed. -/
def Stops (cs : List Char) : Prop := cs = [] ∨ ∃ rest, cs = ']' :: rest

lemma Stops.dropWhile (h : Stops rest) : rest.dropWhile isGap = rest := by
  rcases h with rfl | ⟨_, rfl⟩ <;> rfl

lemma Stops.ends (h : Stops rest) : Ends rest := by
  rcases h with rfl | ⟨_, rfl⟩ <;> rfl

lemma Stops.parseSign_eq_none (h : Stops rest) : withBlanks parseSign rest = none := by
  refine Option.eq_none_iff_forall_ne_some.mpr fun taken htaken => ?_
  obtain ⟨mid, hsign, -⟩ := withBlanks_eq_some_iff.mp htaken
  rw [h.dropWhile, parseSign_eq_some_iff] at hsign
  rcases h with rfl | ⟨_, rfl⟩
  · cases hsign
  · obtain ⟨hmark, -⟩ := List.cons.inj hsign
    cases hs : taken.1 <;> rw [hs] at hmark <;> exact absurd hmark (by decide)

lemma isGap_mark (s : Sign) : isGap s.mark = false := by
  cases s <;> rfl

lemma Spells.parseSign_eq_none {t : Term} (h : Spells w t) (rest : List Char) :
    parseSign (w ++ rest) = none := by
  rw [parseSign, alt, value, value, map, map, h.char_eq_none rfl, h.char_eq_none rfl]
  rfl

lemma withBlanks_sign {gap : List Char} (hgap : Blanks gap) (s : Sign) (rest : List Char) :
    withBlanks parseSign (gap ++ s.mark :: rest) = some (s, rest.dropWhile isGap) :=
  withBlanks_append (w := [s.mark]) hgap (isGap_mark s) (parseSign_eq_some_iff.mpr rfl)

lemma withBlanks_term {gap : List Char} {t : Term} (hgap : Blanks gap) (h : Spells w t)
    (hends : Ends rest) :
    withBlanks parseTerm (gap ++ (w ++ rest)) = some (t, rest.dropWhile isGap) :=
  withBlanks_append hgap (h.front rest) (parseTerm_append h hends)

/-- A sign is taken with the blanks between it and its term. -/
lemma withBlanks_sign_term {gap gap' : List Char} {t : Term} (hgap : Blanks gap)
    (hgap' : Blanks gap') (h : Spells w t) (s : Sign) (rest : List Char) :
    withBlanks parseSign (gap ++ s.mark :: (gap' ++ (w ++ rest))) = some (s, w ++ rest) := by
  have hsign := withBlanks_sign hgap s (gap' ++ (w ++ rest))
  rwa [hgap'.dropWhile, dropWhile_of_head (h.front rest)] at hsign

/-- Blanks and signs are no letters or digits. -/
lemma SignedTerms.ends (h : SignedTerms parts ts) {tail : List Char} (hspaced : Spaced parts tail)
    (hrest : Ends rest) : Ends (tail ++ rest) := by
  have hblank {gap cs : List Char} (hgap : Blanks gap) (hcs : Ends cs) : Ends (gap ++ cs) := by
    cases gap with
    | nil => exact hcs
    | cons b gap => exact not_letter_of_gap (hgap b List.mem_cons_self)
  cases h with
  | nil =>
      cases hspaced with
      | done hgap => exact hblank hgap hrest
  | @cons s =>
      cases hspaced with
      | part hgap =>
          rw [List.append_assoc, List.append_assoc]
          refine hblank hgap ?_
          cases s <;> rfl

/-- **Signed terms are taken as they are written,** up to where the expression stops. -/
lemma many0_append (h : SignedTerms parts ts) {tail : List Char} (hspaced : Spaced parts tail)
    (hstops : Stops rest) :
    many0 (pair (withBlanks parseSign) (withBlanks parseTerm)) ((tail ++ rest).dropWhile isGap) =
      some (ts, rest) := by
  induction h generalizing tail with
  | nil =>
      cases hspaced with
      | done hgap =>
          rw [hgap.dropWhile, hstops.dropWhile]
          refine many0_of_none ?_
          rw [pair, hstops.parseSign_eq_none, Option.bind_none]
  | @cons s w t parts ts hw hts ih =>
      cases hspaced with
      | part hgap hspaced =>
          cases hspaced with
          | @part gap' _ tail _ hgap' hspaced =>
              simp only [List.append_assoc, List.cons_append, List.nil_append]
              rw [hgap.dropWhile, List.dropWhile_cons_of_neg (ne_true_of_eq_false (isGap_mark s))]
              refine many0_of_some (pair_eq_some_iff.mpr ⟨w ++ (tail ++ rest), ?_, ?_⟩) ?_
                (ih hspaced)
              · exact withBlanks_sign_term Blanks.nil hgap' hw s (tail ++ rest)
              · exact withBlanks_term Blanks.nil hw (hts.ends hspaced hstops.ends)
              · have hlength := (List.dropWhile_sublist (l := tail ++ rest) isGap).length_le
                simp only [List.length_cons, List.length_append] at hlength ⊢
                omega

/-- **Expressions are taken as they are written,** up to where they stop. -/
lemma parseExpression_append (h : IsSum parts e) {text : List Char} (hspaced : Spaced parts text)
    (hstops : Stops rest) : parseExpression (text ++ rest) = some (e, rest) := by
  refine parseExpression_eq_some_iff.mpr ?_
  cases h with
  | @plain w t parts ts hw hts =>
      cases hspaced with
      | @part gap _ tail _ hgap hspaced =>
          have hterm := withBlanks_term hgap hw (hts.ends hspaced hstops.ends)
          rw [List.append_assoc, List.append_assoc]
          refine ⟨none, t, ts, _, _, opt_eq_some_iff.mpr (Or.inr ⟨rfl, ?_, rfl⟩), hterm,
            many0_append hts hspaced hstops, rfl⟩
          exact withBlanks_eq_none hgap (hw.front _) (hw.parseSign_eq_none _)
  | @signed s w t parts ts hw hts =>
      cases hspaced with
      | @part gap _ _ _ hgap hspaced =>
          cases hspaced with
          | @part gap' _ tail _ hgap' hspaced =>
              have hterm := withBlanks_term Blanks.nil hw (hts.ends hspaced hstops.ends)
              simp only [List.append_assoc, List.cons_append, List.nil_append]
              exact ⟨some s, t, ts, _, _, opt_eq_some_iff.mpr
                (Or.inl ⟨s, rfl, withBlanks_sign_term hgap hgap' hw s (tail ++ rest)⟩), hterm,
                many0_append hts hspaced hstops, rfl⟩

lemma parseAll_eq_some_iff {α : Type} {p : Parser α} {s : String} {a : α} :
    parseAll p s = some a ↔ p s.toList = some (a, []) := by
  simp only [parseAll, Option.map_eq_some_iff, Prod.exists, allConsuming_eq_some_iff]
  constructor
  · rintro ⟨_, _, ⟨hp, rfl⟩, rfl⟩
    exact hp
  · intro hp
    exact ⟨a, [], ⟨hp, rfl⟩, rfl⟩

/-- **Expressions are read as they are written.** -/
lemma Expression.parse?_eq_some_iff {s : String} :
    Expression.parse? s = some e ↔ Expression.Reads s.toList e := by
  rw [Expression.parse?, parseAll_eq_some_iff]
  constructor
  · intro h
    obtain ⟨text, htext, hreads⟩ := sound_parseExpression h
    rwa [htext, List.append_nil]
  · rintro ⟨parts, hspaced, hsum⟩
    have hread := parseExpression_append hsum hspaced (Or.inl rfl)
    rwa [List.append_nil] at hread

/-! ## Targets -/

lemma sound_char (c : Char) : Sound (char c) fun w _ => w = [c] := by
  intro cs d rest h
  obtain ⟨-, rfl⟩ := char_eq_some_iff.mp h
  exact ⟨[c], rfl, rfl⟩

/-- **What is taken as a target is one.** -/
lemma sound_parseTarget : Sound parseTarget Target.Reads := by
  intro cs target rest h
  rcases alt_eq_some_iff.mp h with h | ⟨-, h⟩
  · obtain ⟨address, haddress, rfl⟩ := map_eq_some_iff.mp h
    obtain ⟨_, mid, mid', _, hopening, hsum, hclosing⟩ := delimited_eq_some_iff.mp haddress
    obtain ⟨front, rfl, _, hfront, rfl⟩ := sound_withBlanks (sound_char '[') hopening
    obtain ⟨text, rfl, parts, hspaced, hparts⟩ := sound_parseExpression hsum
    obtain ⟨last, rfl, _, hlast, rfl⟩ := sound_withBlanks (sound_char ']') hclosing
    exact ⟨front ++ (text ++ last), by simp, .memory hparts (hfront.append (hspaced.append hlast))⟩
  · obtain ⟨t, ht, htarget⟩ := mapRes_eq_some_iff.mp h
    obtain ⟨text, rfl, w, hspaced, hw⟩ := sound_withBlanks sound_parseTerm ht
    refine ⟨text, rfl, ?_⟩
    cases t with
    | literal => cases htarget
    | register r =>
        cases htarget
        exact .register hw hspaced
    | pc =>
        cases htarget
        exact .pc hw hspaced

lemma withBlanks_char {gap : List Char} (hgap : Blanks gap) (hc : isGap c = false)
    (rest : List Char) : withBlanks (char c) (gap ++ c :: rest) = some (c, rest.dropWhile isGap) :=
  withBlanks_append (w := [c]) hgap hc (char_eq_some_iff.mpr ⟨rfl, rfl⟩)

lemma parseExpression_dropWhile (cs : List Char) :
    parseExpression (cs.dropWhile isGap) = parseExpression cs := by
  rw [parseExpression, parseExpression, opt, opt, withBlanks_dropWhile]
  cases withBlanks parseSign cs with
  | none => simp only [Option.bind_eq_bind, Option.bind_some, withBlanks_dropWhile]
  | some taken => rfl

/-- An expression between brackets is taken whole. -/
lemma parseTarget_memory (h : IsSum parts e) (hspaced : Spaced (['['] :: (parts ++ [[']']])) cs) :
    parseTarget cs = some (.memory e, []) := by
  cases hspaced with
  | part hgap hspaced =>
      obtain ⟨text, last, rfl, htext, hlast⟩ := hspaced.exists_cut
      have hsum := parseExpression_append h htext (Or.inr ⟨last, rfl⟩)
      have hclosing := withBlanks_char (c := ']') Blanks.nil rfl last
      rw [hlast.dropWhile_eq_nil] at hclosing
      rw [← parseExpression_dropWhile] at hsum
      refine alt_eq_some_iff.mpr (Or.inl (map_eq_some_iff.mpr ⟨e, ?_, rfl⟩))
      rw [List.append_assoc]
      exact delimited_eq_some_iff.mpr
        ⟨_, _, _, _, withBlanks_char (c := '[') hgap rfl _, hsum, hclosing⟩

/-- A term alone is taken whole, and not for a bracket before that. -/
lemma parseTarget_term {t : Term} {target : Target} (h : Spells w t)
    (htarget : t.target? = some target) (hspaced : Spaced [w] cs) :
    parseTarget cs = some (target, []) := by
  cases hspaced with
  | @part gap _ last _ hgap hlast =>
      cases hlast with
      | done hlast =>
          have hends : Ends last := List.append_nil last ▸ SignedTerms.nil.ends (.done hlast) rfl
          have hterm := withBlanks_term hgap h hends
          have hopening := withBlanks_eq_none hgap (h.front last)
            (h.char_eq_none (c := '[') rfl last)
          rw [hlast.dropWhile_eq_nil] at hterm
          rw [List.append_assoc]
          refine alt_eq_some_iff.mpr (Or.inr ⟨?_, mapRes_eq_some_iff.mpr ⟨t, hterm, htarget⟩⟩)
          refine Option.eq_none_iff_forall_ne_some.mpr fun taken htaken => ?_
          obtain ⟨_, haddress, -⟩ := map_eq_some_iff.mp htaken
          obtain ⟨_, _, _, _, hbracket, -⟩ := delimited_eq_some_iff.mp haddress
          rw [hopening] at hbracket
          cases hbracket

/-- **Targets are read as they are written.** -/
lemma Target.parse?_eq_some_iff {s : String} {target : Target} :
    Target.parse? s = some target ↔ Target.Reads s.toList target := by
  rw [Target.parse?, parseAll_eq_some_iff]
  constructor
  · intro h
    obtain ⟨text, htext, hreads⟩ := sound_parseTarget h
    rwa [htext, List.append_nil]
  · intro h
    cases h with
    | memory hsum hspaced => exact parseTarget_memory hsum hspaced
    | register hw hspaced | pc hw hspaced => exact parseTarget_term hw rfl hspaced

/-! ## Values -/

/-- What a signed term adds to a sum. -/
def signedValue (rs : Registers) : Sign × Term → Int
  | (.plus, t) => (t.eval rs).toNat
  | (.minus, t) => -(t.eval rs).toNat

lemma toNat_addTerm (rs : Registers) (sum : UInt64) (t : Sign × Term) :
    ((addTerm rs sum t).toNat : Int) = (sum.toNat + signedValue rs t) % 2 ^ 64 := by
  obtain ⟨s, t⟩ := t
  cases s with
  | plus =>
      rw [addTerm, signedValue, UInt64.toNat_add]
      omega
  | minus =>
      have hsize := (t.eval rs).toNat_lt
      rw [addTerm, signedValue, UInt64.toNat_sub]
      omega

/-- **The value of an expression is the sum of its signed terms, modulo the size of a word.** -/
lemma Expression.toNat_eval (e : Expression) (rs : Registers) :
    ((e.eval rs).toNat : Int) = (e.terms.map (signedValue rs)).sum % 2 ^ 64 := by
  have hfold (ts : List (Sign × Term)) (sum : UInt64) :
      ((ts.foldl (addTerm rs) sum).toNat : Int) =
        (sum.toNat + (ts.map (signedValue rs)).sum) % 2 ^ 64 := by
    induction ts generalizing sum with
    | nil =>
        have hlt := sum.toNat_lt
        rw [List.foldl_nil, List.map_nil, List.sum_nil]
        omega
    | cons t ts ih =>
        rw [List.foldl_cons, ih, toNat_addTerm, List.map_cons, List.sum_cons, Int.emod_add_emod,
          Int.add_assoc]
  rw [Expression.eval, hfold]
  simp

/-! ## Numbers -/

lemma Expression.parse?_literal {s : String} {v : UInt64} (h : Literal s.toList v) :
    Expression.parse? s = some ⟨[(.plus, .literal v)]⟩ := by
  have hspaced : Spaced [s.toList] (s.toList ++ []) := (Spaced.done Blanks.nil).front
  rw [List.append_nil] at hspaced
  exact parse?_eq_some_iff.mpr ⟨_, hspaced, .plain (.literal h) .nil⟩

lemma Expression.parse?_plus_literal {s : String} {v : UInt64} (hs : s.toList = '+' :: w)
    (h : Literal w v) : Expression.parse? s = some ⟨[(.plus, .literal v)]⟩ := by
  have hspaced : Spaced [['+'], w] ('+' :: (w ++ [])) := (Spaced.done Blanks.nil).front.front
  rw [List.append_nil, ← hs] at hspaced
  exact parse?_eq_some_iff.mpr ⟨_, hspaced, .signed (s := .plus) (.literal h) .nil⟩

/-- Between the mark of hexadecimal and its digits there is no place for a sign: the `0` is taken
    alone, and the rest is left. -/
lemma Expression.parse?_mark_sign {s : String} {x : Char} {rest : List Char}
    (hx : x = 'x' ∨ x = 'X') (hs : s.toList = '0' :: x :: '+' :: rest) :
    Expression.parse? s = none := by
  have hterm : parseTerm ('0' :: x :: '+' :: rest) = some (.literal 0, x :: '+' :: rest) :=
    alt_eq_some_iff.mpr (Or.inl (map_eq_some_iff.mpr ⟨0, parseLiteral_mark hx rfl, rfl⟩))
  have hsum : parseExpression ('0' :: x :: '+' :: rest) =
      some (⟨[(.plus, .literal 0)]⟩, x :: '+' :: rest) := by
    refine parseExpression_eq_some_iff.mpr ⟨none, .literal 0, [], _, x :: '+' :: rest,
      opt_eq_some_iff.mpr (Or.inr ⟨rfl, rfl, rfl⟩),
      withBlanks_eq_some_iff.mpr ⟨_, hterm, ?_⟩, many0_of_none ?_, rfl⟩
    · rcases hx with rfl | rfl <;> rfl
    · rcases hx with rfl | rfl <;> rfl
  refine Option.eq_none_iff_forall_ne_some.mpr fun e he => ?_
  rw [Expression.parse?, parseAll_eq_some_iff, hs, hsum] at he
  cases he

/-- **A text that is read as a number and as an expression has one value.** -/
lemma eval_of_parseNumber {s : String} {v : UInt64} (hnumber : parseNumber s = .ok v)
    (hread : Expression.parse? s = some e) (rs : Registers) : e.eval rs = v := by
  have hliteral (h : Expression.parse? s = some ⟨[(.plus, .literal v)]⟩) : e.eval rs = v := by
    rw [h] at hread
    cases hread
    exact UInt64.zero_add v
  have hhex {x : Char} {digits : List Char} (hx : x = 'x' ∨ x = 'X')
      (hs : s.toList = '0' :: x :: digits)
      (h : Text.readWord 16 (String.ofList digits) = .ok v) : e.eval rs = v := by
    obtain ⟨ds, n, hds, hn, hlt, rfl⟩ := Text.numeral_of_readWord (by decide) (by decide) h
    rw [String.toList_ofList] at hds
    rcases hds with rfl | rfl
    · exact hliteral (Expression.parse?_literal (hs ▸ .hexadecimal hx hn hlt))
    · rw [Expression.parse?_mark_sign hx hs] at hread
      cases hread
  rw [parseNumber] at hnumber
  split at hnumber
  · next hs => exact hhex (Or.inl rfl) hs hnumber
  · next hs => exact hhex (Or.inr rfl) hs hnumber
  · obtain ⟨ds, n, hds, hn, hlt, rfl⟩ := Text.numeral_of_readWord (by decide) (by decide) hnumber
    rcases hds with hds | hds
    · exact hliteral (Expression.parse?_literal (hds ▸ .decimal hn hlt))
    · exact hliteral (Expression.parse?_plus_literal hds (.decimal hn hlt))

/-- **Expressions and targets are read from the texts of their grammars and from no others.** A text
    stands for an expression if it is an optional sign, a term and signed terms, with blanks around
    all of them; the value is the sum of the signed terms, modulo the size of a word. A target is
    such an expression between brackets, or a register or the program counter alone. What is read as
    a number too has the same value both ways. -/
theorem expressions_read_exactly (s : String) :
    (∀ e, (Expression.parse? s = some e ↔ Expression.Reads s.toList e) ∧
      ∀ rs, ((e.eval rs).toNat : Int) = (e.terms.map (signedValue rs)).sum % 2 ^ 64) ∧
    (∀ target, Target.parse? s = some target ↔ Target.Reads s.toList target) ∧
    ∀ v e rs, parseNumber s = .ok v → Expression.parse? s = some e → e.eval rs = v :=
  ⟨fun e => ⟨Expression.parse?_eq_some_iff, e.toNat_eval⟩, fun _ => Target.parse?_eq_some_iff,
    fun _ _ rs hv he => eval_of_parseNumber hv he rs⟩

/-- Blanks and letter case do not matter, and registers are known by name and by index. A sign after
    the mark of hexadecimal, a number of 65 bits (although its `0` alone is a literal), a missing
    sign and a sign before a target are refused. -/
theorem mixed_texts_read :
    parseNumber "+0012" = .ok 12 ∧ Expression.parse? "+0012" = some ⟨[(.plus, .literal 12)]⟩ ∧
    (∀ rs, Expression.eval ⟨[(.plus, .literal 12)]⟩ rs = 12) ∧
    Expression.Reads "\t0X1f-SP\r\n+ Pc ".toList
      ⟨[(.plus, .literal 31), (.minus, .register ⟨2⟩), (.plus, .pc)]⟩ ∧
    (∀ e, ¬Expression.Reads "0x+5".toList e) ∧
    (∀ e, ¬Expression.Reads "0x10000000000000000".toList e) ∧
    (∀ e, ¬Expression.Reads "1 2".toList e) ∧
    Target.Reads " [ x31 - 8 ] ".toList
      (.memory ⟨[(.plus, .register ⟨31⟩), (.minus, .literal 8)]⟩) ∧
    ∀ target, ¬Target.Reads "-pc".toList target := by
  have hnumber : parseNumber "+0012" = .ok 12 := by decide
  have hsum : Expression.parse? "+0012" = some ⟨[(.plus, .literal 12)]⟩ := by decide +kernel
  have hrefused {s : String} (hnone : Expression.parse? s = none) (e : Expression) :
      ¬Expression.Reads s.toList e := by
    intro he
    rw [((expressions_read_exactly s).1 e).1.mpr he] at hnone
    cases hnone
  refine ⟨hnumber, hsum, fun rs => (expressions_read_exactly "+0012").2.2 _ _ rs hnumber hsum,
    ((expressions_read_exactly _).1 _).1.mp (by decide +kernel), hrefused (by decide +kernel),
    hrefused (by decide +kernel), hrefused (by decide +kernel),
    ((expressions_read_exactly _).2.1 _).mp (by decide +kernel), fun target htarget => ?_⟩
  have hnone : Target.parse? "-pc" = none := by decide +kernel
  rw [((expressions_read_exactly _).2.1 _).mpr htarget] at hnone
  cases hnone

end Rv64Board.Debugger
