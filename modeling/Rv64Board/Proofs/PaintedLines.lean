import Mathlib.Tactic.Common
import Rv64Board.Debugger.Editor

/-!
# Painting leaves the text as it is

A painted line is read back sign by sign, as a terminal reads it.

* `Sign`, `signs` — style sequences and characters, in the order in which they stand in a text.
* `characters` — what is left without style sequences.
* `Closed` — no style is in force at a blank, nor at the end.
* `Painted` — **the signs of a painted line:** each piece in some style, one after the other.
* `signs_apply`, `painted_paintArguments`, `painted_paintPieces` — one word, and rows of pieces.
* `signs_paint_input` — after a word that stands for `input` there are only characters.
-/

namespace Rv64Board.Debugger.Editor

/-! ## Reading a painted text -/

/-- What a painted text consists of. -/
inductive Sign
  /-- A control sequence that changes the style, with its code. -/
  | style (code : List Char)
  | char (c : Char)
  deriving DecidableEq

/-- The characters that the code of a style consists of. -/
def inCode (c : Char) : Bool :=
  c.isDigit || c = ';'

/-- The code of the style sequence that a text starts with, and what comes after the sequence. -/
def styleSequence? : List Char → Option (List Char × List Char)
  | '\x1b' :: '[' :: cs =>
    match cs.dropWhile inCode with
    | 'm' :: rest => some (cs.takeWhile inCode, rest)
    | _ => none
  | _ => none

lemma length_of_styleSequence? {cs code rest : List Char}
    (h : styleSequence? cs = some (code, rest)) : rest.length < cs.length := by
  unfold styleSequence? at h
  split at h
  · next cs =>
    split at h
    · next tail hdrop =>
      obtain ⟨rfl, rfl⟩ := Prod.mk.inj (Option.some.inj h)
      have hle := (List.dropWhile_suffix (l := cs) inCode).length_le
      simp only [hdrop, List.length_cons] at hle ⊢
      omega
    · cases h
  · cases h

/-- The signs of a text. -/
def signs : List Char → List Sign
  | [] => []
  | c :: cs =>
    match h : styleSequence? (c :: cs) with
    | some (code, rest) =>
      have := length_of_styleSequence? h
      .style code :: signs rest
    | none => .char c :: signs cs
termination_by cs => cs.length
decreasing_by
  · assumption
  · exact Nat.lt_succ_self cs.length

/-- A sign that is a character. -/
def Sign.char? : Sign → Option Char
  | .style _ => none
  | .char c => some c

/-- What is left of a text without style sequences. -/
def characters (row : List Sign) : List Char :=
  row.filterMap Sign.char?

/-- The styles in force after a sign, given those before it. -/
def Sign.inForce (styles : List (List Char)) : Sign → List (List Char)
  | .style code => if code = ['0'] then [] else code :: styles
  | .char _ => styles

/-- With some styles in force at its start, no style is in force at a blank, nor at the end. -/
def Closed : List (List Char) → List Sign → Prop
  | styles, [] => styles = []
  | styles, sign :: row =>
    (∀ c, sign = .char c → Text.isBlank c = true → styles = []) ∧ Closed (sign.inForce styles) row

/-! ## Signs of styles -/

/-- The code of a style. -/
def Style.code : Style → List Char
  | .plain => []
  | .bold => ['1']
  | .dimmed => ['2']
  | .red => ['3', '1']
  | .cyan => ['3', '6']
  | .yellow => ['3', '3']

/-- The signs of a text in a style. -/
def Style.framed (style : Style) (text : List Char) : List Sign :=
  match style with
  | .plain => text.map .char
  | _ => .style style.code :: text.map .char ++ [.style ['0']]

lemma signs_cons_of_none {c : Char} {cs : List Char} (h : styleSequence? (c :: cs) = none) :
    signs (c :: cs) = .char c :: signs cs := by
  rw [signs]
  split
  · next h' => rw [h] at h'; cases h'
  · rfl

lemma signs_of_some {c : Char} {cs code rest : List Char}
    (h : styleSequence? (c :: cs) = some (code, rest)) :
    signs (c :: cs) = .style code :: signs rest := by
  rw [signs]
  split
  · next h' =>
    obtain ⟨rfl, rfl⟩ := Prod.mk.inj (Option.some.inj (h'.symm.trans h))
    rfl
  · next h' => rw [h] at h'; cases h'

/-- Characters other than the escape character are signs of their own. -/
lemma signs_text {text : List Char} (h : '\x1b' ∉ text) (rest : List Char) :
    signs (text ++ rest) = text.map .char ++ signs rest := by
  induction text with
  | nil => rfl
  | cons c text ih =>
      have hc : c ≠ '\x1b' := fun hc => h (hc ▸ List.mem_cons_self)
      have hnone : styleSequence? (c :: (text ++ rest)) = none := by
        unfold styleSequence?
        split
        · next heq => exact absurd (List.cons.inj heq).1 hc
        · rfl
      rw [List.cons_append, signs_cons_of_none hnone, ih fun hm => h (List.mem_cons_of_mem c hm)]
      rfl

lemma signs_escape (code : List Char) (hcode : code.all inCode = true) (rest : List Char) :
    signs ((escape (String.ofList code)).toList ++ rest) = .style code :: signs rest := by
  have htext : (escape (String.ofList code)).toList ++ rest =
      '\x1b' :: '[' :: (code ++ 'm' :: rest) := by
    simp [escape]
  have hm : inCode 'm' = false := by decide
  have h := List.all_eq_true.mp hcode
  rw [htext]
  refine signs_of_some ?_
  simp only [styleSequence?, List.dropWhile_append_of_pos h, List.takeWhile_append_of_pos h]
  simp [hm]

/-- **A text in a style** is its characters, between the style and the end of it. -/
lemma signs_apply (style : Style) {text : List Char} (h : '\x1b' ∉ text) (rest : List Char) :
    signs ((style.apply (String.ofList text)).toList ++ rest) =
      style.framed text ++ signs rest := by
  have hframe (code : List Char) (hcode : code.all inCode = true) :
      signs ((escape (String.ofList code) ++ String.ofList text ++ escape "0").toList ++ rest) =
        (.style code :: text.map .char ++ [.style ['0']]) ++ signs rest := by
    have hreset : signs ((escape "0").toList ++ rest) = .style ['0'] :: signs rest :=
      signs_escape ['0'] (by decide) rest
    rw [String.toList_append, String.toList_append, String.toList_ofList, List.append_assoc,
      List.append_assoc, signs_escape code hcode, signs_text h, hreset]
    simp
  cases style with
  | plain => simpa [Style.apply, Style.opening, Style.closing, Style.framed] using signs_text h rest
  | bold => exact hframe ['1'] (by decide)
  | dimmed => exact hframe ['2'] (by decide)
  | red => exact hframe ['3', '1'] (by decide)
  | cyan => exact hframe ['3', '6'] (by decide)
  | yellow => exact hframe ['3', '3'] (by decide)

lemma characters_append (a b : List Sign) : characters (a ++ b) = characters a ++ characters b :=
  List.filterMap_append

lemma characters_map_char (text : List Char) : characters (text.map .char) = text := by
  induction text with
  | nil => rfl
  | cons c text ih => exact congrArg (c :: ·) ih

lemma characters_framed (style : Style) (text : List Char) :
    characters (style.framed text) = text := by
  have hframe (code : List Char) :
      characters (.style code :: text.map .char ++ [.style ['0']]) = text := by
    rw [characters_append]
    exact (List.append_nil _).trans (characters_map_char text)
  cases style with
  | plain => exact characters_map_char text
  | bold | dimmed | red | cyan | yellow => exact hframe _

/-- Characters change no style, and any style may be in force where no blank is. -/
lemma closed_text {styles : List (List Char)} {text : List Char} {row : List Sign}
    (htext : ∀ c ∈ text, Text.isBlank c = true → styles = []) (hrow : Closed styles row) :
    Closed styles (text.map .char ++ row) := by
  induction text with
  | nil => exact hrow
  | cons c text ih =>
      refine ⟨fun c' hc' hblank => ?_, ih fun c' hm => htext c' (List.mem_cons_of_mem c hm)⟩
      cases hc'
      exact htext c List.mem_cons_self hblank

lemma closed_framed (style : Style) {text : List Char} {row : List Sign}
    (htext : ∀ c ∈ text, Text.isBlank c = false) (hrow : Closed [] row) :
    Closed [] (style.framed text ++ row) := by
  have hword (styles : List (List Char)) (c : Char) (hc : c ∈ text)
      (hblank : Text.isBlank c = true) : styles = [] := by
    rw [htext c hc] at hblank
    cases hblank
  have hframe {code : List Char} (hcode : code ≠ ['0']) :
      Closed [] ((.style code :: text.map .char ++ [.style ['0']]) ++ row) := by
    have hend : Closed [code] (.style ['0'] :: row) := ⟨nofun, by simpa [Sign.inForce] using hrow⟩
    rw [List.append_assoc, List.cons_append]
    refine ⟨nofun, ?_⟩
    rw [Sign.inForce, if_neg hcode]
    exact closed_text (hword [code]) hend
  cases style with
  | plain => exact closed_text (hword []) hrow
  | bold | dimmed | red | cyan | yellow => exact hframe (by decide)

/-! ## Pieces -/

/-- The text of a piece. -/
def Piece.text (p : Piece) : List Char :=
  p.word ++ p.blank

/-- **A line is its pieces.** -/
lemma flatMap_pieces (cs : List Char) : (pieces cs).flatMap Piece.text = cs := by
  fun_induction pieces cs with
  | case1 => rfl
  | case2 c cs _ ih => exact congrArg (c :: ·) ih
  | case3 c cs _ hnil ih =>
      rw [hnil] at ih
      subst ih
      rfl
  | case4 c cs _ p ps hcons ih =>
      rw [hcons] at ih
      exact congrArg (c :: ·) ih

lemma not_isBlank_of_mem_pieces {cs : List Char} {p : Piece} (hp : p ∈ pieces cs) :
    ∀ c ∈ p.word, Text.isBlank c = false := by
  fun_induction pieces cs generalizing p with
  | case1 => cases hp
  | case2 c cs _ ih =>
      rcases List.mem_cons.mp hp with rfl | hp
      · nofun
      · exact ih hp
  | case3 c cs hc hnil ih =>
      obtain rfl := List.mem_singleton.mp hp
      simpa using hc
  | case4 c cs hc q ps hcons ih =>
      rw [hcons] at ih
      rcases List.mem_cons.mp hp with rfl | hp
      · intro c' hc'
        rcases List.mem_cons.mp hc' with rfl | hc'
        · simpa using hc
        · exact ih List.mem_cons_self c' hc'
      · exact ih (List.mem_cons_of_mem q hp)

/-- The signs of a row of pieces, each of them in some style. -/
inductive Painted : List Piece → List Sign → Prop
  | nil : Painted [] []
  | cons (style : Style) (p : Piece) {ps : List Piece} {row : List Sign} :
      Painted ps row → Painted (p :: ps) (style.framed p.word ++ (p.blank.map .char ++ row))

lemma Painted.characters_eq {ps : List Piece} {row : List Sign} (h : Painted ps row) :
    characters row = ps.flatMap Piece.text := by
  induction h with
  | nil => rfl
  | cons style p _ ih =>
      rw [characters_append, characters_append, characters_framed, characters_map_char, ih,
        List.flatMap_cons, Piece.text, List.append_assoc]

lemma Painted.closed {ps : List Piece} {row : List Sign} (h : Painted ps row)
    (hwords : ∀ p ∈ ps, ∀ c ∈ p.word, Text.isBlank c = false) : Closed [] row := by
  induction h with
  | nil => rfl
  | cons style p _ ih =>
      refine closed_framed style (hwords p List.mem_cons_self) (closed_text (fun _ _ _ => rfl) ?_)
      exact ih fun q hq => hwords q (List.mem_cons_of_mem p hq)

/-! ## Painting -/

/-- There is no escape character in a row of pieces. -/
def Plain (ps : List Piece) : Prop := ∀ p ∈ ps, '\x1b' ∉ p.text

lemma plain_pieces {cs : List Char} (h : '\x1b' ∉ cs) : Plain (pieces cs) := by
  intro p hp hmem
  rw [← flatMap_pieces cs] at h
  exact h (List.mem_flatMap.mpr ⟨p, hp, hmem⟩)

lemma Plain.tail {p : Piece} {ps : List Piece} (h : Plain (p :: ps)) : Plain ps :=
  fun q hq => h q (List.mem_cons_of_mem p hq)

/-- A piece in a style, and what comes after it. -/
lemma Plain.signs_piece {p : Piece} {ps : List Piece} (h : Plain (p :: ps)) (style : Style)
    (rest : String) :
    signs (style.apply (String.ofList p.word) ++ String.ofList p.blank ++ rest).toList =
      style.framed p.word ++ (p.blank.map .char ++ signs rest.toList) := by
  have hp := h p List.mem_cons_self
  rw [Piece.text, List.mem_append, not_or] at hp
  rw [String.toList_append, String.toList_append, String.toList_ofList, List.append_assoc,
    signs_apply style hp.1, signs_text hp.2]

lemma painted_paintArguments (command : Option Arguments.CommandGrammar) {ps : List Piece}
    (h : Plain ps) : Painted ps (signs (paintArguments command ps).toList) := by
  induction ps with
  | nil =>
      rw [paintArguments, String.toList_empty, signs]
      exact .nil
  | cons p ps ih =>
      rw [paintArguments, h.signs_piece]
      exact .cons _ p (ih h.tail)

lemma painted_paintPieces {ps : List Piece} (h : Plain ps) :
    Painted ps (signs (paintPieces ps).toList) := by
  induction ps with
  | nil =>
      rw [paintPieces, String.toList_empty, signs]
      exact .nil
  | cons p ps ih =>
      rw [paintPieces]
      split
      · next hempty =>
        -- the blanks in front of the command are a piece in no style
        have hword := List.isEmpty_iff.mp hempty
        have hpiece := h.signs_piece .plain (paintPieces ps)
        have happly : Style.plain.apply (String.ofList p.word) = "" := by
          rw [hword]
          rfl
        rw [happly, String.empty_append] at hpiece
        rw [hpiece]
        exact .cons .plain p (ih h.tail)
      · rw [h.signs_piece]
        exact .cons _ p (painted_paintArguments _ h.tail)

/-! ## Text for the serial line -/

lemma pieces_blank {c : Char} (hc : Text.isBlank c = true) (cs : List Char) :
    pieces (c :: cs) = ⟨[], [c]⟩ :: pieces cs := by
  rw [pieces, if_pos hc]

/-- A word is one piece with the blank after it, if there is one. -/
lemma pieces_word {word rest : List Char} (hne : word ≠ [])
    (hword : ∀ c ∈ word, Text.isBlank c = false) (hrest : ∀ c ∈ rest.head?, Text.isBlank c = true) :
    pieces (word ++ rest) = ⟨word, rest.take 1⟩ :: pieces (rest.drop 1) := by
  induction word with
  | nil => exact absurd rfl hne
  | cons c word ih =>
      have hc := hword c List.mem_cons_self
      rw [List.cons_append, pieces, if_neg (by simp [hc])]
      cases word with
      | nil =>
          cases rest with
          | nil => rfl
          | cons b rest =>
              rw [List.nil_append, pieces_blank (hrest b rfl)]
              rfl
      | cons c' word =>
          rw [ih (List.cons_ne_nil _ _) fun c hm => hword c (List.mem_cons_of_mem _ hm)]

/-- The arguments of `input` are left as they are. -/
lemma toList_paintArguments_input {g : Arguments.CommandGrammar} (hg : g.name = "input")
    (ps : List Piece) : (paintArguments (some g) ps).toList = ps.flatMap Piece.text := by
  have hstyle (word : List Char) : argumentStyle (some g) word = .plain := by
    simp [argumentStyle, hg]
  induction ps with
  | nil => rfl
  | cons p ps ih =>
      rw [paintArguments, hstyle, ite_self, List.flatMap_cons, ← ih]
      simp [Style.apply, Style.opening, Style.closing, Piece.text]

lemma toList_paintPieces_blanks {lead : List Char} (hlead : ∀ c ∈ lead, Text.isBlank c = true)
    (cs : List Char) :
    (paintPieces (pieces (lead ++ cs))).toList = lead ++ (paintPieces (pieces cs)).toList := by
  induction lead with
  | nil => rfl
  | cons c lead ih =>
      rw [List.cons_append, pieces_blank (hlead c List.mem_cons_self), paintPieces,
        if_pos List.isEmpty_nil, String.toList_append, String.toList_ofList,
        ih fun c' hm => hlead c' (List.mem_cons_of_mem c hm)]
      rfl

/-- **After a word that stands for `input` there are only characters.** -/
lemma signs_paint_input {lead word rest : List Char} {g : Arguments.CommandGrammar}
    (hesc : '\x1b' ∉ lead ++ word ++ rest) (hlead : ∀ c ∈ lead, Text.isBlank c = true)
    (hne : word ≠ []) (hword : ∀ c ∈ word, Text.isBlank c = false)
    (hrest : ∀ c ∈ rest.head?, Text.isBlank c = true)
    (hg : command? grammar (String.ofList word) = some g) (hname : g.name = "input") :
    signs (paint (String.ofList (lead ++ word ++ rest))).toList =
      lead.map .char ++ (Style.bold.framed word ++ rest.map .char) := by
  have hbold : commandStyle (some g) (String.ofList word) = .bold := by simp [commandStyle]
  have hpainted : (paintPieces (pieces (word ++ rest))).toList =
      (Style.bold.apply (String.ofList word)).toList ++ rest := by
    rw [pieces_word hne hword hrest, paintPieces, if_neg (by simpa using hne)]
    simp only [hg, hbold, String.toList_append, String.toList_ofList,
      toList_paintArguments_input hname, flatMap_pieces, List.append_assoc,
      List.take_append_drop]
  simp only [List.mem_append, not_or] at hesc
  have hend : signs rest = rest.map .char := by
    have htext := signs_text hesc.2 []
    rw [List.append_nil] at htext
    rw [htext, signs, List.append_nil]
  rw [paint, String.toList_ofList, List.append_assoc, toList_paintPieces_blanks hlead, hpainted,
    signs_text hesc.1.1, signs_apply .bold hesc.1.2, hend]

/-- **Painting never alters the text.**  Without style sequences a painted line is the line.  No
    style is in force at a blank, nor at the end, so each is ended before the blank after its word.
    After a first word that stands for `input`, by its name or by a start of it, nothing has a
    style. -/
theorem painting_keeps_text (line : String) (hline : '\x1b' ∉ line.toList) :
    characters (signs (paint line).toList) = line.toList ∧
    Closed [] (signs (paint line).toList) ∧
    ∀ lead word rest, line.toList = lead ++ word ++ rest →
      (∀ c ∈ lead, Text.isBlank c = true) → word ≠ [] → (∀ c ∈ word, Text.isBlank c = false) →
      (∀ c ∈ rest.head?, Text.isBlank c = true) →
      (command? grammar (String.ofList word)).map Arguments.CommandGrammar.name = some "input" →
      signs (paint line).toList =
        lead.map .char ++ (Style.bold.framed word ++ rest.map .char) := by
  have hpainted := painted_paintPieces (plain_pieces hline)
  refine ⟨?_, ?_, ?_⟩
  · rw [paint, hpainted.characters_eq, flatMap_pieces]
  · exact hpainted.closed fun p hp => not_isBlank_of_mem_pieces hp
  · intro lead word rest hparts hlead hne hword hrest hinput
    obtain ⟨g, hg, hname⟩ := Option.map_eq_some_iff.mp hinput
    rw [← String.ofList_toList (s := line), hparts]
    exact signs_paint_input (hparts ▸ hline) hlead hne hword hrest hg hname

/-- A start of `input` is bold, and what comes after it has no style, although it names a register
    and a number. -/
theorem shortened_input_unstyled :
    '\x1b' ∉ "\t inp  [a0]\u00a042 ".toList ∧
    characters (signs (paint "\t inp  [a0]\u00a042 ").toList) = "\t inp  [a0]\u00a042 ".toList ∧
    signs (paint "\t inp  [a0]\u00a042 ").toList =
      "\t ".toList.map .char ++
        (Style.bold.framed "inp".toList ++ "  [a0]\u00a042 ".toList.map .char) := by
  have hline : '\x1b' ∉ "\t inp  [a0]\u00a042 ".toList := by decide
  obtain ⟨htext, _, hinput⟩ := painting_keeps_text "\t inp  [a0]\u00a042 " hline
  have hlead : "\t ".toList.all Text.isBlank = true := by decide
  have hword : "inp".toList.all (fun c => !Text.isBlank c) = true := by decide
  have hrest : "  [a0]\u00a042 ".toList.head? = some ' ' := by decide
  refine ⟨hline, htext, hinput _ _ _ rfl ?_ ?_ ?_ ?_ ?_⟩
  · exact List.all_eq_true.mp hlead
  · decide
  · intro c hc
    simpa using List.all_eq_true.mp hword c hc
  · intro c hc
    obtain rfl := Option.some.inj (hrest.symm.trans hc)
    decide
  · decide +kernel

end Rv64Board.Debugger.Editor
