import Mathlib.Data.List.TakeWhile
import Rv64Board.Debugger.Expression

/-!
# Parsers and the texts that they take

What a parser takes off a text, and which texts it takes.

* `run1_eq_some_iff` and the like — **what each parser takes and what it leaves,** in both
  directions.
* `many0_of_some`, `many0_induction` — the steps of a repetition.
* `Spaced` — a text is made of given parts, with blanks around each of them.
-/

namespace Rv64Board.Text.Parser

variable {α β γ : Type} {p : Parser α} {q : Parser β}
  {cs rest : List Char}

/-- What a parser takes off a text is written as a grammar says. -/
def Sound (p : Parser α) (G : List Char → α → Prop) : Prop :=
  ∀ ⦃cs a rest⦄, p cs = some (a, rest) → ∃ w, cs = w ++ rest ∧ G w a

/-! ## Equations -/

lemma map_eq_some_iff {f : α → β} {b : β} :
    map p f cs = some (b, rest) ↔ ∃ a, p cs = some (a, rest) ∧ f a = b := by
  simp only [map, Option.map_eq_some_iff, Prod.exists, Prod.mk.injEq]
  constructor
  · rintro ⟨a, _, hp, hb, rfl⟩
    exact ⟨a, hp, hb⟩
  · rintro ⟨a, hp, hb⟩
    exact ⟨a, rest, hp, hb, rfl⟩

lemma mapRes_eq_some_iff {f : α → Option β} {b : β} :
    mapRes p f cs = some (b, rest) ↔ ∃ a, p cs = some (a, rest) ∧ f a = some b := by
  simp only [mapRes, Option.bind_eq_some_iff, Option.map_eq_some_iff, Prod.exists, Prod.mk.injEq]
  constructor
  · rintro ⟨a, _, hp, _, hb, rfl, rfl⟩
    exact ⟨a, hp, hb⟩
  · rintro ⟨a, hp, hb⟩
    exact ⟨a, rest, hp, b, hb, rfl, rfl⟩

lemma pair_eq_some_iff {ab : α × β} :
    pair p q cs = some (ab, rest) ↔
      ∃ mid, p cs = some (ab.1, mid) ∧ q mid = some (ab.2, rest) := by
  obtain ⟨a, b⟩ := ab
  simp only [pair, Option.bind_eq_some_iff, Prod.exists, map_eq_some_iff, Prod.mk.injEq]
  constructor
  · rintro ⟨_, mid, hp, _, hq, rfl, rfl⟩
    exact ⟨mid, hp, hq⟩
  · rintro ⟨mid, hp, hq⟩
    exact ⟨a, mid, hp, b, hq, rfl, rfl⟩

lemma preceded_eq_some_iff {b : β} :
    preceded p q cs = some (b, rest) ↔
      ∃ a mid, p cs = some (a, mid) ∧ q mid = some (b, rest) := by
  simp only [preceded, map_eq_some_iff, pair_eq_some_iff, Prod.exists]
  constructor
  · rintro ⟨a, _, ⟨mid, hp, hq⟩, rfl⟩
    exact ⟨a, mid, hp, hq⟩
  · rintro ⟨a, mid, hp, hq⟩
    exact ⟨a, b, ⟨mid, hp, hq⟩, rfl⟩

lemma delimited_eq_some_iff {r : Parser γ} {b : β} :
    delimited p q r cs = some (b, rest) ↔
      ∃ a mid mid' c, p cs = some (a, mid) ∧ q mid = some (b, mid') ∧ r mid' = some (c, rest) := by
  simp only [delimited, map_eq_some_iff, pair_eq_some_iff, preceded_eq_some_iff, Prod.exists]
  constructor
  · rintro ⟨_, c, ⟨mid', ⟨a, mid, hp, hq⟩, hr⟩, rfl⟩
    exact ⟨a, mid, mid', c, hp, hq, hr⟩
  · rintro ⟨a, mid, mid', c, hp, hq, hr⟩
    exact ⟨b, c, ⟨mid', ⟨a, mid, hp, hq⟩, hr⟩, rfl⟩

lemma char_eq_some_iff {c d : Char} : char c cs = some (d, rest) ↔ d = c ∧ cs = c :: rest := by
  cases cs with
  | nil => simp [char]
  | cons b cs =>
      by_cases hb : b = c
      · simp [char, hb, eq_comm]
      · simp [char, hb]

lemma alt_eq_some_iff {p p' : Parser α} {taken : α × List Char} :
    alt p p' cs = some taken ↔ p cs = some taken ∨ p cs = none ∧ p' cs = some taken := by
  rw [alt]
  cases p cs <;> simp

lemma opt_eq_some_iff {a? : Option α} :
    opt p cs = some (a?, rest) ↔
      (∃ a, a? = some a ∧ p cs = some (a, rest)) ∨ a? = none ∧ p cs = none ∧ cs = rest := by
  rw [opt]
  cases p cs with
  | none => simp [eq_comm]
  | some taken =>
      obtain ⟨a, rest'⟩ := taken
      simp only [Option.some.injEq, Prod.mk.injEq, reduceCtorEq, false_and, and_false, or_false]
      constructor
      · rintro ⟨rfl, rfl⟩
        exact ⟨a, rfl, rfl, rfl⟩
      · rintro ⟨_, rfl, rfl, rfl⟩
        exact ⟨rfl, rfl⟩

section Runs

variable {inClass : Char → Bool} {w : List Char}

lemma dropWhile_of_head (h : cs.head?.any inClass = false) : cs.dropWhile inClass = cs := by
  cases cs with
  | nil => rfl
  | cons c cs => exact List.dropWhile_cons_of_neg (ne_true_of_eq_false h)

lemma head_dropWhile (inClass : Char → Bool) (cs : List Char) :
    (cs.dropWhile inClass).head?.any inClass = false := by
  induction cs with
  | nil => rfl
  | cons c cs ih =>
      cases hc : inClass c with
      | true => rwa [List.dropWhile_cons_of_pos hc]
      | false => rw [List.dropWhile_cons_of_neg (ne_true_of_eq_false hc), List.head?_cons,
          Option.any_some, hc]

/-- **The longest run is taken:** what is left does not go on in the same class. -/
lemma run1_eq_some_iff :
    run1 inClass cs = some (w, rest) ↔
      cs = w ++ rest ∧ w ≠ [] ∧ (∀ c ∈ w, inClass c = true) ∧ rest.head?.any inClass = false := by
  constructor
  · intro h
    rw [run1] at h
    split at h
    · next hhead =>
      cases h
      refine ⟨List.takeWhile_append_dropWhile.symm, ?_, fun c hc => List.mem_takeWhile_imp hc,
        head_dropWhile inClass cs⟩
      intro hnil
      rw [← List.takeWhile_append_dropWhile (p := inClass) (l := cs), hnil, List.nil_append,
        head_dropWhile] at hhead
      cases hhead
    · cases h
  · rintro ⟨rfl, hne, hclass, hrest⟩
    obtain ⟨c, w, rfl⟩ := List.exists_cons_of_ne_nil hne
    have hfront : ((c :: w) ++ rest).head?.any inClass = true := hclass c List.mem_cons_self
    have hdrop : ((c :: w) ++ rest).dropWhile inClass = rest := by
      rw [List.dropWhile_append_of_pos hclass, dropWhile_of_head hrest]
    have htake := List.takeWhile_append_dropWhile (p := inClass) (l := (c :: w) ++ rest)
    rw [hdrop] at htake
    rw [run1, if_pos hfront, run0, hdrop, List.append_cancel_right htake]

end Runs

lemma allConsuming_eq_some_iff {a : α} :
    allConsuming p cs = some (a, rest) ↔ p cs = some (a, []) ∧ rest = [] := by
  simp only [allConsuming, Option.filter_eq_some_iff, List.isEmpty_iff]
  constructor
  · rintro ⟨hp, rfl⟩
    exact ⟨hp, rfl⟩
  · rintro ⟨hp, rfl⟩
    exact ⟨hp, rfl⟩

/-! ## Repetition -/

lemma many0_of_none (h : p cs = none) : many0 p cs = some ([], cs) := by
  rw [many0, h]

lemma many0_of_some {a : α} {mid : List Char} {as : List α} (h : p cs = some (a, mid))
    (hless : mid.length < cs.length) (hmid : many0 p mid = some (as, rest)) :
    many0 p cs = some (a :: as, rest) := by
  rw [many0, h]
  dsimp only
  rw [dif_pos hless, hmid]
  rfl

/-- **What is taken in repetition** is taken off part by part. -/
lemma many0_induction {motive : List Char → List α → List Char → Prop}
    (nil : ∀ cs, motive cs [] cs)
    (cons : ∀ cs a mid as rest, p cs = some (a, mid) → motive mid as rest →
      motive cs (a :: as) rest)
    {as : List α} (h : many0 p cs = some (as, rest)) : motive cs as rest := by
  fun_induction many0 p cs generalizing as with
  | case1 cs hp =>
      cases h
      exact nil _
  | case2 cs a mid hp hless ih =>
      obtain ⟨⟨as, rest⟩, hmid, heq⟩ := Option.map_eq_some_iff.mp h
      cases heq
      exact cons cs a mid as rest hp (ih hmid)
  | case3 => cases h

end Rv64Board.Text.Parser

namespace Rv64Board.Debugger

open Text (Parser)
open Text.Parser

variable {α : Type} {p : Parser α} {c : Char} {cs rest : List Char} {parts : List (List Char)}

/-! ## Parts of a text -/

/-- Spaces, tabs and the two characters that end lines. -/
def blankChars : List Char := [' ', '\t', '\r', '\n']

/-- A text that is blank, or empty. -/
def Blanks (cs : List Char) : Prop := ∀ c ∈ cs, c ∈ blankChars

/-- A text is a row of parts with blanks around each of them. -/
inductive Spaced : List (List Char) → List Char → Prop
  | done {gap : List Char} : Blanks gap → Spaced [] gap
  | part {gap part rest : List Char} {parts : List (List Char)} :
      Blanks gap → Spaced parts rest → Spaced (part :: parts) (gap ++ part ++ rest)

lemma isGap_iff : isGap c = true ↔ c ∈ blankChars := by
  simp [isGap, blankChars, or_assoc]

lemma Blanks.nil : Blanks [] := by
  intro c hc
  cases hc

lemma blanks_takeWhile (cs : List Char) : Blanks (cs.takeWhile isGap) := fun _ hc =>
  isGap_iff.mp (List.mem_takeWhile_imp hc)

lemma Blanks.dropWhile {gap : List Char} (h : Blanks gap) (cs : List Char) :
    (gap ++ cs).dropWhile isGap = cs.dropWhile isGap :=
  List.dropWhile_append_of_pos fun c hc => isGap_iff.mpr (h c hc)

lemma Blanks.dropWhile_eq_nil {gap : List Char} (h : Blanks gap) : gap.dropWhile isGap = [] := by
  have hnil := h.dropWhile []
  rwa [List.append_nil] at hnil

/-- Blanks in front belong to the first gap. -/
lemma Spaced.blanks {gap : List Char} (hgap : Blanks gap) (h : Spaced parts cs) :
    Spaced parts (gap ++ cs) := by
  cases h with
  | done hcs => exact .done (List.forall_mem_append.mpr ⟨hgap, hcs⟩)
  | part hfirst hrest =>
      rw [List.append_assoc, ← List.append_assoc gap, ← List.append_assoc]
      exact .part (List.forall_mem_append.mpr ⟨hgap, hfirst⟩) hrest

lemma Spaced.front {part : List Char} (h : Spaced parts cs) :
    Spaced (part :: parts) (part ++ cs) := @Spaced.part [] part cs parts Blanks.nil h

lemma Spaced.append {parts' : List (List Char)} {cs' : List Char} (h : Spaced parts cs)
    (h' : Spaced parts' cs') : Spaced (parts ++ parts') (cs ++ cs') := by
  induction h with
  | done hgap => exact h'.blanks hgap
  | part hgap _ ih =>
      rw [List.append_assoc]
      exact .part hgap ih

/-- A text that goes on with a character after its parts is cut right before that character. -/
lemma Spaced.exists_cut (h : Spaced (parts ++ [[c]]) cs) :
    ∃ text gap, cs = text ++ c :: gap ∧ Spaced parts text ∧ Blanks gap := by
  induction parts generalizing cs with
  | nil =>
      cases h with
      | @part gap _ rest _ hgap hrest =>
          cases hrest with
          | done hlast => exact ⟨gap, rest, by simp, .done hgap, hlast⟩
  | cons part parts ih =>
      cases h with
      | @part gap _ _ _ hgap hrest =>
          obtain ⟨text, last, rfl, htext, hlast⟩ := ih hrest
          exact ⟨gap ++ part ++ text, last, by simp, .part hgap htext, hlast⟩

/-! ## Blanks around a part -/

/-- **Blanks on both sides of a part are skipped.** -/
lemma withBlanks_eq_some_iff {a : α} :
    withBlanks p cs = some (a, rest) ↔
      ∃ mid, p (cs.dropWhile isGap) = some (a, mid) ∧ mid.dropWhile isGap = rest := by
  simp only [withBlanks, delimited_eq_some_iff, blanks0, run0, Option.some.injEq, Prod.mk.injEq]
  constructor
  · rintro ⟨_, _, mid, _, ⟨-, rfl⟩, hp, -, hrest⟩
    exact ⟨mid, hp, hrest⟩
  · rintro ⟨mid, hp, hrest⟩
    exact ⟨_, _, mid, _, ⟨rfl, rfl⟩, hp, rfl, hrest⟩

lemma withBlanks_dropWhile (cs : List Char) :
    withBlanks p (cs.dropWhile isGap) = withBlanks p cs := by
  refine Option.ext fun ⟨a, rest⟩ => ?_
  rw [withBlanks_eq_some_iff, withBlanks_eq_some_iff, dropWhile_of_head (head_dropWhile isGap cs)]

/-- What is taken with the blanks around it is a part on its own. -/
lemma sound_withBlanks {G : List Char → α → Prop} (hp : Sound p G) :
    Sound (withBlanks p) fun text a => ∃ w, Spaced [w] text ∧ G w a := by
  intro cs a rest h
  obtain ⟨mid, hmid, rfl⟩ := withBlanks_eq_some_iff.mp h
  obtain ⟨w, hw, hG⟩ := hp hmid
  refine ⟨cs.takeWhile isGap ++ w ++ mid.takeWhile isGap, ?_, w,
    .part (blanks_takeWhile cs) (.done (blanks_takeWhile mid)), hG⟩
  rw [List.append_assoc, List.takeWhile_append_dropWhile, List.append_assoc, ← hw,
    List.takeWhile_append_dropWhile]

/-- A part is taken with the blanks around it. -/
lemma withBlanks_append {a : α} {gap w : List Char} (hgap : Blanks gap)
    (hfront : (w ++ rest).head?.any isGap = false) (hp : p (w ++ rest) = some (a, rest)) :
    withBlanks p (gap ++ (w ++ rest)) = some (a, rest.dropWhile isGap) := by
  refine withBlanks_eq_some_iff.mpr ⟨rest, ?_, rfl⟩
  rw [hgap.dropWhile, dropWhile_of_head hfront, hp]

lemma withBlanks_eq_none {gap w : List Char} (hgap : Blanks gap)
    (hfront : (w ++ rest).head?.any isGap = false) (hp : p (w ++ rest) = none) :
    withBlanks p (gap ++ (w ++ rest)) = none := by
  refine Option.eq_none_iff_forall_ne_some.mpr fun taken htaken => ?_
  obtain ⟨mid, hmid, -⟩ := withBlanks_eq_some_iff.mp htaken
  rw [hgap.dropWhile, dropWhile_of_head hfront, hp] at hmid
  cases hmid

end Rv64Board.Debugger
