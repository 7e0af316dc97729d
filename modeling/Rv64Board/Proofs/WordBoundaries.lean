import Mathlib.Tactic.Common
import Rv64Board.Text.Words

/-!
# Words, one character after the other

A line is split into words by reading it from left to right.  Here the reader is stopped anywhere,
so that what comes next can be told apart from what has been read.

* `Reading` — how far a text has been read: the words that are complete, and the one that has been
  begun.
* `split?_eq` — **splitting a text is reading all of it.**
* `Reading.Begun` — outside of quotes and comments, with given words complete and one begun.
* `split?_of_begun`, `begun_of_split?` — this is where plain text goes on with a word, but for a
  comment after the last of the words.
* `text_foldl`, `text_of_words?` — words hold characters of the text, in the order in which they
  stand there.
-/

namespace Rv64Board.Text.Words

/-! ## Readers -/

/-- How far a text has been read. -/
structure Reading where
  mode : Mode
  /-- The characters of the word that has been begun, last first. -/
  begun : List Char
  /-- The words before it. -/
  complete : List String

namespace Reading

/-- Reads one character. -/
def step (s : Reading) (c : Char) : Reading :=
  match s.mode with
  | .gap =>
    if c = '\x27' then { s with mode := .single }
    else if c = '"' then { s with mode := .double }
    else if c = '\\' then { s with mode := .gapEscape }
    else if separates c then s
    else if c = '#' then { s with mode := .comment }
    else { s with mode := .bare, begun := c :: s.begun }
  | .gapEscape =>
    if c = '\n' then { s with mode := .gap } else { s with mode := .bare, begun := c :: s.begun }
  | .bare =>
    if c = '\x27' then { s with mode := .single }
    else if c = '"' then { s with mode := .double }
    else if c = '\\' then { s with mode := .bareEscape }
    else if separates c then ⟨.gap, [], s.complete ++ [wordOf s.begun]⟩
    else { s with begun := c :: s.begun }
  | .bareEscape =>
    if c = '\n' then { s with mode := .bare } else { s with mode := .bare, begun := c :: s.begun }
  | .single =>
    if c = '\x27' then { s with mode := .bare } else { s with begun := c :: s.begun }
  | .double =>
    if c = '"' then { s with mode := .bare }
    else if c = '\\' then { s with mode := .doubleEscape }
    else { s with begun := c :: s.begun }
  | .doubleEscape =>
    if c = '\n' then { s with mode := .double }
    else if escapable c then { s with mode := .double, begun := c :: s.begun }
    else { s with mode := .double, begun := c :: '\\' :: s.begun }
  | .comment => if c = '\n' then { s with mode := .gap } else s

/-- The words of a text that ends here. -/
def words? (s : Reading) : Option (List String) :=
  match s.mode with
  | .gap | .comment => some s.complete
  | .bare => some (s.complete ++ [wordOf s.begun])
  | .gapEscape | .bareEscape => some (s.complete ++ [wordOf ('\\' :: s.begun)])
  | .single | .double | .doubleEscape => none

end Reading

/-- The reader after a text. -/
def after (text : List Char) : Reading :=
  text.foldl Reading.step ⟨.gap, [], []⟩

lemma after_append (a b : List Char) : after (a ++ b) = b.foldl Reading.step (after a) :=
  List.foldl_append

lemma scan_eq (cs : List Char) (mode : Mode) (begun : List Char) (complete : List String) :
    (scan mode begun cs).map (complete ++ ·) =
      (cs.foldl Reading.step ⟨mode, begun, complete⟩).words? := by
  induction cs generalizing mode begun complete with
  | nil => cases mode <;> simp [scan, Reading.words?]
  | cons c cs ih =>
      cases mode with
      | bare =>
          simp only [scan, List.foldl_cons, Reading.step]
          split_ifs
          · exact ih ..
          · exact ih ..
          · exact ih ..
          · -- a separator completes the word
            rw [← ih, Option.map_map]
            simp only [Function.comp_def, List.append_assoc, List.singleton_append]
          · exact ih ..
      | gap | gapEscape | bareEscape | single | double | doubleEscape | comment =>
          simp only [scan, List.foldl_cons, Reading.step]
          split_ifs <;> exact ih ..

/-- **Splitting a text is reading all of it.** -/
lemma split?_eq (s : String) : split? s = (after s.toList).words? := by
  have h := scan_eq s.toList .gap [] []
  simpa [split?, after] using h

/-! ## Plain text -/

/-- A character that stands for itself wherever it stands outside of a comment. -/
def isPlain (c : Char) : Bool :=
  c ≠ '\x27' && c ≠ '"' && c ≠ '\\' && c ≠ '#' && !separates c

/-- Outside of quotes and comments. -/
def Mode.isOutside : Mode → Bool
  | .gap | .gapEscape | .bare | .bareEscape => true
  | .single | .double | .doubleEscape | .comment => false

/-- Within quotes. -/
def Mode.isQuoted : Mode → Bool
  | .single | .double | .doubleEscape => true
  | .gap | .gapEscape | .bare | .bareEscape | .comment => false

/-- What a plain character is not. -/
lemma isPlain_iff {c : Char} : isPlain c = true ↔
    c ≠ '\x27' ∧ c ≠ '"' ∧ c ≠ '\\' ∧ c ≠ '#' ∧ separates c = false := by
  simp [isPlain, and_assoc]

lemma ne_newline_of_isPlain {c : Char} (hc : isPlain c = true) : c ≠ '\n' := by
  rintro rfl
  cases hc

namespace Reading

/-- Outside of quotes and comments, some words are complete and another has been begun. -/
structure Begun (s : Reading) (earlier : List String) (word : String) : Prop where
  outside : s.mode.isOutside = true
  complete : s.complete = earlier
  begun : wordOf s.begun = word

section Plain

variable {s : Reading} {c : Char} {cs : List Char}

lemma step_outside (hc : isPlain c = true) (hs : s.mode.isOutside = true) :
    s.step c = ⟨.bare, c :: s.begun, s.complete⟩ := by
  obtain ⟨mode, begun, complete⟩ := s
  obtain ⟨hsingle, hdouble, hescape, hnumber, hseparates⟩ := isPlain_iff.mp hc
  have hnewline := ne_newline_of_isPlain hc
  cases mode with
  | gap | gapEscape | bare | bareEscape => simp [step, *]
  | single | double | doubleEscape | comment => cases hs

lemma step_comment (hc : isPlain c = true) (hs : s.mode = .comment) : s.step c = s := by
  rw [step, hs]
  exact if_neg (ne_newline_of_isPlain hc)

lemma step_quoted (hc : isPlain c = true) (hs : s.mode.isQuoted = true) :
    (s.step c).mode.isQuoted = true := by
  obtain ⟨mode, begun, complete⟩ := s
  obtain ⟨hsingle, hdouble, hescape, _⟩ := isPlain_iff.mp hc
  cases mode with
  | single => simp [step, hsingle, Mode.isQuoted]
  | double => simp [step, hdouble, hescape, Mode.isQuoted]
  | doubleEscape =>
      simp only [step]
      split_ifs <;> rfl
  | gap | gapEscape | bare | bareEscape | comment => cases hs

/-- Outside of quotes and comments, plain text goes on with the word that has been begun. -/
lemma foldl_outside (hcs : ∀ c ∈ cs, isPlain c = true) (hne : cs ≠ [])
    (hs : s.mode.isOutside = true) :
    cs.foldl step s = ⟨.bare, cs.reverse ++ s.begun, s.complete⟩ := by
  induction cs generalizing s with
  | nil => exact absurd rfl hne
  | cons c cs ih =>
      obtain ⟨hc, hrest⟩ := List.forall_mem_cons.mp hcs
      rw [List.foldl_cons, step_outside hc hs]
      by_cases hcs : cs = []
      · subst hcs
        rfl
      · rw [ih hrest hcs rfl, List.reverse_cons, List.append_assoc]
        rfl

lemma foldl_comment (hcs : ∀ c ∈ cs, isPlain c = true) (hs : s.mode = .comment) :
    cs.foldl step s = s := by
  induction cs with
  | nil => rfl
  | cons c cs ih =>
      obtain ⟨hc, hrest⟩ := List.forall_mem_cons.mp hcs
      rw [List.foldl_cons, step_comment hc hs, ih hrest]

lemma foldl_quoted (hcs : ∀ c ∈ cs, isPlain c = true) (hs : s.mode.isQuoted = true) :
    (cs.foldl step s).mode.isQuoted = true := by
  induction cs generalizing s with
  | nil => exact hs
  | cons c cs ih =>
      obtain ⟨hc, hrest⟩ := List.forall_mem_cons.mp hcs
      exact ih hrest (step_quoted hc hs)

/-- A separator ends the word that has been begun. -/
lemma step_separator {x : Char} (h : separates x = true) (begun : List Char)
    (complete : List String) :
    step ⟨.gap, begun, complete⟩ x = ⟨.gap, begun, complete⟩ ∧
      step ⟨.bare, begun, complete⟩ x = ⟨.gap, [], complete ++ [wordOf begun]⟩ := by
  simp only [separates, Bool.or_eq_true, decide_eq_true_eq] at h
  rcases h with (rfl | rfl) | rfl <;> exact ⟨rfl, rfl⟩

lemma words?_of_quoted (hs : s.mode.isQuoted = true) : s.words? = none := by
  obtain ⟨mode, begun, complete⟩ := s
  cases mode with
  | single | double | doubleEscape => rfl
  | gap | gapEscape | bare | bareEscape | comment => cases hs

end Plain

end Reading

lemma wordOf_append (a b : List Char) : wordOf (a.reverse ++ b) = wordOf b ++ String.ofList a := by
  simp [wordOf]

lemma split?_append (text : List Char) (x : String) :
    split? (String.ofList text ++ x) = (x.toList.foldl Reading.step (after text)).words? := by
  rw [split?_eq, String.toList_append, String.toList_ofList, after_append]

section Continuing

variable {text : List Char} {x : String} (hplain : ∀ c ∈ x.toList, isPlain c = true) (hx : x ≠ "")
  {earlier : List String} {word : String}
include hplain hx

/-- **Plain text that follows goes on with the word that has been begun.** -/
lemma split?_of_begun (h : (after text).Begun earlier word) :
    split? (String.ofList text ++ x) = some (earlier ++ [word ++ x]) := by
  have hne : x.toList ≠ [] := by simpa using hx
  rw [split?_append, Reading.foldl_outside hplain hne h.outside, Reading.words?,
    wordOf_append, h.complete, h.begun, String.ofList_toList]

/-- **Otherwise it does not,** unless it is in a comment after the words. -/
lemma begun_of_split? (h : split? (String.ofList text ++ x) = some (earlier ++ [word ++ x])) :
    (after text).Begun earlier word ∨
      (after text).mode = .comment ∧ (after text).complete = earlier ++ [word ++ x] := by
  have hne : x.toList ≠ [] := by simpa using hx
  rw [split?_append] at h
  by_cases houtside : (after text).mode.isOutside = true
  · left
    rw [Reading.foldl_outside hplain hne houtside, Reading.words?, wordOf_append,
      String.ofList_toList, Option.some.injEq] at h
    obtain ⟨hcomplete, hword⟩ := List.append_inj' h rfl
    refine ⟨houtside, hcomplete, ?_⟩
    have happend := congrArg String.toList (List.singleton_inj.mp hword)
    rw [String.toList_append, String.toList_append] at happend
    exact String.toList_inj.mp (List.append_cancel_right happend)
  · right
    by_cases hquoted : (after text).mode.isQuoted = true
    · rw [Reading.words?_of_quoted (Reading.foldl_quoted hplain hquoted)] at h
      cases h
    · have hcomment : (after text).mode = .comment := by
        cases hmode : (after text).mode <;> simp_all [Mode.isOutside, Mode.isQuoted]
      rw [Reading.foldl_comment hplain hcomment, Reading.words?, hcomment, Option.some.injEq] at h
      exact ⟨hcomment, h⟩

end Continuing

/-! ## Characters of words -/

namespace Reading

/-- A backslash that may yet stand for itself. -/
def held (s : Reading) : List Char :=
  match s.mode with
  | .gapEscape | .bareEscape | .doubleEscape => ['\\']
  | .gap | .bare | .single | .double | .comment => []

/-- The characters that have been read into words, or may yet be. -/
def text (s : Reading) : List Char :=
  s.complete.flatMap String.toList ++ s.begun.reverse ++ s.held

lemma text_step (s : Reading) (c : Char) : (s.step c).text.Sublist (s.text ++ [c]) := by
  obtain ⟨mode, begun, complete⟩ := s
  cases mode <;> simp only [step] <;> split_ifs <;> simp_all [text, held, wordOf]

/-- **Reading keeps the order of characters** and adds none. -/
lemma text_foldl (cs : List Char) (s : Reading) :
    (cs.foldl step s).text.Sublist (s.text ++ cs) := by
  induction cs generalizing s with
  | nil => simp
  | cons c cs ih =>
      have hstep := (s.text_step c).append_right cs
      rw [List.append_assoc, List.singleton_append] at hstep
      exact (ih (s.step c)).trans hstep

lemma text_of_words? {s : Reading} {words : List String} (h : s.words? = some words) :
    (words.flatMap String.toList).Sublist s.text := by
  obtain ⟨mode, begun, complete⟩ := s
  cases mode with
  | gap | comment =>
      obtain rfl := Option.some.inj h
      rw [text, List.append_assoc]
      exact List.sublist_append_left _ _
  | bare | gapEscape | bareEscape =>
      obtain rfl := Option.some.inj h
      simp [text, held, wordOf]
  | single | double | doubleEscape => cases h

lemma complete_step (s : Reading) (c : Char) : s.complete <+: (s.step c).complete := by
  obtain ⟨mode, begun, complete⟩ := s
  cases mode <;> simp only [step] <;> split_ifs <;> simp

lemma complete_foldl (cs : List Char) (s : Reading) :
    s.complete <+: (cs.foldl step s).complete := by
  induction cs generalizing s with
  | nil => exact List.prefix_refl _
  | cons c cs ih => exact (s.complete_step c).trans (ih _)

lemma complete_of_words? {s : Reading} {words : List String} (h : s.words? = some words) :
    s.complete <+: words := by
  obtain ⟨mode, begun, complete⟩ := s
  cases mode with
  | gap | comment =>
      obtain rfl := Option.some.inj h
      exact List.prefix_refl _
  | bare | gapEscape | bareEscape =>
      obtain rfl := Option.some.inj h
      exact List.prefix_append _ _
  | single | double | doubleEscape => cases h

/-- Where no word has been begun, a character that is read is the first of one, if it is of any. -/
lemma Begun.text_step {s : Reading} {earlier : List String} (h : s.Begun earlier "") (c : Char) :
    (s.step c).text.Sublist (earlier.flatMap String.toList ++ [c]) := by
  obtain ⟨mode, begun, complete⟩ := s
  obtain ⟨houtside, rfl, hword⟩ := h
  obtain rfl : begun = [] := by simpa [wordOf] using hword
  cases mode with
  | gap | gapEscape | bare | bareEscape =>
      simp only [step]
      split_ifs <;> simp_all [text, held, wordOf]
  | single | double | doubleEscape | comment => cases houtside

end Reading

lemma utf8ByteSize_cons (c : Char) (cs : List Char) :
    (String.ofList (c :: cs)).utf8ByteSize = c.utf8Size + (String.ofList cs).utf8ByteSize := by
  rw [String.ofList_cons, String.utf8ByteSize_append, String.utf8ByteSize_singleton]

lemma utf8ByteSize_of_sublist {a b : List Char} (h : a.Sublist b) :
    (String.ofList a).utf8ByteSize ≤ (String.ofList b).utf8ByteSize := by
  induction h with
  | slnil => exact Nat.le_refl _
  | cons c _ ih =>
      rw [utf8ByteSize_cons]
      omega
  | cons_cons c _ ih =>
      rw [utf8ByteSize_cons, utf8ByteSize_cons]
      omega

/-- Characters that are left out would be missing. -/
lemma eq_of_sublist {a b : List Char} (h : a.Sublist b)
    (hsize : (String.ofList a).utf8ByteSize = (String.ofList b).utf8ByteSize) : a = b := by
  induction h with
  | slnil => rfl
  | cons c h _ =>
      have hle := utf8ByteSize_of_sublist h
      have hpos := c.utf8Size_pos
      rw [utf8ByteSize_cons] at hsize
      omega
  | cons_cons c _ ih =>
      rw [utf8ByteSize_cons, utf8ByteSize_cons] at hsize
      rw [ih (by omega)]

/-- **A word as long as the text that it was read from is that text.** -/
lemma Reading.Begun.eq_of_words? {s : Reading} {earlier : List String} {word : String}
    {cs : List Char} (h : s.Begun earlier "")
    (hwords : (cs.foldl step s).words? = some (earlier ++ [word]))
    (hsize : (String.ofList cs).utf8ByteSize = word.utf8ByteSize) : cs = word.toList := by
  cases cs with
  | nil =>
      have hempty : word = "" := String.utf8ByteSize_eq_zero_iff.mp hsize.symm
      rw [hempty, String.toList_empty]
  | cons c cs =>
      have hread := (text_of_words? hwords).trans (text_foldl cs (s.step c))
      have hfrom := hread.trans ((h.text_step c).append_right cs)
      rw [List.flatMap_append, List.append_assoc, List.append_sublist_append_left] at hfrom
      refine (eq_of_sublist ?_ ?_).symm
      · simpa using hfrom
      · rw [String.ofList_toList, hsize]

end Rv64Board.Text.Words
