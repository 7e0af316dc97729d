import Mathlib.Data.List.Induction
import Rv64Board.Debugger.Editor
import Rv64Board.Proofs.WordBoundaries

/-!
# What a completion makes of a line

A completion puts a candidate in the place of the word at the cursor.  Where that place begins is
counted back from the cursor by the length of the word as it is read, without quotation marks,
backslashes and comments.  So the candidate comes to stand where the word was only if the word is
written as it is read.

* `pairwise_ordered`, `isPlainWord_of_mem_candidates` — candidates stand in order, and are written
  as they are read.
* `AtCursor` — the word at the cursor, with the words before it.
* `WrittenOut` — **the word stands in the text as it is.**
* `WrittenOut.completes`, `AtCursor.writtenOut` — what this means for a candidate, both ways.
* `AtCursor.split?_append_iff` — the same for the text that is shown after the cursor.
* `AtCursor.of_ordinary` — lines on which nothing goes wrong.
-/

namespace Rv64Board.Debugger.Editor

open Arguments Text.Words

/-! ## Candidates in order -/

lemma mem_insertWord {s t : String} {words : List String} (h : t ∈ insertWord s words) :
    t = s ∨ t ∈ words := by
  induction words with
  | nil => exact Or.inl (List.mem_singleton.mp h)
  | cons u words ih =>
      rw [insertWord] at h
      split_ifs at h
      · exact List.mem_cons.mp h
      · exact Or.inr h
      · rcases List.mem_cons.mp h with rfl | h
        · exact Or.inr List.mem_cons_self
        · exact (ih h).imp_right (List.mem_cons_of_mem u)

lemma pairwise_insertWord (s : String) {words : List String} (h : words.Pairwise (· < ·)) :
    (insertWord s words).Pairwise (· < ·) := by
  induction words with
  | nil => exact List.pairwise_singleton _ _
  | cons t words ih =>
      obtain ⟨hfirst, hrest⟩ := List.pairwise_cons.mp h
      rw [insertWord]
      split_ifs with hlt heq
      · refine List.pairwise_cons.mpr ⟨fun u hu => ?_, h⟩
        rcases List.mem_cons.mp hu with rfl | hu
        · exact hlt
        · exact String.lt_trans hlt (hfirst u hu)
      · exact h
      · have hgt : t < s := Std.lt_of_le_of_ne (String.not_lt.mp hlt) (Ne.symm heq)
        refine List.pairwise_cons.mpr ⟨fun u hu => ?_, ih hrest⟩
        rcases mem_insertWord hu with rfl | hu
        · exact hgt
        · exact hfirst u hu

/-- **Words in order** stand one after the other, none of them twice. -/
lemma pairwise_ordered (words : List String) : (ordered words).Pairwise (· < ·) := by
  induction words with
  | nil => exact List.Pairwise.nil
  | cons s words ih => exact pairwise_insertWord s ih

lemma mem_of_mem_ordered {t : String} {words : List String} (h : t ∈ ordered words) :
    t ∈ words := by
  induction words with
  | nil => exact h
  | cons s words ih =>
      rcases mem_insertWord h with rfl | h
      · exact List.mem_cons_self
      · exact List.mem_cons_of_mem s (ih h)

/-! ## Candidates are plain words -/

/-- A word that is written as it is. -/
def isPlainWord (s : String) : Bool :=
  s ≠ "" && s.toList.all isPlain

lemma isPlainWord_iff {s : String} :
    isPlainWord s = true ↔ s ≠ "" ∧ ∀ c ∈ s.toList, isPlain c = true := by
  simp [isPlainWord]

/-- All names below a command are plain words, down to a depth at which there are no more. -/
def plainNames : Nat → CommandGrammar → Bool
  | 0, _ => false
  | depth + 1, g =>
    (g.parameters.filterMap Parameter.long).all (fun name => isPlainWord ("--" ++ name)) &&
      g.commands.all fun c => isPlainWord c.name && plainNames depth c

lemma mem_of_command? {g c : CommandGrammar} {word : String} (h : command? g word = some c) :
    c ∈ g.commands := by
  rw [command?] at h
  split at h
  · cases h
  · split at h
    · next hfound =>
      obtain rfl := Option.some.inj h
      exact List.mem_of_find?_eq_some hfound
    · split at h
      · next hfilter =>
        obtain rfl := Option.some.inj h
        exact (List.mem_filter.mp (hfilter ▸ List.mem_singleton_self _)).1
      · cases h

lemma plainNames_descend {depth : Nat} {g : CommandGrammar} (h : plainNames depth g = true)
    (words : List String) : ∃ depth', plainNames depth' (descend g words).1 = true := by
  induction words generalizing depth g with
  | nil => exact ⟨depth, h⟩
  | cons word words ih =>
      rw [descend]
      split
      · next c hc =>
        cases depth with
        | zero => cases h
        | succ depth =>
            simp only [plainNames, Bool.and_eq_true, List.all_eq_true] at h
            exact ih (h.2 c (mem_of_command? hc)).2
      · exact ⟨depth, h⟩

lemma isPlainWord_of_mem_valuesFor {p : Parameter} {c : String} (h : c ∈ valuesFor p) :
    isPlainWord c = true := by
  have hregisters : registerNames.all isPlainWord = true := by decide +kernel
  have hcsrs : (Csr.named.map Csr.name).all isPlainWord = true := by decide +kernel
  have hplaces : (registerNames ++ ["pc"]).all isPlainWord = true := by
    rw [List.all_append, hregisters]
    decide
  rw [valuesFor] at h
  split at h
  · exact List.all_eq_true.mp hregisters c h
  · exact List.all_eq_true.mp hcsrs c h
  · exact List.all_eq_true.mp hplaces c h
  · exact List.all_eq_true.mp hplaces c h
  · exact List.all_eq_true.mp hplaces c h
  · cases h

lemma isPlainWord_of_mem_values {p : Option Parameter} {c : String}
    (h : c ∈ (p.map valuesFor).getD []) : isPlainWord c = true := by
  cases p with
  | none => cases h
  | some p => exact isPlainWord_of_mem_valuesFor h

/-- **Every candidate is a plain word.** -/
lemma isPlainWord_of_mem_candidates {words : List String} {c : String}
    (h : c ∈ (suggest grammar words).candidates) : isPlainWord c = true := by
  have htop : plainNames 3 grammar = true := by decide +kernel
  obtain ⟨depth, hplain⟩ := plainNames_descend htop words.dropLast
  cases depth with
  | zero => cases hplain
  | succ depth =>
      simp only [plainNames, Bool.and_eq_true, List.all_eq_true] at hplain
      have hpool := mem_of_mem_ordered (List.mem_filter.mp h).1
      rcases List.mem_append.mp hpool with hname | hvalue
      · rcases List.mem_append.mp hname with hcommand | hoption
        · rw [commandNames] at hcommand
          split at hcommand
          · rcases List.mem_append.mp hcommand with hcommand | hhelp
            · obtain ⟨g, hg, rfl⟩ := List.mem_map.mp hcommand
              exact (hplain.2 g hg).1
            · obtain rfl := List.mem_singleton.mp hhelp
              decide
          · cases hcommand
        · rw [optionNames] at hoption
          split at hoption
          · obtain ⟨name, hlong, rfl⟩ := List.mem_map.mp hoption
            exact hplain.1 name hlong
          · cases hoption
      · exact isPlainWord_of_mem_values hvalue

/-! ## Positions -/

lemma firstBytes_append (a b : List Char) :
    firstBytes (String.ofList a).utf8ByteSize (a ++ b) = a := by
  induction a with
  | nil =>
      cases b with
      | nil => rfl
      | cons c b =>
          have hpos := c.utf8Size_pos
          rw [List.nil_append, firstBytes, if_neg]
          exact Nat.not_le.mpr hpos
  | cons c a ih =>
      rw [List.cons_append, firstBytes, utf8ByteSize_cons, if_pos (Nat.le_add_right _ _),
        Nat.add_sub_cancel_left, ih]

lemma complete_eq {before : String} {words : List String} (h : words? before = some words)
    (after : String) :
    complete (before ++ after) before.utf8ByteSize =
      (before.utf8ByteSize - (words.getLast?.getD "").utf8ByteSize,
        (suggest grammar words).candidates) := by
  have hbefore :
      String.ofList (firstBytes before.utf8ByteSize (before ++ after).toList) = before := by
    have hfirst := firstBytes_append before.toList after.toList
    rw [String.ofList_toList] at hfirst
    rw [String.toList_append, hfirst, String.ofList_toList]
  rw [complete, hbefore, h]
  rfl

/-- The rest of the only candidate is what is shown. -/
lemma hint_eq {line word rest : String} {words : List String} (h : words? line = some words)
    (hword : words.getLast?.getD "" = word)
    (hone : (suggest grammar words).candidates = [word ++ rest]) (hrest : rest ≠ "") :
    hint line line.utf8ByteSize = some rest := by
  have hlonger : word.length < (word ++ rest).length := by
    have hsome : rest.length ≠ 0 := by simpa using hrest
    rw [String.length_append]
    omega
  have hbegun : (suggest grammar words).word = word := hword
  rw [hint, if_neg (Nat.lt_irrefl _), h, Option.bind_some]
  simp only [hone, hbegun]
  rw [if_pos hlonger, String.toList_append, ← String.length_toList, List.drop_left,
    String.ofList_toList]

/-! ## The word at the cursor -/

section Cursor

variable {before : String} {words earlier : List String} {word c : String}

/-- The words before the cursor, the last of which has been begun. -/
structure AtCursor (before : String) (words earlier : List String) (word : String) : Prop where
  read : words? before = some words
  all_but_last : words.dropLast = earlier
  last : words.getLast?.getD "" = word

/-- Either a word has been begun, or one is about to be. -/
lemma AtCursor.split? (h : AtCursor before words earlier word) :
    word = "" ∧ Text.Words.split? before = some earlier ∨
      Text.Words.split? before = some (earlier ++ [word]) := by
  obtain ⟨hwords, rfl, rfl⟩ := h
  rw [words?, Option.map_eq_some_iff] at hwords
  obtain ⟨complete, hsplit, hwords⟩ := hwords
  split at hwords
  · subst hwords
    exact Or.inl ⟨by simp, by simpa using hsplit⟩
  · subst hwords
    rcases List.eq_nil_or_concat complete with rfl | ⟨first, last, rfl⟩
    · exact Or.inl ⟨rfl, hsplit⟩
    · exact Or.inr (by simpa using hsplit)

lemma AtCursor.size_le (h : AtCursor before words earlier word) :
    word.utf8ByteSize ≤ before.utf8ByteSize := by
  rcases h.split? with ⟨rfl, _⟩ | hsplit
  · exact Nat.zero_le _
  · rw [split?_eq] at hsplit
    have hread := (Reading.text_of_words? hsplit).trans (Reading.text_foldl before.toList _)
    have hword : word.toList.Sublist before.toList := by
      refine List.Sublist.trans ?_ hread
      simp
    simpa using utf8ByteSize_of_sublist hword

/-- If a comment is being read no further back than the length of the word, the last word that is
    complete there is the word itself. -/
lemma AtCursor.eq_of_comment (h : AtCursor before words earlier word) {text : List Char}
    {rest : String} (hbefore : before = String.ofList text ++ rest)
    (hrest : rest.utf8ByteSize ≤ word.utf8ByteSize) (hmode : (after text).mode = .comment)
    (hcomplete : (after text).complete = earlier ++ [c]) : c = word := by
  rcases h.split? with ⟨rfl, hsplit⟩ | hsplit
  · obtain rfl : rest = "" := String.utf8ByteSize_eq_zero_iff.mp (Nat.le_zero.mp hrest)
    rw [hbefore, split?_append, String.toList_empty, List.foldl_nil, Reading.words?, hmode,
      hcomplete, Option.some.injEq] at hsplit
    have hlength := congrArg List.length hsplit
    simp at hlength
  · rw [hbefore, split?_append] at hsplit
    have hprefix := (Reading.complete_foldl rest.toList (after text)).trans
      (Reading.complete_of_words? hsplit)
    rw [hcomplete, List.prefix_append_right_inj] at hprefix
    simpa using hprefix

/-! ## Applying a completion -/

/-- The text before a position, followed by a candidate, splits into words. -/
def Completes (before : String) (start : Nat) (c : String) (words : List String) : Prop :=
  ∃ text rest, before = text ++ rest ∧ text.utf8ByteSize = start ∧
    Text.Words.split? (text ++ c) = some words

/-- The word at the cursor is written out: it stands in the text as it is, where no word has been
    begun before it. -/
def WrittenOut (before : String) (earlier : List String) (word : String) : Prop :=
  ∃ text, before.toList = text ++ word.toList ∧ (after text).Begun earlier ""

lemma WrittenOut.completes (h : WrittenOut before earlier word) (hc : isPlainWord c = true) :
    Completes before (before.utf8ByteSize - word.utf8ByteSize) c (earlier ++ [c]) := by
  obtain ⟨text, htext, hbegun⟩ := h
  obtain ⟨hne, hplain⟩ := isPlainWord_iff.mp hc
  have hbefore : before = String.ofList text ++ word := by
    rw [← String.toList_inj, String.toList_append, String.toList_ofList, htext]
  refine ⟨String.ofList text, word, hbefore, ?_, ?_⟩
  · rw [hbefore, String.utf8ByteSize_append, Nat.add_sub_cancel]
  · simpa using split?_of_begun hplain hne hbegun

/-- **A candidate that adds to the word comes to stand in its place only if the word is written
    out.** -/
lemma AtCursor.writtenOut (h : AtCursor before words earlier word) (hc : isPlainWord c = true)
    (hother : c ≠ word)
    (hcompletes :
      Completes before (before.utf8ByteSize - word.utf8ByteSize) c (earlier ++ [c])) :
    WrittenOut before earlier word := by
  obtain ⟨text, rest, hbefore, hstart, hsplit⟩ := hcompletes
  obtain ⟨hne, hplain⟩ := isPlainWord_iff.mp hc
  have hsize : rest.utf8ByteSize = word.utf8ByteSize := by
    have hle := h.size_le
    rw [hbefore, String.utf8ByteSize_append] at hle hstart
    omega
  obtain ⟨text, rfl⟩ : ∃ cs, text = String.ofList cs := ⟨text.toList, String.ofList_toList.symm⟩
  have hread : Text.Words.split? (String.ofList text ++ c) = some (earlier ++ ["" ++ c]) := by
    rwa [String.empty_append]
  rcases begun_of_split? hplain hne hread with hbegun | ⟨hmode, hcomplete⟩
  · refine ⟨text, ?_, hbegun⟩
    have hrest : rest.toList = word.toList := by
      rcases h.split? with ⟨rfl, _⟩ | hwords
      · rw [String.utf8ByteSize_eq_zero_iff.mp hsize]
      · rw [hbefore, split?_append] at hwords
        exact hbegun.eq_of_words? hwords (by rwa [String.ofList_toList])
    rw [hbefore, String.toList_append, String.toList_ofList, hrest]
  · rw [String.empty_append] at hcomplete
    exact absurd (h.eq_of_comment hbefore (Nat.le_of_eq hsize) hmode hcomplete) hother

/-- **The rest of a candidate goes on with the word** exactly if that is the one that has been
    begun. -/
lemma AtCursor.split?_append_iff (h : AtCursor before words earlier word) {rest : String}
    (hc : isPlainWord (word ++ rest) = true) (hrest : rest ≠ "") :
    Text.Words.split? (before ++ rest) = some (earlier ++ [word ++ rest]) ↔
      (after before.toList).Begun earlier word := by
  have hplain : ∀ x ∈ rest.toList, isPlain x = true := fun x hx =>
    (isPlainWord_iff.mp hc).2 x (by simp [hx])
  have hbefore : before = String.ofList before.toList := String.ofList_toList.symm
  constructor
  · intro hsplit
    rw [hbefore] at hsplit
    rcases begun_of_split? hplain hrest hsplit with hbegun | ⟨hmode, hcomplete⟩
    · exact hbegun
    · have hend : before = String.ofList before.toList ++ "" := by simp
      have hword := h.eq_of_comment hend (Nat.zero_le _) hmode hcomplete
      exact absurd (by simpa using hword) hrest
  · intro hbegun
    rw [hbefore]
    exact split?_of_begun hplain hrest hbegun

/-! ## Ordinary lines -/

/-- A line without quotes, backslashes and number signs, in which every blank separates words. -/
def Ordinary (line : String) : Prop :=
  ∀ c ∈ line.toList, separates c = true ∨ isPlain c = true ∧ Text.isBlank c = false

lemma isBlank_of_separates {x : Char} (h : separates x = true) : Text.isBlank x = true := by
  simp only [separates, Bool.or_eq_true, decide_eq_true_eq] at h
  rcases h with (rfl | rfl) | rfl <;> decide

/-- Text of words and gaps, cut where the last word begins. -/
lemma exists_last_word (text : List Char)
    (h : ∀ x ∈ text, separates x = true ∨ isPlain x = true) :
    ∃ gap last complete, text = gap ++ last ∧ (∀ x ∈ last, isPlain x = true) ∧
      after gap = ⟨.gap, [], complete⟩ ∧ (last = [] → gap.getLast?.all separates = true) := by
  induction text using List.reverseRecOn with
  | nil => exact ⟨[], [], [], rfl, List.forall_mem_nil _, rfl, fun _ => rfl⟩
  | append_singleton text x ih =>
      obtain ⟨htext, hx⟩ := List.forall_mem_append.mp h
      obtain ⟨gap, last, complete, rfl, hlast, hgap, hend⟩ := ih htext
      rcases hx x (List.mem_singleton_self x) with hsep | hplain
      · -- the word ends here, if one has been begun
        obtain ⟨complete', hafter⟩ :
            ∃ complete', after (gap ++ last ++ [x]) = ⟨.gap, [], complete'⟩ := by
          rw [after_append, after_append, hgap, List.foldl_cons, List.foldl_nil]
          by_cases hnone : last = []
          · rw [hnone, List.foldl_nil]
            exact ⟨complete, (Reading.step_separator hsep _ _).1⟩
          · rw [Reading.foldl_outside hlast hnone rfl]
            exact ⟨_, (Reading.step_separator hsep _ _).2⟩
        exact ⟨gap ++ last ++ [x], [], complete', by simp, List.forall_mem_nil _, hafter,
          fun _ => by simp [hsep]⟩
      · refine ⟨gap, last ++ [x], complete, by simp, ?_, hgap, by simp⟩
        exact List.forall_mem_append.mpr ⟨hlast, by simpa using hplain⟩

/-- The line ends in a blank exactly if no word has been begun. -/
lemma Ordinary.ends_blank_iff {gap last : List Char} (hline : Ordinary before)
    (htext : before.toList = gap ++ last) (hplain : ∀ x ∈ last, isPlain x = true)
    (hend : last = [] → gap.getLast?.all separates = true) :
    before.toList.getLast?.all Text.isBlank = true ↔ last = [] := by
  constructor
  · intro hblank
    by_contra hsome
    obtain ⟨start, x, rfl⟩ : ∃ start x, last = start ++ [x] :=
      ⟨_, _, (List.dropLast_concat_getLast hsome).symm⟩
    have hx : isPlain x = true := hplain x (by simp)
    have hmem : x ∈ before.toList := by simp [htext]
    rcases hline x hmem with hsep | ⟨_, hnot⟩
    · rw [(isPlain_iff.mp hx).2.2.2.2] at hsep
      cases hsep
    · rw [htext, ← List.append_assoc, List.getLast?_concat, Option.all_some, hnot] at hblank
      cases hblank
  · rintro rfl
    rw [htext, List.append_nil]
    cases hlast : gap.getLast? with
    | none => rfl
    | some x => exact isBlank_of_separates (by simpa [hlast] using hend rfl)

/-- **Ordinary lines** have their last word written out, and go on with it. -/
lemma AtCursor.of_ordinary (h : AtCursor before words earlier word) (hline : Ordinary before) :
    WrittenOut before earlier word ∧ (after before.toList).Begun earlier word := by
  obtain ⟨gap, last, complete, htext, hplain, hgap, hend⟩ :=
    exists_last_word before.toList fun x hx => (hline x hx).imp_right And.left
  have hafter : after before.toList = last.foldl Reading.step ⟨.gap, [], complete⟩ := by
    rw [htext, after_append, hgap]
  have hblank := hline.ends_blank_iff htext hplain hend
  have hwords : words? before = some (complete ++ [String.ofList last]) ∧
      (after before.toList).Begun complete (String.ofList last) := by
    rw [words?, split?_eq, hafter]
    simp only [hblank]
    by_cases hnone : last = []
    · simp only [hnone, if_true]
      exact ⟨rfl, rfl, rfl, rfl⟩
    · simp only [hnone, if_false]
      rw [Reading.foldl_outside hplain hnone rfl]
      exact ⟨by simp [Reading.words?, wordOf], rfl, rfl, by simp [wordOf]⟩
  obtain rfl := Option.some.inj (h.read.symm.trans hwords.1)
  obtain ⟨_, rfl, rfl⟩ := h
  rw [List.dropLast_concat, List.getLast?_concat, Option.getD_some]
  refine ⟨⟨gap, ?_, ?_⟩, hwords.2⟩
  · rw [String.toList_ofList, htext]
  · rw [hgap]
    exact ⟨rfl, rfl, rfl⟩

/-! ## The completed line -/

/-- **A completion is right exactly where the word at the cursor is written out.**  Candidates stand
    in order, and each begins with the word.  If the word is written out, each of them comes to
    stand in its place after the words before it; otherwise none that adds to the word does.  The
    rest of the only candidate is shown, and makes it the last word exactly if the line would go on
    with the word.  Ordinary lines meet both conditions. -/
theorem completion_replaces_written_word (h : AtCursor before words earlier word)
    (behind : String) :
    let start := (complete (before ++ behind) before.utf8ByteSize).1
    let candidates := (complete (before ++ behind) before.utf8ByteSize).2
    candidates.Pairwise (· < ·) ∧
      (∀ c ∈ candidates, word.toList <+: c.toList) ∧
      (WrittenOut before earlier word →
        ∀ c ∈ candidates, Completes before start c (earlier ++ [c])) ∧
      (∀ c ∈ candidates, c ≠ word → Completes before start c (earlier ++ [c]) →
        WrittenOut before earlier word) ∧
      (∀ rest, rest ≠ "" → candidates = [word ++ rest] →
        hint before before.utf8ByteSize = some rest ∧
          (Text.Words.split? (before ++ rest) = some (earlier ++ [word ++ rest]) ↔
            (after before.toList).Begun earlier word)) ∧
      (Ordinary before →
        WrittenOut before earlier word ∧ (after before.toList).Begun earlier word) := by
  have hcomplete := complete_eq h.read behind
  rw [h.last] at hcomplete
  rw [hcomplete]
  refine ⟨(pairwise_ordered _).filter _, ?_, ?_, ?_, ?_, h.of_ordinary⟩
  · intro c hc
    have hbegins := (List.mem_filter.mp hc).2
    rw [h.last] at hbegins
    exact List.isPrefixOf_iff_prefix.mp hbegins
  · intro hout c hc
    exact hout.completes (isPlainWord_of_mem_candidates hc)
  · intro c hc
    exact h.writtenOut (isPlainWord_of_mem_candidates hc)
  · intro rest hrest hone
    have hplain : isPlainWord (word ++ rest) = true :=
      isPlainWord_of_mem_candidates (hone ▸ List.mem_singleton_self _)
    exact ⟨hint_eq h.read h.last hone hrest, h.split?_append_iff hplain hrest⟩

end Cursor

/-- After a quoted command, a word that is written out is completed. -/
theorem word_after_quotes_completed :
    AtCursor "\"csr\" mst" ["csr", "mst"] ["csr"] "mst" ∧
      complete "\"csr\" mst x" 9 = (6, ["mstatus"]) ∧
      Completes "\"csr\" mst" 6 "mstatus" ["csr", "mstatus"] ∧
      hint "\"csr\" mst" 9 = some "atus" ∧
      Text.Words.split? "\"csr\" mstatus" = some ["csr", "mstatus"] := by
  have hcursor : AtCursor "\"csr\" mst" ["csr", "mst"] ["csr"] "mst" :=
    ⟨by decide +kernel, rfl, rfl⟩
  have hcomplete : complete "\"csr\" mst x" 9 = (6, ["mstatus"]) := by decide +kernel
  have hout : WrittenOut "\"csr\" mst" ["csr"] "mst" :=
    ⟨"\"csr\" ".toList, by decide +kernel, by decide +kernel, by decide +kernel, by decide +kernel⟩
  have hbegun : (after "\"csr\" mst".toList).Begun ["csr"] "mst" :=
    ⟨by decide +kernel, by decide +kernel, by decide +kernel⟩
  obtain ⟨_, _, hright, _, hhint, _⟩ := completion_replaces_written_word hcursor " x"
  have hcandidates :
      complete ("\"csr\" mst" ++ " x") "\"csr\" mst".utf8ByteSize = (6, ["mstatus"]) :=
    hcomplete
  rw [hcandidates] at hright hhint
  obtain ⟨hshown, hsplit⟩ := hhint "atus" (by decide) rfl
  exact ⟨hcursor, hcomplete, hright hout "mstatus" (List.mem_singleton_self _), hshown,
    hsplit.mpr hbegun⟩

/-- A word in quotes is not completed: a part of it is left, with the quotation mark before it.  And
    what is shown in a comment stays a part of the comment. -/
theorem quoted_word_not_completed :
    AtCursor "\"st\"" ["st"] [] "st" ∧ complete "\"st\"" 4 = (2, ["step"]) ∧
      ¬ Completes "\"st\"" 2 "step" ["step"] ∧
      AtCursor "st #" ["st"] [] "st" ∧ hint "st #" 4 = some "ep" ∧
      Text.Words.split? ("st #" ++ "ep") = some ["st"] := by
  refine ⟨⟨by decide +kernel, rfl, rfl⟩, by decide +kernel, ?_, ⟨by decide +kernel, rfl, rfl⟩,
    by decide +kernel, by decide +kernel⟩
  rintro ⟨text, rest, hbefore, hsize, hsplit⟩
  have htext : firstBytes 2 "\"st\"".toList = text.toList := by
    have hfirst := firstBytes_append text.toList rest.toList
    rwa [String.ofList_toList, hsize, ← String.toList_append, ← hbefore] at hfirst
  have hopen :
      Text.Words.split? (String.ofList (firstBytes 2 "\"st\"".toList) ++ "step") = none := by
    decide +kernel
  rw [htext, String.ofList_toList, hsplit] at hopen
  cases hopen

end Rv64Board.Debugger.Editor
