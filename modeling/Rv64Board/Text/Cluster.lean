import Rv64Board.Text.BreakClass

/-!
# Clusters

A text falls into clusters, each of which a reader takes for one character (extended grapheme
clusters). Whether there is a boundary in front of a character depends on its class and on the
classes before it, of which a little has to be remembered: whether half a flag is open, whether a
pictograph waits to be joined, and whether a conjunct of consonants is under way.

* `Context`: what is remembered.
* `Context.joins`: a character of a class belongs to the cluster before it.
* `clusters`: the clusters of a text. Put together again they give the text (`flatten_clusters`).
-/

namespace Rv64Board.Text

/-- How far a row of joined pictographs has come. -/
inductive PictographState
  | outside
  /-- After a pictograph and marks on it. -/
  | pictograph
  /-- After a joiner, so that a pictograph can follow. -/
  | joined
  deriving DecidableEq, Inhabited

/-- How far a conjunct of consonants has come. -/
inductive ConjunctState
  | outside
  /-- After a consonant and marks on it. -/
  | consonant
  /-- After a linker too, so that a consonant can follow. -/
  | linked
  deriving DecidableEq, Inhabited

/-- What has to be remembered of the characters before a boundary. -/
structure Context where
  /-- The class of the last character. -/
  last : BreakClass
  /-- An odd number of halves of flags comes last. -/
  halfFlag : Bool
  pictographs : PictographState
  conjunct : ConjunctState
  deriving Inhabited

namespace Context

/-- How a character takes a row of pictographs further. -/
def nextPictographs (state : PictographState) (k : BreakClass) : PictographState :=
  match k, state with
  | .pictograph, _ => .pictograph
  | .extend, .pictograph | .linker, .pictograph | .nonJoiner, .pictograph => .pictograph
  | .joiner, .pictograph => .joined
  | _, _ => .outside

/-- How a character takes a conjunct further. -/
def nextConjunct (state : ConjunctState) (k : BreakClass) : ConjunctState :=
  match k, state with
  | .consonant, _ => .consonant
  | .linker, .consonant | .linker, .linked => .linked
  | .extend, state | .joiner, state => state
  | _, _ => .outside

/-- What is remembered after a further character. -/
def next (t : Context) (k : BreakClass) : Context where
  last := k
  halfFlag := k = .regional && !t.halfFlag
  pictographs := nextPictographs t.pictographs k
  conjunct := nextConjunct t.conjunct k

/-- Nothing has been read. -/
def initial : Context :=
  ⟨.other, false, .outside, .outside⟩

/-- An end of a line or another control, which stands alone. -/
def isControl (k : BreakClass) : Bool :=
  k = .carriageReturn || k = .lineFeed || k = .control

/-- Two neighbours belong to one Hangul syllable. -/
def sameSyllable (a b : BreakClass) : Bool :=
  match a, b with
  | .leading, .leading | .leading, .vowel | .leading, .openSyllable
  | .leading, .closedSyllable => true
  | .openSyllable, .vowel | .openSyllable, .trailing | .vowel, .vowel | .vowel, .trailing => true
  | .closedSyllable, .trailing | .trailing, .trailing => true
  | _, _ => false

/-- The character attaches to whatever stands before it. -/
def attaches (k : BreakClass) : Bool :=
  k = .extend || k = .linker || k = .nonJoiner || k = .joiner || k = .spacing

/-- A character of a class belongs to the cluster before it. -/
def joins (t : Context) (k : BreakClass) : Bool :=
  if t.last = .carriageReturn && k = .lineFeed then true
  else if isControl t.last || isControl k then false
  else
    sameSyllable t.last k || attaches k || t.last = .prepend ||
      (t.conjunct = .linked && k = .consonant) ||
      (t.pictographs = .joined && k = .pictograph) ||
      (t.halfFlag && k = .regional)

end Context

/-- The clusters of a text of which some are complete and one has been begun; these clusters, and
the characters of the one begun, are given last first. -/
def clustersOnto (complete : List (List Char)) (t : Context) (begun : List Char) :
    List Char → List (List Char)
  | [] => (begun.reverse :: complete).reverse
  | c :: cs =>
    let k := breakClass c
    if t.joins k then clustersOnto complete (t.next k) (c :: begun) cs
    else clustersOnto (begun.reverse :: complete) (t.next k) [c] cs

/-- The clusters of a text. -/
def clusters : List Char → List (List Char)
  | [] => []
  | c :: cs => clustersOnto [] (Context.initial.next (breakClass c)) [c] cs

theorem flatten_clustersOnto (complete : List (List Char)) (t : Context) (begun cs : List Char) :
    (clustersOnto complete t begun cs).flatten =
      complete.reverse.flatten ++ begun.reverse ++ cs := by
  induction cs generalizing complete t begun with
  | nil => simp [clustersOnto]
  | cons c cs ih =>
    rw [clustersOnto]
    split
    · rw [ih, List.reverse_cons]
      simp only [List.append_assoc, List.singleton_append]
    · rw [ih, List.reverse_cons, List.flatten_append]
      simp only [List.flatten_singleton, List.reverse_singleton, List.append_assoc,
        List.singleton_append]

/-- **Nothing is lost:** the clusters of a text make up the text. -/
theorem flatten_clusters (cs : List Char) : (clusters cs).flatten = cs := by
  cases cs with
  | nil => rfl
  | cons c cs =>
    rw [clusters, flatten_clustersOnto, List.reverse_nil, List.flatten_nil, List.nil_append,
      List.reverse_singleton, List.singleton_append]

end Rv64Board.Text
