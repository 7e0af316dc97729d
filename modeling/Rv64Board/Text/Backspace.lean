import Rv64Board.Text.Cluster

/-!
# Backspaces in a line

A backspace takes back the cluster before it, if there is one left.

* `Typed`: what has been typed and not taken back.
* `retype`: types a line cluster by cluster.
* `applyBackspaces`: a line as it stands once its backspaces have been carried out. A line without
  backspaces stays as it is, and does not have to be typed (`applyBackspaces_eq_retype`).
-/

namespace Rv64Board.Text

/-- What has been typed and not taken back. -/
structure Typed where
  /-- The characters, last first. -/
  chars : List Char
  /-- The width of each cluster, last first. -/
  widths : List Nat

namespace Typed

/-- The width of a cluster in bytes. A width is kept in a byte, so one of 256 counts as none. -/
def widthOf (cluster : List Char) : Nat :=
  cluster.foldr (fun c n => c.utf8Size + n) 0 % 256

/-- Takes a number of bytes back. -/
def dropBytes : Nat → List Char → List Char
  | 0, cs => cs
  | _, [] => []
  | n + 1, c :: cs => dropBytes (n + 1 - c.utf8Size) cs

/-- Takes the last cluster back. -/
def erase (t : Typed) : Typed :=
  match t.widths with
  | [] => t
  | width :: widths => ⟨dropBytes width t.chars, widths⟩

/-- Types a cluster, or takes the last one back. -/
def type (t : Typed) (cluster : List Char) : Typed :=
  if cluster = ['\x08'] then t.erase
  else ⟨cluster.reverse ++ t.chars, widthOf cluster :: t.widths⟩

end Typed

/-- What is left of a line that is typed cluster by cluster. -/
def retype (line : List Char) : List Char :=
  ((clusters line).foldl Typed.type ⟨[], []⟩).chars.reverse

/-- A line once its backspaces have been carried out. -/
def applyBackspaces (line : List Char) : List Char :=
  if line.contains '\x08' then retype line else line

/-- Clusters without backspaces are added one after the other. -/
theorem chars_foldl_type (gs : List (List Char)) (t : Typed) (h : ∀ g ∈ gs, '\x08' ∉ g) :
    (gs.foldl Typed.type t).chars = gs.flatten.reverse ++ t.chars := by
  induction gs generalizing t with
  | nil => simp
  | cons g gs ih =>
    have hg : g ≠ ['\x08'] := by
      intro e
      exact h g List.mem_cons_self (e ▸ List.mem_singleton_self _)
    rw [List.foldl_cons, ih _ fun g' hg' => h g' (List.mem_cons_of_mem _ hg')]
    simp [Typed.type, hg, List.append_assoc]

/-- **A line without backspaces stays as it is.** -/
theorem retype_of_not_mem (line : List Char) (h : '\x08' ∉ line) : retype line = line := by
  have hgs : ∀ g ∈ clusters line, '\x08' ∉ g := by
    intro g hg hb
    refine h ?_
    rw [← flatten_clusters line]
    exact List.mem_flatten.2 ⟨g, hg, hb⟩
  rw [retype, chars_foldl_type _ _ hgs, flatten_clusters, List.append_nil,
    List.reverse_reverse]

theorem applyBackspaces_eq_retype (line : List Char) : applyBackspaces line = retype line := by
  unfold applyBackspaces
  split
  · rfl
  · next h => rw [retype_of_not_mem line (by simpa using h)]

end Rv64Board.Text
