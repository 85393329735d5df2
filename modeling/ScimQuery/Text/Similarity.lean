/-! # Similar texts

Two lists of characters are similar when most of their characters stand in runs that they share:
the longest common run, and then likewise what stands before it in both and after it in both.  Of
several candidates the closest to a word are those with the greatest share of such characters. -/

namespace ScimQuery
namespace Text

/-- A run of characters that two lists share: where it starts in each, and how long it is. -/
structure SharedRun where
  left : Nat
  right : Nat
  length : Nat
  deriving DecidableEq, Repr

/-- The length of the run that two lists both start with. -/
def commonStart : List Char → List Char → Nat
  | c :: s, d :: t => if c = d then commonStart s t + 1 else 0
  | _, _ => 0

/-- The longest run that two lists share; of several, the first in the left list, and of these the
first in the right one. -/
def longestRun (s t : List Char) : SharedRun :=
  let runs := (List.range s.length).flatMap fun i =>
    (List.range t.length).map fun j => SharedRun.mk i j (commonStart (s.drop i) (t.drop j))
  runs.foldl (fun best run => if best.length < run.length then run else best) ⟨0, 0, 0⟩

/-- The number of characters in the runs that two lists share. -/
def sharedCount (s t : List Char) : Nat :=
  match longestRun s t with
  | ⟨i, j, n⟩ =>
    if n = 0 ∨ s.length ≤ i then 0
    else sharedCount (s.take i) (t.take j) + n + sharedCount (s.drop (i + n)) (t.drop (j + n))
termination_by s.length
decreasing_by
  all_goals simp only [List.length_take, List.length_drop]
  all_goals omega

/-- Whether at least three fifths of the characters of two lists, taken together, stand in the runs
that they share. -/
def areSimilar (s t : List Char) : Bool :=
  3 * (s.length + t.length) ≤ 5 * (sharedCount s t + sharedCount s t)

/-- Whether a candidate is at least as similar to a word as another; of two that are equally
similar, the later in the order of texts goes first. -/
def closerThan (word : List Char) (a b : String) : Bool :=
  let x := sharedCount a.toList word * (b.length + word.length)
  let y := sharedCount b.toList word * (a.length + word.length)
  y < x || (y == x && !decide (a < b))

/-- How many candidates are named at most. -/
def closestCount : Nat := 3

/-- The candidates closest to a word, of those that are similar to it, in the order of texts. -/
def closest (candidates : List String) (word : List Char) : List String :=
  let similar := candidates.filter fun c => areSimilar c.toList word
  ((similar.mergeSort (closerThan word)).take closestCount).mergeSort

end Text
end ScimQuery
