/-! # Texts of code points

JSON can write half a pair of surrogates, a code point that is no character.  A text that may hold
such halves is spelled in characters: every other code point is spelled by itself, but the halves,
and the three characters that the spellings of these need, are spelled by digits between two edges.

All such spellings have one length, start at an edge that a digit follows, and are in the order of
their code points, between those of the characters below and above them.  So two spelled texts are
equal, in order, or one inside the other exactly when their code points are. -/

namespace ScimQuery
namespace Text

/-- What starts and ends a spelling of several characters. -/
def edge : Char := '\ue000'

/-- The digit zero in a spelling. -/
def lowDigit : Char := '\ue001'

/-- The digit one in a spelling. -/
def highDigit : Char := '\ue002'

/-- The first half of a pair. -/
def firstHalf : Nat := 0xD800

/-- The number of halves: the code points after them are characters again. -/
def halfCount : Nat := 0x800

/-- The number of digits in a spelling. -/
def digitCount : Nat := 12

/-- The last `width` binary digits of a number. -/
def binary : (width : Nat) → Nat → List Char
  | 0, _ => []
  | width + 1, n => binary width (n / 2) ++ [if n % 2 = 0 then lowDigit else highDigit]

/-- The number that binary digits write. -/
def ofBinary (digits : List Char) : Nat :=
  digits.foldl (fun n c => 2 * n + if c = highDigit then 1 else 0) 0

/-- The spelling of a code point. -/
def spell (n : Nat) : List Char :=
  if firstHalf ≤ n ∧ n ≤ highDigit.toNat then
    edge :: binary digitCount (n - firstHalf) ++ [edge]
  else [Char.ofNat n]

/-- A text of characters, spelled. -/
def spelled (s : String) : String := String.ofList (s.toList.flatMap fun c => spell c.toNat)

/-- The spellings of the code points of a spelled text. -/
def spellings (s : List Char) : List (List Char) :=
  match s with
  | [] => []
  | c :: rest =>
    if c = edge then (c :: rest.take (digitCount + 1)) :: spellings (rest.drop (digitCount + 1))
    else [c] :: spellings rest
termination_by s.length
decreasing_by
  all_goals simp only [List.length_cons, List.length_drop]
  all_goals omega

/-- The character that a spelling spells, if it is no half. -/
def ofSpelling? : List Char → Option Char
  | [c] => some c
  | s =>
    let n := ofBinary ((s.drop 1).take digitCount)
    if n < halfCount then none else some (Char.ofNat (firstHalf + n))

/-- The characters of a spelled text, if it holds no half. -/
def ofSpelled? (s : String) : Option String :=
  ((spellings s.toList).mapM ofSpelling?).map String.ofList

end Text
end ScimQuery
