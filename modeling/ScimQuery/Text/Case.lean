import ScimQuery.Text.CaseTable

/-! # Lower-casing

The full lower-casing of a text.  Every character maps to its lower-case form on its own, except
two: `İ` becomes an `i` followed by a combining dot, and a capital sigma becomes a final sigma at
the end of a word.  Texts are compared without regard to case by comparing their lower-case
forms; nothing is folded further, so `ß` and `ss` differ. -/

namespace ScimQuery
namespace Text

/-- The lower-case form of a character that has one of a single character, else the character. -/
def lowerChar (c : Char) : Char :=
  if c.toNat < 0x80 then c.toLower
  else match lowerRuns.findSome? (·.lower? c.toNat) with
    | some n => Char.ofNat n
    | none => c

/-- A cased character that casing does not ignore. -/
def isCased (c : Char) : Bool := inRanges casedRanges c.toNat

/-- A character that casing looks past, such as an apostrophe or a combining mark. -/
def isCaseIgnorable (c : Char) : Bool := inRanges ignorableRanges c.toNat

/-- Whether the first character that casing does not look past is a cased one. -/
def meetsCased (s : List Char) : Bool := (s.dropWhile isCaseIgnorable).head?.any isCased

/-- The lower-case form of a capital sigma between `before`, nearest character first, and
`rest`: final when a cased character precedes it and none follows. -/
def lowerSigma (before rest : List Char) : Char :=
  if meetsCased before && !meetsCased rest then 'ς' else 'σ'

/-- The lower-case form of a character between `before`, nearest character first, and `rest`. -/
def lowerAt (before : List Char) (c : Char) (rest : List Char) : List Char :=
  if c == 'İ' then ['i', '\u0307']
  else if c == 'Σ' then [lowerSigma before rest]
  else [lowerChar c]

/-- The lower-case form of a list of characters that follows `before`, nearest first. -/
def lowerAfter (before : List Char) : List Char → List Char
  | [] => []
  | c :: rest => lowerAt before c rest ++ lowerAfter (c :: before) rest

/-- The lower-case form of a list of characters. -/
def lowerChars (s : List Char) : List Char := lowerAfter [] s

/-- The lower-case form of a text. -/
def lower (s : String) : String := String.ofList (lowerChars s.toList)

/-- Two texts that differ at most in case. -/
def sameText (s t : String) : Bool := lower s == lower t

end Text
end ScimQuery
