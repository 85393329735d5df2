import ScimQuery.Filter.Fault
import ScimQuery.Number
import ScimQuery.Text.Blank

/-! # The tokens of a filter text

A filter text is read from its front, one lexeme at a time, blanks in between.  A lexeme is a
bracket, a quoted text, a numeral that a blank, a bracket or the end follows, or a word; a word is
a keyword, an operator or an attribute path.  `Token.scan` gives one token for each lexeme, at its
offset, and a stop at the end. -/

namespace ScimQuery

/-- A lexeme at the front of a text: the kind and value of its token, and the number of characters
it takes beyond the first. -/
structure Lexeme where
  kind : TokenKind
  value : String
  tail : Nat
  deriving DecidableEq, Repr

namespace Lexeme

/-- The number of characters of a lexeme. -/
def width (l : Lexeme) : Nat := l.tail + 1

/-! ### Brackets -/

/-- The kind of a bracket. -/
def bracket? : Char → Option TokenKind
  | '(' => some .openParen
  | ')' => some .closeParen
  | '[' => some .openBracket
  | ']' => some .closeBracket
  | _ => none

/-! ### Quoted texts -/

/-- The characters up to the closing quote, and how many are read, the quote included.  A backslash
stands for the character after it. -/
def quoted? : List Char → Option (List Char × Nat)
  | [] => none
  | '"' :: _ => some ([], 1)
  | '\\' :: c :: rest => (quoted? rest).map fun (cs, n) => (c :: cs, n + 2)
  | c :: rest => (quoted? rest).map fun (cs, n) => (c :: cs, n + 1)

/-! ### Numerals -/

/-- The fraction at the front, with its point: none unless a digit follows the point. -/
def fraction : List Char → List Char
  | '.' :: rest =>
    if (rest.takeWhile Number.isDigit).isEmpty then [] else '.' :: rest.takeWhile Number.isDigit
  | _ => []

/-- The numeral without a sign at the front. -/
def unsigned? (s : List Char) : Option (List Char) :=
  let whole := s.takeWhile Number.isDigit
  if whole.isEmpty then none else some (whole ++ fraction (s.dropWhile Number.isDigit))

/-- The numeral at the front, perhaps after a minus sign. -/
def numeral? : List Char → Option (List Char)
  | '-' :: rest => (unsigned? rest).map ('-' :: ·)
  | s => unsigned? s

/-- Whether a numeral may end before this text. -/
def endsNumeral : List Char → Bool
  | [] => true
  | c :: _ => Text.isBlank c || (bracket? c).isSome

/-- The numeral at the front, where one may end. -/
def number? (s : List Char) : Option (List Char) :=
  (numeral? s).filter fun n => endsNumeral (s.drop n.length)

/-! ### Words -/

/-- A character that a word may start with: an ASCII letter, an underscore or a colon. -/
def startsWord (c : Char) : Bool := c.isAlpha || c == '_' || c == ':'

/-- A character that a word may go on with. -/
def inWord (c : Char) : Bool := c.isAlphanum || c == '_' || c == '.' || c == ':' || c == '-'

/-- The keywords. -/
def keywords : List (String × TokenKind) := [
  ("and", .and), ("or", .or), ("not", .not), ("pr", .present), ("true", .truth),
  ("false", .truth), ("null", .null)]

/-- The names of the operators that compare with a value. -/
def operators : List String := ["eq", "ne", "co", "sw", "ew", "gt", "ge", "lt", "le"]

/-- The kind of a word that is a keyword or an operator, given in lower case. -/
def reserved? (s : String) : Option TokenKind :=
  match keywords.lookup s with
  | some kind => some kind
  | none => if operators.contains s then some .operator else none

/-- A word as a lexeme: keywords and operators are told without regard to case. -/
def word (w : List Char) : Lexeme :=
  let lowered := String.ofList (w.map Char.toLower)
  match reserved? lowered with
  | some kind => ⟨kind, lowered, w.length - 1⟩
  | none => ⟨.attribute, String.ofList w, w.length - 1⟩

/-! ### Lexemes -/

/-- The lexeme at the front of `c :: rest`, which is no blank and stands at `position`. -/
def read (position : Nat) (c : Char) (rest : List Char) : Except Filter.Fault Lexeme :=
  match bracket? c with
  | some kind => .ok ⟨kind, String.singleton c, 0⟩
  | none =>
    if c = '"' then
      match quoted? rest with
      | some (cs, n) => .ok ⟨.text, String.ofList cs, n⟩
      | none => .error (.unterminated position)
    else
      match number? (c :: rest) with
      | some n => .ok ⟨.number, String.ofList n, n.length - 1⟩
      | none =>
        if startsWord c then .ok (word (c :: rest.takeWhile inWord))
        else .error (.unexpectedCharacter c position)

end Lexeme

namespace Token

/-- The tokens of a text whose first character stands at `position`. -/
def scanFrom (position : Nat) (s : List Char) : Except Filter.Fault (List Token) :=
  match s with
  | [] => .ok [⟨.stop, "", position⟩]
  | c :: rest =>
    if Text.isBlank c then scanFrom (position + 1) rest
    else do
      let l ← Lexeme.read position c rest
      let tokens ← scanFrom (position + l.width) (rest.drop l.tail)
      pure (⟨l.kind, l.value, position⟩ :: tokens)
termination_by s.length
decreasing_by
  all_goals simp only [List.length_cons, List.length_drop]
  all_goals omega

/-- The tokens of a filter text. -/
def scan (text : String) : Except Filter.Fault (List Token) := scanFrom 0 text.toList

end Token
end ScimQuery
