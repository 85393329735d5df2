/-! # Control sequences

The control sequences of terminals: an escape character and an opening bracket, parameters,
intermediate characters, and one final character.  What only starts like one is ordinary text. -/

namespace ScimQuery
namespace Text

/-- A parameter of a control sequence: a digit or one of `:;<=>?`. -/
def isParameter (c : Char) : Bool := '0' ≤ c && c ≤ '?'

/-- An intermediate character of a control sequence: a space or one of the marks up to `/`. -/
def isIntermediate (c : Char) : Bool := ' ' ≤ c && c ≤ '/'

/-- The final character of a control sequence: `@`, a letter, or one of the marks around these. -/
def isFinal (c : Char) : Bool := '@' ≤ c && c ≤ '~'

/-- The length of the control sequence at the front, if one stands there. -/
def sequenceLength? : List Char → Option Nat
  | '\x1b' :: '[' :: rest =>
    let parameters := rest.takeWhile isParameter
    let marks := (rest.drop parameters.length).takeWhile isIntermediate
    match rest.drop (parameters.length + marks.length) with
    | c :: _ => if isFinal c then some (parameters.length + marks.length + 3) else none
    | [] => none
  | _ => none

/-- A list of characters without its control sequences and, before these, its first `skip`
characters. -/
def dropSequences (skip : Nat) : List Char → List Char
  | [] => []
  | c :: rest =>
    match skip, sequenceLength? (c :: rest) with
    | n + 1, _ => dropSequences n rest
    | 0, some n => dropSequences (n - 1) rest
    | 0, none => c :: dropSequences 0 rest

/-- A text without its control sequences. -/
def withoutSequences (s : String) : String := String.ofList (dropSequences 0 s.toList)

end Text
end ScimQuery
