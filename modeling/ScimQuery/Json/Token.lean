import ScimQuery.Json
import ScimQuery.Text.Hex

/-! # JSON tokens

The tokens of JSON text and the way to read them off its front.  Besides the numbers of the
format the words `NaN`, `Infinity` and `-Infinity` are read, as doubles. -/

namespace ScimQuery
namespace Json

/-- A token of JSON text. -/
inductive Token where
  | openArray
  | closeArray
  | openObject
  | closeObject
  | comma
  | colon
  | scalar (s : Scalar)
  deriving DecidableEq, Repr, Inhabited

namespace Token

/-- White space between tokens. -/
def isSpace (c : Char) : Bool := c == ' ' || c == '\t' || c == '\n' || c == '\r'

/-! ### Texts -/

/-- The character that a letter after a backslash stands for. -/
def escape? : Char → Option Char
  | '"' => some '"'
  | '\\' => some '\\'
  | '/' => some '/'
  | 'b' => some '\x08'
  | 'f' => some '\x0c'
  | 'n' => some '\n'
  | 'r' => some '\r'
  | 't' => some '\t'
  | _ => none

/-- The number that four hexadecimal digits at the front write. -/
def hex4? : List Char → Option Nat
  | a :: b :: c :: d :: _ => do
    let a ← Text.hexValue? a
    let b ← Text.hexValue? b
    let c ← Text.hexValue? c
    let d ← Text.hexValue? d
    pure (4096 * a + 256 * b + 16 * c + d)
  | _ => none

/-- The low surrogate that an escape at the front writes. -/
def lowSurrogate? : List Char → Option Nat
  | '\\' :: 'u' :: rest => (hex4? rest).filter fun n => 0xDC00 ≤ n ∧ n < 0xE000
  | _ => none

/-- The code point that the digits after `\u` write, and the number of characters read.  Two
surrogates are one code point, half of a pair is one by itself. -/
def codePoint? (s : List Char) : Option (Nat × Nat) := do
  let n ← hex4? s
  match (lowSurrogate? (s.drop 4)).filter fun _ => 0xD800 ≤ n ∧ n < 0xDC00 with
  | some low => pure (0x10000 + (n - 0xD800) * 0x400 + (low - 0xDC00), 10)
  | none => pure (n, 4)

/-- Reads a text up to its closing quote: its characters and how many were read.  What a code point
is read as is given by `spell`. -/
def text? (spell : Nat → Option (List Char)) (s : List Char) : Option (List Char × Nat) :=
  match s with
  | [] => none
  | '"' :: _ => some ([], 1)
  | '\\' :: 'u' :: rest => do
    let (point, used) ← codePoint? rest
    let front ← spell point
    let (cs, n) ← text? spell (rest.drop used)
    pure (front ++ cs, n + used + 2)
  | '\\' :: c :: rest => do
    let c ← escape? c
    let (cs, n) ← text? spell rest
    pure (c :: cs, n + 2)
  | c :: rest => do
    if c.toNat < 0x20 ∨ c = '\\' then none
    let front ← spell c.toNat
    let (cs, n) ← text? spell rest
    pure (front ++ cs, n + 1)
termination_by s.length

/-! ### Numbers and words -/

/-- The digits at the front. -/
def digits (s : List Char) : List Char := s.takeWhile Number.isDigit

/-- The fraction at the front, without its point: digits after a point. -/
def fraction? : List Char → Option (List Char)
  | '.' :: rest => if (digits rest).isEmpty then none else some (digits rest)
  | _ => none

/-- The power of ten after its letter, and the number of characters read. -/
def power? : List Char → Option (Int × Nat)
  | '-' :: rest =>
    if (digits rest).isEmpty then none
    else some (-(Number.ofDigits (digits rest) : Int), (digits rest).length + 1)
  | '+' :: rest =>
    if (digits rest).isEmpty then none
    else some (Number.ofDigits (digits rest), (digits rest).length + 1)
  | rest =>
    if (digits rest).isEmpty then none
    else some (Number.ofDigits (digits rest), (digits rest).length)

/-- The power of ten at the front, and the number of characters read, its letter included. -/
def exponent? : List Char → Option (Int × Nat)
  | c :: rest => if c = 'e' ∨ c = 'E' then (power? rest).map fun (e, n) => (e, n + 1) else none
  | [] => none

/-- The number at the front, without a sign, and the number of characters read.  A zero in front
of other digits is a number of its own. -/
def number? (negative : Bool) (s : List Char) : Option (Number × Nat) :=
  let whole := if s.head? = some '0' then ['0'] else digits s
  if whole.isEmpty then none
  else
    let rest := s.drop whole.length
    let fraction := fraction? rest
    let width := match fraction with
      | some ds => ds.length + 1
      | none => 0
    match exponent? (rest.drop width) with
    | some (e, n) => some (.ofParts negative whole fraction (some e), whole.length + width + n)
    | none => some (.ofParts negative whole fraction none, whole.length + width)

/-- The words and what they stand for. -/
def words : List (String × Scalar) := [
  ("null", .null), ("true", .bool true), ("false", .bool false),
  ("NaN", .number (.double .nan)), ("Infinity", .number (.double (.infinity false))),
  ("-Infinity", .number (.double (.infinity true)))]

/-- The word at the front, and the number of characters read. -/
def word? (s : List Char) : Option (Scalar × Nat) :=
  (words.find? fun (w, _) => w.toList.isPrefixOf s).map fun (w, v) => (v, w.length)

/-- The scalar at the front that is no text, and the number of characters read. -/
def plain? (s : List Char) : Option (Scalar × Nat) :=
  match word? s with
  | some found => some found
  | none =>
    match s with
    | '-' :: rest => (number? true rest).map fun (x, n) => (.number x, n + 1)
    | _ => (number? false s).map fun (x, n) => (.number x, n)

/-- The token at the front of a text that starts with `c`, and how many characters of `rest` it
takes beyond that. -/
def read? (spell : Nat → Option (List Char)) (c : Char) (rest : List Char) :
    Option (Token × Nat) :=
  match c with
  | '[' => some (.openArray, 0)
  | ']' => some (.closeArray, 0)
  | '\x7b' => some (.openObject, 0)
  | '\x7d' => some (.closeObject, 0)
  | ',' => some (.comma, 0)
  | ':' => some (.colon, 0)
  | '"' => (text? spell rest).map fun (cs, n) => (.scalar (.text (String.ofList cs)), n)
  | c => (plain? (c :: rest)).map fun (v, n) => (.scalar v, n - 1)

/-- The tokens of a JSON text, when it has no other parts. -/
def ofChars? (spell : Nat → Option (List Char)) (s : List Char) : Option (List Token) :=
  match s with
  | [] => some []
  | c :: rest =>
    if isSpace c then ofChars? spell rest
    else do
      let (token, n) ← read? spell c rest
      let tokens ← ofChars? spell (rest.drop n)
      pure (token :: tokens)
termination_by s.length
decreasing_by
  all_goals simp only [List.length_cons, List.length_drop]
  all_goals omega

end Token
end Json
end ScimQuery
