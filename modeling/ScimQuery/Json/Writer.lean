import ScimQuery.Json
import ScimQuery.Number.Layout
import ScimQuery.Text.Hex
import ScimQuery.Text.Pieces

/-! # Writing JSON

The text of a JSON value, on one line or indented, with the members of objects in their own
order. -/

namespace ScimQuery
namespace Json

/-- Doubles have positional digits up to sixteen places, and words for the values that have no
digits. -/
def numberLayout : NumberLayout where
  leastPlaces := -4
  mostPlaces := 16
  exponentDigits := 2
  infinity := "Infinity"
  notNumber := "NaN"

/-! ### Texts -/

/-- An escape of a code unit by its number. -/
def unicodeEscape (n : Nat) : List Char := '\\' :: 'u' :: Text.hex 4 n

/-- One character of a text; if `asciiOnly`, one beyond the printable ASCII characters is escaped
by its code units. -/
def writeChar (asciiOnly : Bool) (c : Char) : List Char :=
  if c = '"' ∨ c = '\\' then ['\\', c]
  else if c = '\n' then ['\\', 'n']
  else if c = '\r' then ['\\', 'r']
  else if c = '\t' then ['\\', 't']
  else if c = '\x08' then ['\\', 'b']
  else if c = '\x0c' then ['\\', 'f']
  else if c.toNat < 0x20 then unicodeEscape c.toNat
  else if !asciiOnly || c.toNat < 0x7F then [c]
  else if c.toNat < 0x10000 then unicodeEscape c.toNat
  else
    let n := c.toNat - 0x10000
    unicodeEscape (0xD800 + n / 0x400) ++ unicodeEscape (0xDC00 + n % 0x400)

/-- A text between quotes. -/
def writeText (asciiOnly : Bool) (s : String) : String :=
  String.ofList ('"' :: s.toList.flatMap (writeChar asciiOnly) ++ ['"'])

/-- A scalar. -/
def writeScalar (asciiOnly : Bool) : Scalar → String
  | .null => "null"
  | .bool true => "true"
  | .bool false => "false"
  | .number n => numberLayout.number n
  | .text s => writeText asciiOnly s

/-! ### Values -/

/-- Parts between brackets: on one line without an indentation, else one part a line. -/
def bracket (indent : Option Nat) (first last : String) (parts : List String) : String :=
  if parts.isEmpty then first ++ last
  else match indent with
    | none => first ++ Text.join ", " parts ++ last
    | some n =>
      let line := "\n" ++ String.ofList (List.replicate n ' ')
      first ++ line ++ "  " ++ Text.join ("," ++ line ++ "  ") parts ++ line ++ last

mutual

/-- The text of a value: on one line, or at an indentation that grows by two blanks a level. -/
def write (asciiOnly : Bool) (indent : Option Nat) : Json → String
  | .scalar s => writeScalar asciiOnly s
  | .array items => bracket indent "[" "]" (writeItems asciiOnly (indent.map (· + 2)) items)
  | .object members =>
    bracket indent "\x7b" "\x7d" (writeMembers asciiOnly (indent.map (· + 2)) members)

/-- The texts of the items of an array. -/
def writeItems (asciiOnly : Bool) (indent : Option Nat) : List Json → List String
  | [] => []
  | v :: rest => write asciiOnly indent v :: writeItems asciiOnly indent rest

/-- The texts of the members of an object. -/
def writeMembers (asciiOnly : Bool) (indent : Option Nat) : List (String × Json) → List String
  | [] => []
  | (key, v) :: rest =>
    (writeText asciiOnly key ++ ": " ++ write asciiOnly indent v)
      :: writeMembers asciiOnly indent rest

end

/-- The text of a value on one line, in ASCII only. -/
def line (v : Json) : String := write true none v

/-- The text of a value over several lines, each level indented by two blanks. -/
def pretty (v : Json) : String := write false (some 0) v

end Json
end ScimQuery
