import ScimQuery.Json.Token

/-! # Reading JSON

A machine with a stack reads the value that tokens write, one step per token.  The stack holds the
arrays and objects that are open, innermost first.  A key that an object repeats keeps its first
place and takes its last value. -/

namespace ScimQuery
namespace Json
namespace Reader

/-- An array or object that is open: its parts so far, those of an array last first. -/
inductive Frame where
  | array (items : List Json)
  | object (members : Object) (key : String)

/-- What the next token must be. -/
inductive State where
  /-- A value; or the end of the array just opened. -/
  | value (canClose : Bool) (stack : List Frame)
  /-- A key of the object with these members; or the end of the object just opened. -/
  | key (canClose : Bool) (members : Object) (stack : List Frame)
  /-- The colon after a key. -/
  | colon (members : Object) (key : String) (stack : List Frame)
  /-- What follows a value: a comma or the end of the innermost frame. -/
  | after (v : Json) (stack : List Frame)

/-- The step of the machine at one token, unless the token cannot stand there. -/
def step : State → Token → Option State
  | .value _ stack, .scalar v => some (.after (.scalar v) stack)
  | .value _ stack, .openArray => some (.value true (.array [] :: stack))
  | .value _ stack, .openObject => some (.key true [] stack)
  | .value true (.array _ :: stack), .closeArray => some (.after (.array []) stack)
  | .key _ members stack, .scalar (.text key) => some (.colon members key stack)
  | .key true _ stack, .closeObject => some (.after (.object []) stack)
  | .colon members key stack, .colon => some (.value false (.object members key :: stack))
  | .after v (.array items :: stack), .comma => some (.value false (.array (v :: items) :: stack))
  | .after v (.array items :: stack), .closeArray =>
    some (.after (.array (v :: items).reverse) stack)
  | .after v (.object members key :: stack), .comma => some (.key false (members.put key v) stack)
  | .after v (.object members key :: stack), .closeObject =>
    some (.after (.object (members.put key v)) stack)
  | _, _ => none

/-- The value that the tokens complete, when they complete exactly one. -/
def run? : State → List Token → Option Json
  | .after v [], [] => some v
  | _, [] => none
  | s, t :: rest => (step s t).bind (run? · rest)

end Reader

/-- The value that a JSON text writes, where `spell` says what the code points of its texts are read
as. -/
def parseSpelled? (spell : Nat → Option (List Char)) (s : String) : Option Json :=
  (Token.ofChars? spell s.toList).bind (Reader.run? (.value false []))

/-- The character of a code point that is one. -/
def character? (n : Nat) : Option (List Char) :=
  if n.isValidChar then some [Char.ofNat n] else none

/-- The value that a JSON text writes, if its texts hold nothing but characters. -/
def parse? (s : String) : Option Json := parseSpelled? character? s

end Json
end ScimQuery
