/-! # Filter tokens

The tokens of a filter text.  A token keeps what it says as a text: a quoted text without its
quotes and escapes, keywords and operators in lower case, attribute paths and numerals as they are
written.  The last token of a filter is the `stop` after its last character. -/

namespace ScimQuery

/-- The kinds of tokens. -/
inductive TokenKind where
  | openParen
  | closeParen
  | openBracket
  | closeBracket
  | and
  | or
  | not
  | operator
  | present
  | text
  | number
  | truth
  | null
  | attribute
  | stop
  deriving DecidableEq, Repr, Inhabited

namespace TokenKind

/-- The name of a kind in messages. -/
def name : TokenKind → String
  | .openParen => "LPAREN"
  | .closeParen => "RPAREN"
  | .openBracket => "LBRACKET"
  | .closeBracket => "RBRACKET"
  | .and => "AND"
  | .or => "OR"
  | .not => "NOT"
  | .operator => "OP"
  | .present => "PR"
  | .text => "STRING"
  | .number => "NUMBER"
  | .truth => "BOOLEAN"
  | .null => "NULL"
  | .attribute => "ATTR"
  | .stop => "EOF"

/-- Every kind, in the order of its definition. -/
def all : List TokenKind := [
  .openParen, .closeParen, .openBracket, .closeBracket, .and, .or, .not, .operator, .present,
  .text, .number, .truth, .null, .attribute, .stop]

/-- The kind of a given name. -/
def ofName? (s : String) : Option TokenKind := all.find? (·.name == s)

end TokenKind

/-- A token: its kind, what it says, and where it starts, in characters. -/
structure Token where
  kind : TokenKind
  value : String
  position : Int
  deriving DecidableEq, Repr, Inhabited

end ScimQuery
