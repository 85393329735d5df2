import ScimQuery.Number.Numeral
import ScimQuery.Token
import ScimQuery.Text.Quoted

/-! # Refused filters

The reasons for which a filter text or a list of tokens is refused, the words for them, and the
place in the text that each is about. -/

namespace ScimQuery
namespace Filter

/-- Why a filter is refused. -/
inductive Fault where
  /-- The text holds nothing but blanks. -/
  | blank
  /-- A quoted text that starts here has no closing quote. -/
  | unterminated (position : Int)
  /-- No token starts with this character. -/
  | unexpectedCharacter (c : Char) (position : Int)
  /-- The last token is not a stop. -/
  | noStop
  /-- A token follows a filter that is complete. -/
  | unexpectedToken (found : Token)
  /-- A token of one kind is needed where another stands. -/
  | expected (kind : TokenKind) (found : Token)
  /-- A comparison needs a value where another token stands. -/
  | expectedValue (found : Token)
  /-- A number token does not hold a numeral. -/
  | malformedNumber (found : Token)
  /-- A number token holds an integer of more digits than are read. -/
  | tooManyDigits (count : Nat) (found : Token)
  deriving DecidableEq, Repr

namespace Fault

/-- A token as a message shows it. -/
def shown (t : Token) : String := t.kind.name ++ " (\"" ++ t.value ++ "\")"

/-- How much is shown of a numeral without a point. -/
def shownLength : Nat := 200

/-- The reason in words. -/
def reason : Fault → String
  | .blank => "Filter expression cannot be empty"
  | .unterminated p => s!"Unterminated string at position {p}"
  | .unexpectedCharacter c p =>
    "Unexpected character '" ++ String.singleton c ++ "' at position " ++ toString p
  | .noStop => "Token stream must end with an EOF token"
  | .unexpectedToken t =>
    "Unexpected token \"" ++ t.value ++ "\" at position " ++ toString t.position
  | .expected kind t =>
    "Expected " ++ kind.name ++ " but got " ++ shown t ++ " at position " ++ toString t.position
  | .expectedValue t =>
    "Expected comparison value but got " ++ shown t ++ " at position " ++ toString t.position
  | .malformedNumber t =>
    if t.value.toList.contains '.' then
      "could not convert string to float: " ++ Text.quote t.value
    else
      "invalid literal for int() with base 10: "
        ++ String.ofList ((Text.quote t.value).toList.take shownLength)
  | .tooManyDigits count _ =>
    s!"Exceeds the limit ({Number.digitLimit} digits) for integer string conversion: "
      ++ s!"value has {count} digits; use sys.set_int_max_str_digits() to increase the limit"

/-- The place that a reason is about, in characters from the start of the text. -/
def position? : Fault → Option Int
  | .blank => none
  | .unterminated p => some p
  | .unexpectedCharacter _ p => some p
  | .noStop => none
  | .unexpectedToken t => some t.position
  | .expected _ t => some t.position
  | .expectedValue t => some t.position
  | .malformedNumber t => some t.position
  | .tooManyDigits _ t => some t.position

/-- Whether a fault is one of syntax.  That a number is not read is none. -/
def isSyntax : Fault → Bool
  | .malformedNumber _ => false
  | .tooManyDigits _ _ => false
  | _ => true

end Fault

/-- A filter text that is refused, and why. -/
structure Refusal where
  text : String
  fault : Fault
  deriving DecidableEq, Repr

/-- The message for a filter text that is refused for a reason given in words. -/
def refusalMessage (text reason : String) : String :=
  "Invalid filter expression '" ++ text ++ "': " ++ reason

/-- The message of a refusal. -/
def Refusal.message (r : Refusal) : String := refusalMessage r.text r.fault.reason

end Filter
end ScimQuery
