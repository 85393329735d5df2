import ScimQuery.Text.Pieces

/-! # Paths qualified by a URN

An attribute path may name the schema of the attribute in front of it, as in
`urn:ietf:params:scim:schemas:core:2.0:User:userName`.  The schema ends at the last colon.  Letters
are told without regard to case, so the four other characters whose case forms are ASCII letters
may stand for letters, and one line feed at the end of the path is ignored. -/

namespace ScimQuery
namespace Urn

/-- An ASCII letter or digit, or a character that has an ASCII letter as a case form: `İ`, `ı`, `ſ`
or the kelvin sign. -/
def isLetterOrDigit (c : Char) : Bool :=
  c.isAlphanum || c == '\u0130' || c == '\u0131' || c == '\u017f' || c == '\u212a'

/-- A character of a schema URN after its `urn:`. -/
def inSchema (c : Char) : Bool :=
  isLetterOrDigit c || c == ':' || c == '.' || c == '_' || c == '-'

/-- A character of the path after the schema. -/
def inSuffix (c : Char) : Bool :=
  isLetterOrDigit c || c == '_' || c == '.' || c == '$' || c == '-'

/-- What a schema URN says after its `urn:`, in any case. -/
def body? : List Char → Option (List Char)
  | u :: r :: n :: ':' :: rest =>
    if u.toLower = 'u' ∧ r.toLower = 'r' ∧ n.toLower = 'n' then some rest else none
  | _ => none

/-- A schema URN: `urn:` and at least one more character. -/
def isSchema (s : List Char) : Bool :=
  match body? s with
  | some rest => !rest.isEmpty && rest.all inSchema
  | none => false

/-- A path within a schema: at least one character. -/
def isSuffix (s : List Char) : Bool := !s.isEmpty && s.all inSuffix

/-- A list of characters without one line feed at its end. -/
def dropLineFeed (s : List Char) : List Char :=
  if s.getLast? = some '\n' then s.dropLast else s

/-- The schema and the rest of a qualified path, as lists of characters. -/
def splitChars? (s : List Char) : Option (List Char × List Char) :=
  (Text.cutLast ':' (dropLineFeed s)).filter fun (schema, suffix) =>
    isSchema schema && isSuffix suffix

/-- The schema and the rest of a qualified path. -/
def split? (path : String) : Option (String × String) :=
  (splitChars? path.toList).map fun (schema, suffix) => (String.ofList schema, String.ofList suffix)

end Urn
end ScimQuery
