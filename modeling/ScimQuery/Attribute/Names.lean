import ScimQuery.Text.Blank
import ScimQuery.Text.Case
import ScimQuery.Text.Pieces

/-! # Lists of attribute names

Attribute names arrive as one text with commas between them or as a list of texts.  In normal
form they are trimmed, in lower case, not empty, and each stands once, where it first occurs. -/

namespace ScimQuery

/-- Attribute names as they arrive. -/
inductive AttributeNames where
  | text (s : String)
  | list (names : List String)
  deriving DecidableEq, Repr

namespace AttributeNames

/-- A name in normal form. -/
def normalizeName (s : String) : String := Text.lower (Text.trim s)

/-- A list of names in normal form. -/
def normalize (names : List String) : List String :=
  ((names.map normalizeName).filter (· != "")).eraseDups

/-- The names, in normal form. -/
def names : AttributeNames → List String
  | .text s => normalize ((Text.splitOn ',' s.toList).map String.ofList)
  | .list names => normalize names

/-- The names that may be missing, in normal form. -/
def namesOf : Option AttributeNames → List String
  | some given => given.names
  | none => []

end AttributeNames
end ScimQuery
