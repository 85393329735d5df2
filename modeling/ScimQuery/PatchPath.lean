import ScimQuery.Attribute.Urn
import ScimQuery.Filter.Meaning
import ScimQuery.Filter.Parser

/-! # Paths of PATCH operations

The path of a PATCH operation names an attribute, perhaps qualified by a schema URN, perhaps with a
filter in brackets that selects items of the attribute, and perhaps a sub-attribute after a dot. -/

namespace ScimQuery

/-- A path of a PATCH operation: the name of an attribute, the filter that selects its items, the
name of a sub-attribute, and the schema of the attribute. -/
structure PatchPath where
  name : String
  filter : Option Filter
  subName : Option String
  schema : Option String
  deriving DecidableEq, Repr

namespace PatchPath

/-- Why a path is refused. -/
inductive Fault where
  /-- It holds nothing but blanks. -/
  | blank
  /-- Its bracket is not closed. -/
  | unclosed (path : String)
  /-- Its names are not where they should be. -/
  | malformed (path : String)
  /-- The filter in its bracket is refused. -/
  | filter (refusal : Filter.Refusal)
  deriving DecidableEq, Repr

/-- The message for a path that is refused. -/
def Fault.message : Fault → String
  | .blank => "Path cannot be empty"
  | .unclosed path => "Invalid SCIM path: " ++ path ++ " (unclosed '[')"
  | .malformed path => "Invalid SCIM path: " ++ path
  | .filter refusal => refusal.message

/-- What stands before and after the closing bracket, which no quoted text holds. -/
def closing? (quoted : Bool) : List Char → Option (List Char × List Char)
  | [] => none
  | c :: rest =>
    if quoted then
      if c = '\\' then
        match rest with
        | [] => none
        | d :: rest => (closing? true rest).map fun (inside, after) => (c :: d :: inside, after)
      else (closing? (c != '"') rest).map fun (inside, after) => (c :: inside, after)
    else if c = ']' then some ([], rest)
    else (closing? (c == '"') rest).map fun (inside, after) => (c :: inside, after)

/-- A name: not empty and without a dot. -/
def isName (s : List Char) : Bool := !s.isEmpty && !s.contains '.'

/-- A name, and another after a dot where there is a dot. -/
def splitNames? (s : List Char) : Option (List Char × Option (List Char)) :=
  match Text.cutFirst '.' s with
  | none => if isName s then some (s, none) else none
  | some (name, sub) => if isName name && isName sub then some (name, some sub) else none

/-- The name that the text after a bracket holds, if that text may stand there. -/
def afterBracket? : List Char → Option (Option (List Char))
  | [] => some none
  | c :: sub => if c = '.' ∧ isName sub then some (some sub) else none

/-- The path that a text writes which holds a bracket after `name` and `rest` after the bracket. -/
def parseFiltered (path : String) (name rest : List Char) : Except Fault PatchPath :=
  match closing? false rest with
  | none => .error (.unclosed path)
  | some (inside, after) =>
    match isName name, afterBracket? after with
    | true, some sub =>
      match Filter.parse (String.ofList inside) with
      | .ok f => .ok ⟨String.ofList name, some f, sub.map String.ofList, none⟩
      | .error refusal => .error (.filter refusal)
    | _, _ => .error (.malformed path)

/-- The path that a text without a bracket writes. -/
def parsePlain (path : String) : Except Fault PatchPath :=
  let (schema, names) := match Urn.splitChars? path.toList with
    | some (schema, suffix) => (some (String.ofList schema), suffix)
    | none => (none, path.toList)
  match splitNames? names with
  | some (name, sub) => .ok ⟨String.ofList name, none, sub.map String.ofList, schema⟩
  | none => .error (.malformed path)

/-- The path that a text without blanks at its ends writes. -/
def parseTrimmed (path : String) : Except Fault PatchPath :=
  match Text.cutFirst '[' path.toList with
  | some (name, rest) => parseFiltered path name rest
  | none => parsePlain path

/-- The path that a text writes. -/
def parse (text : String) : Except Fault PatchPath :=
  if Text.allBlank text then .error .blank else parseTrimmed (Text.trim text)

/-- The items that the filter of a path selects: none when it has no filter. -/
def select (p : PatchPath) (items : List Json) : List Json :=
  match p.filter with
  | some f => f.matching items
  | none => []

end PatchPath
end ScimQuery
