import ScimQuery.Attribute.Urn
import ScimQuery.Json
import ScimQuery.Schema

/-! # Attribute paths

Where an attribute path leads in a resource.  A path is a name, names joined by dots, or either of
these qualified by a schema URN; names are told without regard to case, and of several members
that a name fits the first counts.  Arrays are not entered. -/

namespace ScimQuery

namespace Object

/-- The first member whose key differs from a name at most in case. -/
def member? (o : Object) (name : String) : Option (String × Json) :=
  let lowered := Text.lower name
  o.find? fun (key, _) => Text.lower key == lowered

/-- The key of the member that a name fits. -/
def key? (o : Object) (name : String) : Option String := (o.member? name).map (·.1)

end Object

namespace Path

/-- The names of a path that are joined by dots. -/
def names (path : String) : List String := (Text.splitOn '.' path.toList).map String.ofList

/-- The value that names lead to from a value, one inside the other: `null` where a member is
missing or a value on the way is no object. -/
def follow : List String → Json → Json
  | [], v => v
  | name :: rest, v =>
    match v.members?.bind (·.member? name) with
    | some (_, inner) => follow rest inner
    | none => .null

/-- The value at a dotted path. -/
def descend (path : String) (v : Json) : Json := follow (names path) v

/-- The value at a path qualified by a schema: inside the member that the schema names; failing
such a member, in the resource itself if the schema is a core schema. -/
def resolveQualified (o : Object) (schema suffix : String) : Json :=
  match o.member? schema with
  | some (_, extension) => descend suffix extension
  | none => if Schema.isCore schema then descend suffix (.object o) else .null

/-- The value at an attribute path, `null` where there is none. -/
def resolve (path : String) (v : Json) : Json :=
  match v with
  | .object o =>
    match Urn.split? path with
    | some (schema, suffix) => resolveQualified o schema suffix
    | none => descend path v
  | _ => .null

end Path
end ScimQuery
