import ScimQuery.Attribute.Names
import ScimQuery.Attribute.Path

/-! # Projection

A resource with only some of its attributes, or without some of them.  A name addresses a member
as a whole, or a part of one: `name.familyName`, or an attribute inside the member of an extension
schema.  The members `schemas`, `id` and `meta` are always there.  The part of an array is taken
in each of its objects. -/

namespace ScimQuery
namespace Projection

/-! ### Addresses -/

/-- The names of the members that are always there. -/
def alwaysReturned : List String := ["schemas", "id", "meta"]

/-- Whether a key names a member that is always there. -/
def isAlwaysReturned (key : String) : Bool := alwaysReturned.contains (Text.lower key)

/-- What a name in normal form addresses: a member by its key, as a whole or a part of it. -/
structure Address where
  key : String
  part : Option String
  deriving DecidableEq, Repr

/-- What starts every schema URN, in lower case. -/
def urnStart : List Char := ['u', 'r', 'n', ':']

/-- The part of the extension with a given key that a name addresses: what follows the key, which
is a schema URN, and a colon. -/
def extensionPart? (key : String) (name : List Char) : Option (List Char) :=
  let schema := (Text.lower key).toList
  if urnStart.isPrefixOf schema && (schema ++ [':']).isPrefixOf name then
    some (name.drop (schema.length + 1))
  else none

/-- The address of a name that no key fits as a whole. -/
def partAddress? (r : Object) (name : List Char) : Option Address :=
  if urnStart.isPrefixOf name then
    r.findSome? fun (key, _) =>
      (extensionPart? key name).map fun part => ⟨key, some (String.ofList part)⟩
  else do
    let (top, part) ← Text.cutFirst '.' name
    let key ← r.key? (String.ofList top)
    pure ⟨key, some (String.ofList part)⟩

/-- The address of a name in a resource, if it has one. -/
def address? (r : Object) (name : String) : Option Address :=
  match r.key? name with
  | some key => some ⟨key, none⟩
  | none => partAddress? r name.toList

/-- The addresses of names in a resource. -/
def addresses (r : Object) (names : List String) : List Address := names.filterMap (address? r)

/-- How much of a member is addressed. -/
inductive Share where
  | whole
  | parts (names : List String)
  deriving DecidableEq, Repr

/-- How much of the member with a given key is addressed; the whole outweighs every part. -/
def share? (as : List Address) (key : String) : Option Share :=
  let here := as.filter (·.key == key)
  if here.isEmpty then none
  else if here.any (·.part.isNone) then some .whole
  else some (.parts (here.filterMap (·.part)))

/-! ### Parts of a value -/

/-- A change of the object that a value is, or of each object in the array that it is. -/
def onObjects (change : Object → Object) : Json → Json
  | .object o => .object (change o)
  | .array items => .array (items.map fun item =>
      match item with
      | .object o => .object (change o)
      | v => v)
  | v => v

/-- The members that names fit, in the order of the names. -/
def keepMembers (names : List String) (o : Object) : Object := names.filterMap o.member?

/-- An object without the first member that a name fits. -/
def dropMember (o : Object) (name : String) : Object :=
  let lowered := Text.lower name
  o.eraseP fun (key, _) => Text.lower key == lowered

/-- An object without the members that names fit. -/
def dropMembers (names : List String) (o : Object) : Object := names.foldl dropMember o

/-- The share of a value. -/
def keepShare : Share → Json → Json
  | .whole, v => v
  | .parts names, v => onObjects (keepMembers names) v

/-- A value without a share of it, if anything is left. -/
def dropShare? : Share → Json → Option Json
  | .whole, _ => none
  | .parts names, v => some (onObjects (dropMembers names) v)

/-! ### Projections -/

/-- The members that are always there. -/
def always (r : Object) : Object := alwaysReturned.filterMap r.member?

/-- The addressed members of a resource that `done` does not hold, cut down to what is addressed,
in the order in which they are first addressed. -/
def addressed (r : Object) (as : List Address) (done : Object) : Object :=
  ((as.map (·.key)).eraseDups.filter fun key => !done.keys.contains key).filterMap fun key => do
    let share ← share? as key
    let v ← r.get? key
    pure (key, keepShare share v)

/-- A resource with nothing but the attributes of the given names and the members that are always
there. -/
def keep (names : List String) (r : Object) : Object :=
  always r ++ addressed r (addresses r names) (always r)

/-- A resource without the attributes of the given names. -/
def drop (names : List String) (r : Object) : Object :=
  let as := addresses r names
  r.filterMap fun (key, v) =>
    if isAlwaysReturned key then some (key, v)
    else match share? as key with
      | none => some (key, v)
      | some share => (dropShare? share v).map fun v => (key, v)

end Projection

/-- What to leave of each resource in an answer. -/
structure Projection where
  attributes : Option AttributeNames
  excluded : Option AttributeNames
  deriving DecidableEq, Repr

namespace Projection

/-- The projection that leaves everything. -/
def all : Projection := ⟨none, none⟩

/-- Whether a projection names no attribute at all. -/
def isAll (p : Projection) : Bool :=
  (AttributeNames.namesOf p.attributes).isEmpty && (AttributeNames.namesOf p.excluded).isEmpty

/-- The projection of a resource.  Attributes to keep outweigh attributes to leave out. -/
def apply (p : Projection) (r : Object) : Object :=
  let kept := AttributeNames.namesOf p.attributes
  let dropped := AttributeNames.namesOf p.excluded
  if !kept.isEmpty then keep kept r
  else if !dropped.isEmpty then drop dropped r
  else r

end Projection
end ScimQuery
