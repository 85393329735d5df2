import ScimQuery.Filter.Meaning
import ScimQuery.Json.Sameness
import ScimQuery.Store

/-! # The plain store

A store that keeps resources as they are.  It takes every resource, and finds by evaluating the
attribute of each column. -/

namespace ScimQuery

/-- The resources of every scope, in the order in which they were added. -/
structure Memory where
  entries : List (Scope × Object)
  deriving Repr

namespace Memory

/-- The resources of a scope. -/
def resources (m : Memory) (scope : Scope) : List Object :=
  (m.entries.filter (·.1 == scope)).map (·.2)

/-- Whether the attribute of a column equals a scalar. -/
def columnEquals (r : Object) (column : Column) (value : Scalar) : Bool :=
  Operator.equal.test (Path.resolve column.source (.object r)) value

/-- Whether the attributes of columns equal given scalars. -/
def fits (predicate : List (Column × Scalar)) (r : Object) : Bool :=
  predicate.all fun (column, value) => columnEquals r column value

/-- Whether the attribute of a column equals any value. -/
def columnSame (r : Object) (column : Column) : Json → Bool
  | .scalar s => columnEquals r column s
  | v => (Path.resolve column.source (.object r)).same v

/-- Whether the attributes of columns given by name equal given values.  A name that no column has
is noticed only when every column before it fits. -/
def fitsNamed : List (String × Json) → Object → Except FindFault Bool
  | [], _ => .ok true
  | (name, value) :: rest, r =>
    match Column.ofName? name with
    | none => .error (.unknownColumn name)
    | some column => if columnSame r column value then fitsNamed rest r else .ok false

/-- The resources that fit columns given by name. -/
def filterNamed (predicate : List (String × Json)) :
    List Object → Except FindFault (List Object)
  | [] => .ok []
  | r :: rest => do
    let fit ← fitsNamed predicate r
    let others ← filterNamed predicate rest
    pure (if fit then r :: others else others)

/-- Adds a resource. -/
def add (m : Memory) (scope : Scope) (r : Object) : Memory := ⟨m.entries ++ [(scope, r)]⟩

/-- A plain store takes every resource, and the receipt is the resource. -/
instance : Store Memory where
  Receipt := Object
  empty := ⟨[]⟩
  add m scope r := .ok (r, m.add scope r)
  fetch m scope predicate := .ok ((m.resources scope).filter (fits predicate))
  find m scope predicate := filterNamed predicate (m.resources scope)

end Memory
end ScimQuery
