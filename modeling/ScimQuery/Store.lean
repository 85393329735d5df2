import ScimQuery.Column
import ScimQuery.Json

/-! # Stores

A store keeps resources, each in the scope of one endpoint and one resource type, and finds the
resources of a scope whose columns equal given scalars, in the order in which they were added. -/

namespace ScimQuery

/-- The endpoint and the type that a resource belongs to. -/
structure Scope where
  endpoint : String
  type : ResourceType
  deriving DecidableEq, Repr

/-- A cell of a stored row: the endpoint, a column, or the lower-case copy of a column. -/
inductive Cell where
  | endpoint
  | column (c : Column)
  | folded (c : Column)
  deriving DecidableEq, Repr

namespace Cell

/-- The name of a cell. -/
def name : Cell → String
  | .endpoint => "endpoint_id"
  | .column c => c.name
  | .folded c => c.name ++ "_lower"

end Cell

/-- A text that is too long for a cell. -/
structure TooLong where
  cell : Cell
  value : String
  deriving DecidableEq, Repr

namespace TooLong

/-- The greatest length of the text in a cell. -/
def maxLength : Nat := 255

/-- The message for a text that is too long. -/
def message (t : TooLong) : String :=
  t.cell.name ++ ": Length of '" ++ t.value ++ "' " ++ toString t.value.length ++ " > "
    ++ toString maxLength

/-- Checks that a text is not too long for a cell. -/
def check (cell : Cell) (value : String) : Except TooLong Unit :=
  if value.length ≤ maxLength then .ok () else .error ⟨cell, value⟩

end TooLong

/-- Why a store refuses a resource. -/
inductive AddFault where
  /-- A cell that must not be empty is. -/
  | empty (cell : Cell)
  | tooLong (text : TooLong)
  /-- The scope has a resource with the same identifier. -/
  | duplicate
  deriving DecidableEq, Repr

namespace AddFault

/-- The message for a resource that is refused. -/
def message : AddFault → String
  | .empty cell => cell.name ++ " is non nullable field, but null was passed"
  | .tooLong text => text.message
  | .duplicate =>
    "UNIQUE constraint failed: scim_resources.endpoint_id, scim_resources.resource_type, " ++
      "scim_resources.scim_id"

end AddFault

/-- Why a store does not look for resources. -/
inductive FindFault where
  /-- No column has the name. -/
  | unknownColumn (name : String)
  /-- What is looked for is too long for its cell. -/
  | tooLong (text : TooLong)
  deriving DecidableEq, Repr

/-- A store, whose states are `σ`. -/
class Store (σ : Type) where
  /-- What is answered when a resource is added. -/
  Receipt : Type
  /-- The store without resources. -/
  empty : σ
  /-- Adds a resource after those that are there. -/
  add : σ → Scope → Object → Except AddFault (Receipt × σ)
  /-- The resources of a scope whose columns equal given scalars. -/
  fetch : σ → Scope → List (Column × Scalar) → Except TooLong (List Object)
  /-- The same for columns given by name and any values. -/
  find : σ → Scope → List (String × Json) → Except FindFault (List Object)

end ScimQuery
