import ScimQuery.Column
import ScimQuery.Filter.Meaning
import ScimQuery.Filter.Parser

/-! # Planning a filter

A filter that compares one column's attribute for equality with a scalar is left to the store;
any other is evaluated on every resource that the store has. -/

namespace ScimQuery

/-- What to ask of a store whose columns are `κ`. -/
inductive Plan (κ : Type) where
  /-- Every resource. -/
  | everything
  /-- The resources whose column equals a scalar. -/
  | lookUp (column : κ) (value : Scalar)
  /-- Every resource, and of these the ones that satisfy a filter. -/
  | scan (filter : Filter)
  deriving Repr

namespace Plan

/-- The column and the scalar that a filter looks up, when it does nothing else.  The columns are
given by the lower-case forms of their attributes. -/
def lookUp? {κ : Type} (columns : List (String × κ)) : Filter → Option (κ × Scalar)
  | .compare path .equal value =>
    if value = .null then none
    else (columns.lookup (Text.lower path)).map fun column => (column, value)
  | _ => none

/-- The plan for a filter. -/
def ofFilter {κ : Type} (columns : List (String × κ)) (f : Filter) : Plan κ :=
  match lookUp? columns f with
  | some (column, value) => .lookUp column value
  | none => .scan f

/-- The plan for a filter text, which may be missing. -/
def ofText {κ : Type} (columns : List (String × κ)) (filter : Option String) :
    Except Filter.Refusal (Plan κ) :=
  match filter with
  | none => .ok .everything
  | some text =>
    if text = "" then .ok .everything else (Filter.parse text).map (ofFilter columns)

/-- The equalities that a plan asks of a store. -/
def predicate {κ : Type} : Plan κ → List (κ × Scalar)
  | .lookUp column value => [(column, value)]
  | _ => []

/-- Whether every resource is to be fetched and filtered afterwards. -/
def fetchesAll {κ : Type} : Plan κ → Bool
  | .scan _ => true
  | _ => false

/-- The filter that is left to do after the store has answered. -/
def rest? {κ : Type} : Plan κ → Option Filter
  | .scan f => some f
  | _ => none

end Plan
end ScimQuery
