import ScimQuery.Attribute.Path
import ScimQuery.Filter.Meaning

/-! # Sorting resources

Resources are sorted by the value at an attribute path: numbers before texts, numbers by their
exact values with the truth values as zero and one, texts by their lower-case forms, and an array
by its first item.  Resources without such a value come last in either order, and resources that
the order does not tell apart stay as they were.  A double that is no number is a value to sort by,
but stands in no order to other numbers, so among such keys there is no one sorting. -/

namespace ScimQuery

/-- What a value is sorted by.  A number has no place if it is a double that is no number. -/
inductive SortKey where
  | number (place : Option Place)
  | text (lowered : String)
  | missing
  deriving DecidableEq, Repr

namespace SortKey

/-- What a scalar is sorted by. -/
def ofScalar : Scalar → SortKey
  | .null => .missing
  | .bool b => .number (some (.units (if b then Double.unitsInOne else 0)))
  | .number n => .number n.place?
  | .text s => .text (Text.lower s)

/-- What a value that is taken as a whole is sorted by. -/
def ofItem : Json → SortKey
  | .scalar s => ofScalar s
  | _ => .missing

/-- What a value is sorted by. -/
def ofValue : Json → SortKey
  | .array [] => .missing
  | .array (item :: _) => ofItem item
  | v => ofItem v

/-- What a resource is sorted by. -/
def ofResource (path : String) (r : Json) : SortKey := ofValue (Path.resolve path r)

/-- Whether a key may stand before another: the other is not less. -/
def le : SortKey → SortKey → Bool
  | .number (some p), .number (some q) => p.order q != .gt
  | .number _, _ => true
  | .text s, .text t => !decide (t.toList < s.toList)
  | .text _, .missing => true
  | .missing, .missing => true
  | _, _ => false

end SortKey

/-- The direction of a sort. -/
inductive SortOrder where
  | ascending
  | descending
  deriving DecidableEq, Repr, Inhabited

namespace SortOrder

/-- The name of a direction. -/
def name : SortOrder → String
  | .ascending => "ascending"
  | .descending => "descending"

/-- The direction of a given name: whatever is not descending is ascending. -/
def ofName (s : String) : SortOrder := if s = "descending" then .descending else .ascending

/-- Whether a key may stand before another. -/
def le (order : SortOrder) (x y : SortKey) : Bool :=
  match order with
  | .ascending => x.le y
  | .descending => y.le x

end SortOrder

/-- The elements of a list in the order of their keys. -/
def sortByKey {α : Type} (key : α → SortKey) (order : SortOrder) (xs : List α) : List α :=
  (xs.filter (key · != .missing)).mergeSort (fun x y => order.le (key x) (key y))
    ++ xs.filter (key · == .missing)

end ScimQuery
