import ScimQuery.Json

/-! # Filters

A filter compares values at attribute paths with scalars, joins and negates such comparisons, and
looks for an object in an array that satisfies a filter of its own. -/

namespace ScimQuery

/-- What a comparison tests. -/
inductive Operator where
  | equal
  | notEqual
  | contains
  | startsWith
  | endsWith
  | greater
  | greaterOrEqual
  | less
  | lessOrEqual
  | present
  /-- A name that no test has. -/
  | other (name : String)
  deriving DecidableEq, Repr, Inhabited

namespace Operator

/-- The name of an operator in filters. -/
def name : Operator → String
  | .equal => "eq"
  | .notEqual => "ne"
  | .contains => "co"
  | .startsWith => "sw"
  | .endsWith => "ew"
  | .greater => "gt"
  | .greaterOrEqual => "ge"
  | .less => "lt"
  | .lessOrEqual => "le"
  | .present => "pr"
  | .other name => name

/-- The operator of a given name. -/
def ofName (s : String) : Operator :=
  match s with
  | "eq" => .equal
  | "ne" => .notEqual
  | "co" => .contains
  | "sw" => .startsWith
  | "ew" => .endsWith
  | "gt" => .greater
  | "ge" => .greaterOrEqual
  | "lt" => .less
  | "le" => .lessOrEqual
  | "pr" => .present
  | s => .other s

end Operator

/-- How two filters are joined. -/
inductive Connective where
  | and
  | or
  deriving DecidableEq, Repr, Inhabited

namespace Connective

/-- The name of a connective in filters. -/
def name : Connective → String
  | .and => "and"
  | .or => "or"

/-- The connective of a given name: whatever is no conjunction is a disjunction. -/
def ofName (s : String) : Connective := if s = "and" then .and else .or

end Connective

/-- A filter on resources. -/
inductive Filter where
  /-- A test of the value at a path against a scalar. -/
  | compare (path : String) (op : Operator) (value : Scalar)
  /-- Two filters joined. -/
  | logical (op : Connective) (left right : Filter)
  /-- The negation of a filter. -/
  | not (inner : Filter)
  /-- A filter that an object in the array at a path satisfies. -/
  | valuePath (path : String) (inner : Filter)
  /-- A filter of an unknown form. -/
  | unrecognized
  deriving DecidableEq, Repr, Inhabited

namespace Filter

/-- A filter with a change made to every text that it compares with. -/
def mapTexts (change : String → String) : Filter → Filter
  | .compare path op (.text s) => .compare path op (.text (change s))
  | .compare path op value => .compare path op value
  | .logical op left right => .logical op (left.mapTexts change) (right.mapTexts change)
  | .not inner => .not (inner.mapTexts change)
  | .valuePath path inner => .valuePath path (inner.mapTexts change)
  | .unrecognized => .unrecognized

/-- A filter as a JSON object.  A test for presence has no value. -/
def toJson : Filter → Json
  | .compare path op value =>
    .object ([("type", .text "compare"), ("attrPath", .text path), ("op", .text op.name)]
      ++ if op.name = "pr" then [] else [("value", .scalar value)])
  | .logical op left right =>
    .object [("type", .text "logical"), ("op", .text op.name), ("left", left.toJson),
      ("right", right.toJson)]
  | .not inner => .object [("type", .text "not"), ("filter", inner.toJson)]
  | .valuePath path inner =>
    .object [("type", .text "valuePath"), ("attrPath", .text path), ("filter", inner.toJson)]
  | .unrecognized => .null

end Filter
end ScimQuery
