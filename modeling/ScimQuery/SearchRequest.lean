import ScimQuery.Field
import ScimQuery.Projection
import ScimQuery.Sorting

/-! # List requests

A request for a page of resources: a filter, an order, where the page starts and how long it may
be, and a projection.  Positions count from one, a start before the first resource means the
first, and a negative count means none. -/

namespace ScimQuery

/-- A request for a page of resources. -/
structure SearchRequest where
  schemas : List String
  projection : Projection
  filter : Option String
  sortBy : Option String
  sortOrder : SortOrder
  startIndex : Nat
  count : Nat
  startIndex_pos : 1 ≤ startIndex := by omega

namespace SearchRequest

/-- The count of a request that gives none. -/
def defaultCount : Nat := 100

/-- The longest page. -/
def maxCount : Nat := 200

/-- The number of resources before the page. -/
def offset (r : SearchRequest) : Nat := r.startIndex - 1

/-- The greatest number of resources on the page. -/
def limit (r : SearchRequest) : Nat := min r.count maxCount

/-! ### Reading a request -/

/-- Attribute names: a text, or a list of texts. -/
def readNames (v : Json) : Field.Reading AttributeNames :=
  match Field.text v, Field.texts v with
  | .ok s, _ => .ok (.text s)
  | _, .ok names => .ok (.list names)
  | asText, asList =>
    .error (Field.problems (Field.within (.name "str") asText)
      ++ Field.problems (Field.within (.name "list[str]") asList))

/-- The direction of a sort: ascending if it is `null`. -/
def readOrder : Json → Field.Reading SortOrder
  | .scalar .null => .ok .ascending
  | .scalar (.text "ascending") => .ok .ascending
  | .scalar (.text "descending") => .ok .descending
  | _ => Field.fail (.rule "sortOrder must be one of ['ascending', 'descending']")

/-- A request from fields, which may be given by the names of messages or by plain names; or every
problem, in the order of the fields. -/
def ofFields (fields : Object) : Field.Reading SearchRequest :=
  let schemas := Field.read fields ["schemas"] [Schema.searchRequest] Field.texts
  let attributes := Field.read fields ["attributes"] none (Field.optional readNames)
  let excluded := Field.read fields ["excludedAttributes", "excluded_attributes"] none
    (Field.optional readNames)
  let filter := Field.read fields ["filter"] none (Field.optional Field.text)
  let sortBy := Field.read fields ["sortBy", "sort_by"] none (Field.optional Field.text)
  let sortOrder := Field.read fields ["sortOrder", "sort_order"] .ascending readOrder
  let startIndex := Field.read fields ["startIndex", "start_index"] 1 Field.integer
  let count := Field.read fields ["count"] (defaultCount : Int) Field.integer
  match schemas, attributes, excluded, filter, sortBy, sortOrder, startIndex, count with
  | .ok schemas, .ok attributes, .ok excluded, .ok filter, .ok sortBy, .ok sortOrder,
      .ok startIndex, .ok count =>
    .ok { schemas, projection := ⟨attributes, excluded⟩, filter, sortBy, sortOrder,
          startIndex := max startIndex.toNat 1, count := count.toNat }
  | schemas, attributes, excluded, filter, sortBy, sortOrder, startIndex, count =>
    .error (Field.problems schemas ++ Field.problems attributes ++ Field.problems excluded
      ++ Field.problems filter ++ Field.problems sortBy ++ Field.problems sortOrder
      ++ Field.problems startIndex ++ Field.problems count)

/-- The fields of a request that query parameters give: a count that is `null` is not given, a
start that is missing is the first. -/
def parameterFields (parameters : Object) : Object :=
  let value (name : String) : Json := Json.ofOption (parameters.get? name)
  let count := value "count"
  [("filter", value "filter"), ("attributes", value "attributes"),
    ("excludedAttributes", value "excluded_attributes"), ("sortBy", value "sort_by"),
    ("sortOrder", value "sort_order"),
    ("startIndex", (parameters.get? "start_index").getD (.integer 1))]
    ++ if count.isNull then [] else [("count", count)]

/-- The message for query parameters with problems: about the first of them. -/
def parametersMessage (found : List Field.Invalid) : String :=
  match found with
  | [] => "Invalid search parameters: "
  | first :: _ => "Invalid search parameters: " ++ first.problem.message

end SearchRequest
end ScimQuery
