import ScimQuery.Plan
import ScimQuery.SearchRequest
import ScimQuery.Store

/-! # Listing resources

A page of the resources of a scope that satisfy the filter of a request, in its order and cut down
to its attributes; and one resource by its identifier. -/

namespace ScimQuery

/-- A page of resources, and how many there are on all pages. -/
structure Page where
  totalResults : Nat
  resources : List Object
  startIndex : Nat
  deriving Repr

namespace Page

/-- The number of resources on the page. -/
def itemsPerPage (p : Page) : Nat := p.resources.length

/-- The page as a message. -/
def toJson (p : Page) : Json :=
  .object [
    ("schemas", .array [.text Schema.listResponse]),
    ("totalResults", .integer p.totalResults),
    ("Resources", .array (p.resources.map .object)),
    ("startIndex", .integer p.startIndex),
    ("itemsPerPage", .integer p.itemsPerPage)]

end Page

namespace Listing

/-- Why resources are not listed. -/
inductive Fault where
  /-- The filter is refused. -/
  | filter (refusal : Filter.Refusal)
  /-- What the store is asked for is too long. -/
  | tooLong (text : TooLong)
  deriving DecidableEq, Repr

/-- The plan of a filter on resources of a type. -/
def plan (type : ResourceType) (filter : Option String) : Except Fault (Plan Column) :=
  (Plan.ofText type.columns filter).mapError .filter

/-- What a store keeps for a plan. -/
def fetch {σ : Type} [Store σ] (s : σ) (scope : Scope) (plan : Plan Column) :
    Except Fault (List Object) :=
  (Store.fetch s scope plan.predicate).mapError .tooLong

/-- The resources of those fetched for a plan that satisfy it. -/
def matched (plan : Plan Column) (fetched : List Object) : List Object :=
  match plan.rest? with
  | some f => fetched.filter fun r => f.holds (.object r)
  | none => fetched

/-- Resources in the order of a request. -/
def sorted (request : SearchRequest) (rs : List Object) : List Object :=
  match request.sortBy with
  | none => rs
  | some path =>
    if path = "" then rs
    else sortByKey (fun r => SortKey.ofResource path (.object r)) request.sortOrder rs

/-- The page of a request. -/
def page (request : SearchRequest) (rs : List Object) : Page where
  totalResults := rs.length
  resources := ((rs.drop request.offset).take request.limit).map request.projection.apply
  startIndex := request.startIndex

/-- The page of the resources of a scope that a request asks for. -/
def list {σ : Type} [Store σ] (s : σ) (scope : Scope) (request : SearchRequest) :
    Except Fault Page := do
  let plan ← plan scope.type request.filter
  let fetched ← fetch s scope plan
  pure (page request (sorted request (matched plan fetched)))

/-- A text with a backslash before each backslash and quote. -/
def escape (s : List Char) : List Char :=
  s.flatMap fun c => if c = '\\' ∨ c = '"' then ['\\', c] else [c]

/-- The filter for the resource with an identifier. -/
def idFilter (id : String) : String :=
  "id eq \"" ++ String.ofList (escape id.toList) ++ "\""

/-- The first resource of a scope with an identifier, projected. -/
def get {σ : Type} [Store σ] (s : σ) (scope : Scope) (id : String) (projection : Projection) :
    Except Fault (Option Object) := do
  let plan ← plan scope.type (some (idFilter id))
  let fetched ← fetch s scope plan
  pure (fetched.head?.map projection.apply)

end Listing
end ScimQuery
