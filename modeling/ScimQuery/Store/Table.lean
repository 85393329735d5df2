import ScimQuery.Attribute.Path
import ScimQuery.Store
import ScimQuery.Store.CellText

/-! # The indexed store

A store that keeps a row for each resource: the resource, and for each column the text of its
attribute and, of an attribute that is a text, the lower-case form.  Every resource needs an
identifier that is a text and that no other in its scope has.  Finding compares lower-case forms
only, and no text that is kept or looked for may be too long. -/

namespace ScimQuery

/-- What a row holds for one column: the text of the attribute, and the lower-case form of an
attribute that is a text. -/
structure Index where
  text : Option String
  folded : Option String
  deriving DecidableEq, Repr

namespace Index

/-- What a row holds for the value of an attribute. -/
def ofJson (v : Json) : Index := ⟨CellText.ofJson? v, v.text?.map Text.lower⟩

end Index

/-- A row: where the resource belongs, what its columns hold, and the resource. -/
structure Row where
  scope : Scope
  scimId : Index
  externalId : Index
  userName : Index
  displayName : Index
  resource : Object
  deriving Repr

namespace Row

/-- What a row holds for a column. -/
def index (row : Row) : Column → Index
  | .scimId => row.scimId
  | .externalId => row.externalId
  | .userName => row.userName
  | .displayName => row.displayName

/-- What the row of a resource holds for a column. -/
def indexOf (r : Object) (column : Column) : Index :=
  Index.ofJson (Path.resolve column.source (.object r))

/-- The row of a resource. -/
def make (scope : Scope) (r : Object) : Row :=
  ⟨scope, indexOf r .scimId, indexOf r .externalId, indexOf r .userName, indexOf r .displayName, r⟩

/-! ### Checks -/

/-- The texts of a row in the order in which their lengths are checked: the endpoint, the texts of
the columns, and their lower-case forms. -/
def cells (row : Row) : List (Cell × Option String) :=
  (.endpoint, some row.scope.endpoint)
    :: Column.all.map (fun c => (.column c, (row.index c).text))
    ++ Column.all.map (fun c => (.folded c, (row.index c).folded))

/-- Checks that a cell is not empty. -/
def checkPresent (cell : Cell) : Option String → Except AddFault Unit
  | none => .error (.empty cell)
  | some _ => .ok ()

/-- Checks the length of the text in a cell, if there is one. -/
def checkLength : Cell × Option String → Except AddFault Unit
  | (_, none) => .ok ()
  | (cell, some s) => (TooLong.check cell s).mapError .tooLong

/-- Checks a row: its identifier is there and is a text, and no text is too long. -/
def check (row : Row) : Except AddFault Unit := do
  checkPresent (.column .scimId) row.scimId.text
  checkPresent (.folded .scimId) row.scimId.folded
  row.cells.forM checkLength

/-- Whether two rows have the same identifier in the same scope. -/
def sameKey (a b : Row) : Bool := a.scope == b.scope && a.scimId.text == b.scimId.text

/-- Whether the columns of a row have given lower-case forms. -/
def fits (asked : List (Column × String)) (row : Row) : Bool :=
  asked.all fun (column, form) => (row.index column).folded == some form

/-- A row in one line: its type, its identifier and its endpoint. -/
def caption (row : Row) : String :=
  row.scope.type.name ++ " " ++ row.scimId.text.getD "None" ++ " (" ++ row.scope.endpoint ++ ")"

end Row

/-- The rows, in the order in which they were added. -/
structure Table where
  rows : List Row
  deriving Repr

namespace Table

/-- The rows of a scope. -/
def inScope (t : Table) (scope : Scope) : List Row := t.rows.filter (·.scope == scope)

/-- Adds the row of a resource, if it passes its checks and its identifier is new in its scope. -/
def add (t : Table) (scope : Scope) (r : Object) : Except AddFault (Row × Table) := do
  let row := Row.make scope r
  row.check
  if t.rows.any row.sameKey then .error .duplicate else .ok (row, ⟨t.rows ++ [row]⟩)

/-- The resources of a scope whose columns have given lower-case forms. -/
def select (t : Table) (scope : Scope) (asked : List (Column × String)) : List Object :=
  ((t.inScope scope).filter (Row.fits asked)).map (·.resource)

/-- The texts that are asked for, if only texts are. -/
def texts? {κ : Type} (predicate : List (κ × Json)) : Option (List (κ × String)) :=
  predicate.mapM fun (key, value) => value.text?.map fun s => (key, s)

/-- The lower-case form that a column is asked for, unless it is too long. -/
def form (column : Column) (s : String) : Except TooLong (Column × String) := do
  TooLong.check (.folded column) (Text.lower s)
  pure (column, Text.lower s)

/-- The same for a column given by name. -/
def formNamed (name s : String) : Except FindFault (Column × String) :=
  match Column.ofName? name with
  | none => .error (.unknownColumn name)
  | some column => (form column s).mapError .tooLong

/-- The resources of a scope whose columns equal given scalars: none, unless the scalars are
texts. -/
def fetch (t : Table) (scope : Scope) (predicate : List (Column × Scalar)) :
    Except TooLong (List Object) := do
  match texts? (predicate.map fun (column, value) => (column, .scalar value)) with
  | none => pure []
  | some texts =>
    TooLong.check .endpoint scope.endpoint
    let asked ← texts.mapM fun (column, s) => form column s
    pure (t.select scope asked)

/-- The same for columns given by name and any values.  What is no text is noticed before a name
that no column has. -/
def find (t : Table) (scope : Scope) (predicate : List (String × Json)) :
    Except FindFault (List Object) := do
  match texts? predicate with
  | none => pure []
  | some texts =>
    (TooLong.check .endpoint scope.endpoint).mapError .tooLong
    let asked ← texts.mapM fun (name, s) => formNamed name s
    pure (t.select scope asked)

/-- An indexed store refuses some resources, and the receipt is the row. -/
instance : Store Table where
  Receipt := Row
  empty := ⟨[]⟩
  add := add
  fetch := fetch
  find := find

end Table
end ScimQuery
