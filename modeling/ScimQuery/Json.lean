import ScimQuery.Number

/-! # JSON values

Values of JSON whose objects keep the order of their members.  Scalars are a type of their own,
since a filter compares with scalars only. -/

namespace ScimQuery

/-- A JSON value without parts. -/
inductive Scalar where
  | null
  | bool (b : Bool)
  | number (n : Number)
  | text (s : String)
  deriving DecidableEq, Repr, Inhabited

/-- A JSON value. -/
inductive Json where
  | scalar (s : Scalar)
  | array (items : List Json)
  | object (members : List (String × Json))
  deriving Repr, Inhabited

/-- The members of a JSON object, in order. -/
abbrev Object := List (String × Json)

namespace Json

/-- The value that stands for nothing. -/
abbrev null : Json := .scalar .null

/-- A truth value. -/
abbrev bool (b : Bool) : Json := .scalar (.bool b)

/-- A number. -/
abbrev number (n : Number) : Json := .scalar (.number n)

/-- An integer. -/
abbrev integer (n : Int) : Json := .scalar (.number (.integer n))

/-- A text. -/
abbrev text (s : String) : Json := .scalar (.text s)

/-- The members of a value that is an object. -/
def members? : Json → Option Object
  | .object members => some members
  | _ => none

/-- The items of a value that is an array. -/
def items? : Json → Option (List Json)
  | .array items => some items
  | _ => none

/-- A value that is a text. -/
def text? : Json → Option String
  | .scalar (.text s) => some s
  | _ => none

/-- Whether a value is `null`. -/
def isNull : Json → Bool
  | .scalar .null => true
  | _ => false

/-- The value that may be missing, `null` where it is. -/
def ofOption : Option Json → Json
  | some v => v
  | none => null

end Json

namespace Object

/-- The keys of an object, in order. -/
def keys (o : Object) : List String := o.map (·.1)

/-- The value of the first member with a given key. -/
def get? (o : Object) (key : String) : Option Json := (o.find? (·.1 == key)).map (·.2)

/-- Gives a member a value: a member with that key keeps its place, a new one comes last. -/
def put (o : Object) (key : String) (value : Json) : Object :=
  match o with
  | [] => [(key, value)]
  | (k, v) :: rest => if k = key then (key, value) :: rest else (k, v) :: put rest key value

end Object
end ScimQuery
