import ScimQuery.Json

/-! # Equal JSON values

When two values are equal as a whole: numbers by their exact values, the truth values as zero and
one, texts character by character, arrays item by item, and objects without regard to the order of
their members. -/

namespace ScimQuery

namespace Scalar

/-- The number that a scalar counts as, if it does. -/
def number? : Scalar → Option Number
  | .bool b => some (.integer (if b then 1 else 0))
  | .number n => some n
  | _ => none

/-- Whether two scalars are equal. -/
def same (a b : Scalar) : Bool :=
  a = b || match a.number?, b.number? with
    | some x, some y => x.order? y == some .eq
    | _, _ => false

end Scalar

namespace Json

mutual

/-- Whether two values are equal. -/
def same : Json → Json → Bool
  | .scalar a, .scalar b => a.same b
  | .array a, .array b => sameItems a b
  | .object a, .object b => a.length == b.length && sameMembers a b
  | _, _ => false

/-- Whether two arrays have equal items. -/
def sameItems : List Json → List Json → Bool
  | [], [] => true
  | v :: rest, w :: others => same v w && sameItems rest others
  | _, _ => false

/-- Whether an object has an equal member for each of some members. -/
def sameMembers : List (String × Json) → Object → Bool
  | [], _ => true
  | (key, v) :: rest, o =>
    (match o.get? key with
      | some w => same v w
      | none => false) && sameMembers rest o

end

end Json
end ScimQuery
