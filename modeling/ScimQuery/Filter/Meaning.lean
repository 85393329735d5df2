import ScimQuery.Attribute.Path
import ScimQuery.Filter

/-! # What a filter means

Whether a resource satisfies a filter.  Texts are compared without regard to case, numbers by
their exact values, and a comparison holds of an array when it holds of one of its items.  Nothing
of an unknown form ever holds. -/

namespace ScimQuery

namespace Text

/-- How the lower-case form of one text stands to that of another, character by character. -/
def order (s t : String) : Ordering :=
  let s := (lower s).toList
  let t := (lower t).toList
  if s < t then .lt else if s = t then .eq else .gt

end Text

namespace Json

/-- Whether a value is present: neither `null` nor an empty text or array. -/
def isPresent : Json → Bool
  | .scalar .null => false
  | .scalar (.text s) => s != ""
  | .array items => !items.isEmpty
  | _ => true

/-- Whether a value equals a scalar: of the same kind and, of that kind, the same. -/
def equals : Json → Scalar → Bool
  | .scalar .null, .null => true
  | .scalar (.bool a), .bool b => a == b
  | .scalar (.number x), .number y => x.order? y == some .eq
  | .scalar (.text s), .text t => Text.sameText s t
  | _, _ => false

/-- Whether a value differs from a scalar: `null` from every scalar but `null`, any other value from
what it does not equal. -/
def differs : Json → Scalar → Bool
  | .scalar .null, expected => expected != .null
  | actual, expected => !actual.equals expected

/-- How a value stands to a scalar, when both are texts or both numbers. -/
def order? : Json → Scalar → Option Ordering
  | .scalar (.number x), .number y => x.order? y
  | .scalar (.text s), .text t => some (Text.order s t)
  | _, _ => none

/-- A test on the lower-case forms of a value and a scalar, when both are texts. -/
def testText (test : List Char → List Char → Bool) : Json → Scalar → Bool
  | .scalar (.text s), .text t => test (Text.lower s).toList (Text.lower t).toList
  | _, _ => false

end Json

namespace Operator

/-- Whether a test holds of a value that is taken as a whole. -/
def test (op : Operator) (actual : Json) (expected : Scalar) : Bool :=
  match op with
  | .present => actual.isPresent
  | .equal => actual.equals expected
  | .notEqual => actual.differs expected
  | .contains => Json.testText (fun s t => Text.occursIn t s) actual expected
  | .startsWith => Json.testText (fun s t => t.isPrefixOf s) actual expected
  | .endsWith => Json.testText (fun s t => t.isSuffixOf s) actual expected
  | .greater => actual.order? expected == some .gt
  | .greaterOrEqual =>
    actual.order? expected == some .gt || actual.order? expected == some .eq
  | .less => actual.order? expected == some .lt
  | .lessOrEqual => actual.order? expected == some .lt || actual.order? expected == some .eq
  | .other _ => false

/-- Whether a test holds of the value at a path: of an array, whether it holds of an item. -/
def testAny (op : Operator) (actual : Json) (expected : Scalar) : Bool :=
  match actual with
  | .array items => items.any (op.test · expected)
  | v => op.test v expected

end Operator

namespace Filter

/-- Whether a resource satisfies a filter. -/
def holds : Filter → Json → Bool
  | .compare path op value, r => op.testAny (Path.resolve path r) value
  | .logical .and left right, r => left.holds r && right.holds r
  | .logical .or left right, r => left.holds r || right.holds r
  | .not inner, r => !inner.holds r
  | .valuePath path inner, r =>
    match Path.resolve path r with
    | .array items => items.any fun item => item.members?.isSome && inner.holds item
    | _ => false
  | .unrecognized, _ => false

/-- The objects among values that satisfy a filter. -/
def matching (f : Filter) (items : List Json) : List Json :=
  items.filter fun item => item.members?.isSome && f.holds item

end Filter
end ScimQuery
