import ScimQuery.Json
import ScimQuery.Number.IntegerText

/-! # Reading untyped fields

Fields arrive as JSON values and are read as texts, integers, truth values or lists.  A value that
cannot be read gives its problems, each with the place of the value that it is about.  Numbers and
truth values may also be written as texts. -/

namespace ScimQuery
namespace Field

/-! ### Problems -/

/-- What is wrong with a value. -/
inductive Problem where
  | notText
  | notList
  | notInteger
  /-- A text that writes no integer. -/
  | noNumeral
  /-- A number with a fraction where an integer is needed. -/
  | fraction
  /-- A double beyond the integers of 64 bits. -/
  | tooLarge
  | infinite
  | notTruth
  /-- A value that writes no truth value. -/
  | noTruth
  /-- A value that breaks a rule of its field. -/
  | rule (words : String)
  deriving DecidableEq, Repr

namespace Problem

/-- The name of a kind of problem. -/
def kind : Problem → String
  | .notText => "string_type"
  | .notList => "list_type"
  | .notInteger => "int_type"
  | .noNumeral => "int_parsing"
  | .fraction => "int_from_float"
  | .tooLarge => "int_parsing_size"
  | .infinite => "finite_number"
  | .notTruth => "bool_type"
  | .noTruth => "bool_parsing"
  | .rule _ => "value_error"

/-- A problem in words. -/
def message : Problem → String
  | .notText => "Input should be a valid string"
  | .notList => "Input should be a valid list"
  | .notInteger => "Input should be a valid integer"
  | .noNumeral => "Input should be a valid integer, unable to parse string as an integer"
  | .fraction => "Input should be a valid integer, got a number with a fractional part"
  | .tooLarge => "Unable to parse input string as an integer, exceeded maximum size"
  | .infinite => "Input should be a finite number"
  | .notTruth => "Input should be a valid boolean"
  | .noTruth => "Input should be a valid boolean, unable to interpret input"
  | .rule words => "Value error, " ++ words

end Problem

/-- A step on the way to a value. -/
inductive Step where
  | name (s : String)
  | index (n : Nat)
  deriving DecidableEq, Repr

/-- A value that cannot be read: the way to it, and what is wrong with it. -/
structure Invalid where
  place : List Step
  problem : Problem
  deriving DecidableEq, Repr

/-- What reading gives: a value, or what is wrong. -/
abbrev Reading (α : Type) := Except (List Invalid) α

/-- The problems of a reading. -/
def problems {α : Type} : Reading α → List Invalid
  | .ok _ => []
  | .error found => found

/-- A reading inside a larger value. -/
def within {α : Type} (step : Step) (r : Reading α) : Reading α :=
  r.mapError (·.map fun i => { i with place := step :: i.place })

/-- A reading that fails with one problem. -/
def fail {α : Type} (problem : Problem) : Reading α := .error [⟨[], problem⟩]

/-! ### Texts and lists -/

/-- A text. -/
def text : Json → Reading String
  | .scalar (.text s) => .ok s
  | _ => fail .notText

/-- The texts of a list whose first item has a given index, or the problems of all its items. -/
def textsFrom (index : Nat) : List Json → Reading (List String)
  | [] => .ok []
  | v :: rest =>
    let head := within (.index index) (text v)
    let tail := textsFrom (index + 1) rest
    match head, tail with
    | .ok s, .ok ss => .ok (s :: ss)
    | _, _ => .error (problems head ++ problems tail)

/-- A list of texts. -/
def texts : Json → Reading (List String)
  | .array items => textsFrom 0 items
  | _ => fail .notList

/-- What a value is read as, unless it is `null`. -/
def optional {α : Type} (read : Json → Reading α) : Json → Reading (Option α)
  | .scalar .null => .ok none
  | v => (read v).map some

/-! ### Integers -/

/-- The least positive integer that 64 bits with a sign do not hold. -/
def tooLargeFrom : Nat := 1 <<< 63

/-- Whether 64 bits with a sign hold an integer. -/
def fitsWord (n : Int) : Bool :=
  if n < 0 then decide (n.natAbs ≤ tooLargeFrom) else decide (n.natAbs < tooLargeFrom)

/-- The integer that a double is. -/
def wholeDouble (d : Double) : Reading Int :=
  if !d.isFinite then fail .infinite
  else if d.units % Double.unitsInOne ≠ 0 then fail .fraction
  else
    let n := d.units / Double.unitsInOne
    if tooLargeFrom ≤ n then fail .tooLarge
    else .ok (if d.isNegative then -(n : Int) else n)

/-- An integer. -/
def integer : Json → Reading Int
  | .scalar (.bool b) => .ok (if b then 1 else 0)
  | .scalar (.number (.integer n)) => .ok n
  | .scalar (.number (.double d)) => wholeDouble d
  | .scalar (.text s) =>
    match Number.integerOfText? s.toList with
    | some n => .ok n
    | none => fail .noNumeral
  | _ => fail .notInteger

/-! ### Truth values -/

/-- The words for truth values. -/
def truthWords : List (String × Bool) := [
  ("1", true), ("on", true), ("t", true), ("true", true), ("y", true), ("yes", true),
  ("0", false), ("off", false), ("f", false), ("false", false), ("n", false), ("no", false)]

/-- The truth value of zero or one. -/
def truthOfInt : Int → Reading Bool
  | 0 => .ok false
  | 1 => .ok true
  | _ => fail .noTruth

/-- A truth value. -/
def truth : Json → Reading Bool
  | .scalar (.bool b) => .ok b
  | .scalar (.number (.integer n)) => if fitsWord n then truthOfInt n else fail .notTruth
  | .scalar (.number (.double d)) =>
    match wholeDouble d with
    | .ok n => truthOfInt n
    | .error _ => fail .notTruth
  | .scalar (.text s) =>
    match truthWords.lookup (String.ofList (s.toList.map Char.toLower)) with
    | some b => .ok b
    | none => fail .noTruth
  | _ => fail .notTruth

/-! ### Fields by name -/

/-- The first of several names that a field is given under, and its value. -/
def given? (fields : Object) (names : List String) : Option (String × Json) :=
  names.findSome? fun name => (fields.get? name).map fun v => (name, v)

/-- A field under the first of its names that it is given under, or its default. -/
def read {α : Type} (fields : Object) (names : List String) (default : α)
    (reader : Json → Reading α) : Reading α :=
  match given? fields names with
  | some (name, v) => within (.name name) (reader v)
  | none => .ok default

end Field
end ScimQuery
