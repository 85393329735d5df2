import ScimQuery.Json.Reader
import ScimQuery.Json.Sameness
import ScimQuery.Json.Writer
import ScimQuery.Projection
import ScimQuery.Text.CodePoints

/-! # Files of resources

A file holds one resource, an array of resources or the answer to a list request.  What it holds
need not be resources: the items of a text are its code points, those of an object its keys, and
only objects have members that a projection can give.  A file may write texts with code points that
are no characters, so its texts are spelled (`Text.spell`). -/

namespace ScimQuery
namespace CommandLine

/-- Why a command breaks off. -/
inductive Failure where
  /-- The file holds no JSON value. -/
  | notJson
  /-- The items of a value without items are needed. -/
  | noItems
  /-- A member of a value without members is needed. -/
  | noMembers
  /-- A key that is no text is compared with a name. -/
  | keyNotText
  /-- A value that is no pair is to be a member. -/
  | notPair
  /-- The member to leave out is not there. -/
  | missingMember
  /-- No file can have the name. -/
  | badFileName
  /-- A text with a code point that is no character is to be printed. -/
  | unprintable
  /-- A number in a filter is not read. -/
  | badNumber
  deriving DecidableEq, Repr

namespace Failure

/-- The reason in words. -/
def message : Failure → String
  | .notJson => "The file holds no JSON value"
  | .noItems => "A value without items stands where items are needed"
  | .noMembers => "A value without members stands where members are needed"
  | .keyNotText => "A key is not a text"
  | .notPair => "A member is not a pair of a key and a value"
  | .missingMember => "A member to leave out is missing"
  | .badFileName => "No file can have this name"
  | .unprintable => "A text holds a code point that is no character"
  | .badNumber => "A number in the filter cannot be read"

end Failure

namespace ResourceFile

/-- The code points of a text, each as a text. -/
def codePoints (s : String) : List String := (Text.spellings s.toList).map String.ofList

/-- The items of a value that has any. -/
def items : Json → Except Failure (List Json)
  | .array items => .ok items
  | .object o => .ok ((Object.keys o).map Json.text)
  | .scalar (.text s) => .ok ((codePoints s).map Json.text)
  | .scalar _ => .error .noItems

/-- The resources in a value: those of the answer to a list request, or of a single resource. -/
def resources : Json → Json
  | .object o =>
    match Object.get? o "Resources" with
    | some v => v
    | none => .array [.object o]
  | v => v

/-- The resources in the text of a file. -/
def read (text : String) : Except Failure Json :=
  match Json.parseSpelled? (fun n => some (Text.spell n)) text with
  | some v => .ok (resources v)
  | none => .error .notJson

/-! ### Projections of values that are no objects -/

/-- Keys as an object, without values. -/
def ofKeys (keys : List String) : Object := keys.map fun key => (key, .null)

/-- What is kept of keys without values: nothing, unless a name addresses one of them. -/
def keepKeys (names keys : List String) : Except Failure Json :=
  if (Projection.addresses (ofKeys keys) (Projection.alwaysReturned ++ names)).isEmpty then
    .ok (.object [])
  else .error .noMembers

/-- The texts in front of the first item that is no text. -/
def leadingTexts : List Json → List String
  | .scalar (.text s) :: rest => s :: leadingTexts rest
  | _ => []

/-- What is kept of the items of an array.  Where one is no text, the first name comes to it unless
an item before it fits. -/
def keepItems (names : List String) (items : List Json) : Except Failure Json :=
  match items.mapM Json.text? with
  | some keys => keepKeys names keys
  | none =>
    if ((ofKeys (leadingTexts items)).key? "schemas").isSome then .error .noMembers
    else .error .keyNotText

/-- The key and the value that a pair gives: a pair of characters, of items or of keys. -/
def pair : Json → Except Failure (Scalar × Json)
  | .array [.scalar key, v] => .ok (key, v)
  | .array [_, _] => .error .noMembers
  | v => do
    match ← items v with
    | [.scalar key, value] => .ok (key, value)
    | _ => .error .notPair

/-- Gives a key a value: an equal key keeps its place, a new one comes last. -/
def putKey (members : List (Scalar × Json)) (key : Scalar) (value : Json) :
    List (Scalar × Json) :=
  match members with
  | [] => [(key, value)]
  | (k, v) :: rest => if k.same key then (k, value) :: rest else (k, v) :: putKey rest key value

/-- What a name addresses among the items of an array, taken for keys.  Where one is no text, the
name comes to it unless an item before it fits. -/
def itemAddress? (items : List Json) (name : String) :
    Except Failure (Option Projection.Address) :=
  match items.mapM Json.text? with
  | some keys => .ok (Projection.address? (ofKeys keys) name)
  | none =>
    match (ofKeys (leadingTexts items)).key? name with
    | some key => .ok (some ⟨key, none⟩)
    | none => .error .keyNotText

/-- Members without what is addressed of the member with a given key, which must be there. -/
def dropKey (as : List Projection.Address) (members : List (Scalar × Json)) (key : String) :
    Except Failure (List (Scalar × Json)) :=
  if !members.any (·.1 == .text key) then .error .missingMember
  else .ok (members.filterMap fun (k, v) =>
    match Projection.share? as key with
    | some share =>
      if k == .text key then (Projection.dropShare? share v).map fun v => (k, v) else some (k, v)
    | none => some (k, v))

/-- The text of a key. -/
def keyText : Scalar → String
  | .text s => s
  | key => Json.writeScalar true key

/-- What is left of the items of an array, taken for pairs. -/
def dropItems (names : List String) (items : List Json) : Except Failure Json := do
  let pairs ← items.mapM pair
  let found ← names.mapM (itemAddress? items)
  let as := (found.filterMap id).filter fun a => !Projection.isAlwaysReturned a.key
  let members := pairs.foldl (fun members (key, v) => putKey members key v) []
  let left ← (as.map (·.key)).eraseDups.foldlM (dropKey as) members
  pure (.object (left.foldl (fun o (key, v) => Object.put o (keyText key) v) []))

/-- The projection of a value, when the projection names an attribute. -/
def projectItem (p : Projection) (v : Json) : Except Failure Json :=
  let kept := AttributeNames.namesOf p.attributes
  let dropped := AttributeNames.namesOf p.excluded
  match v with
  | .object o => .ok (.object (p.apply o))
  | .array parts => if kept.isEmpty then dropItems dropped parts else keepItems kept parts
  | .scalar (.text s) =>
    if kept.isEmpty then (if s = "" then .ok (.object []) else .error .notPair)
    else keepKeys kept (codePoints s)
  | .scalar _ => .error .noMembers

/-- The projection of resources: they stay as they are if it names no attribute. -/
def project (p : Projection) (rs : Json) : Except Failure Json :=
  if p.isAll then .ok rs
  else do
    let projected ← (← items rs).mapM (projectItem p)
    pure (.array projected)

end ResourceFile
end CommandLine
end ScimQuery
