import ScimQuery.Text.Case

/-! # Schema URIs and resource types

The schema URIs that messages carry and that attribute paths may start with, and the two types of
resources. -/

namespace ScimQuery

namespace Schema

/-- The core schema of users. -/
def user : String := "urn:ietf:params:scim:schemas:core:2.0:User"

/-- The core schema of groups. -/
def group : String := "urn:ietf:params:scim:schemas:core:2.0:Group"

/-- The schema of the answer to a list request. -/
def listResponse : String := "urn:ietf:params:scim:api:messages:2.0:ListResponse"

/-- The schema of a list request. -/
def searchRequest : String := "urn:ietf:params:scim:api:messages:2.0:SearchRequest"

/-- The schema of an error body. -/
def error : String := "urn:ietf:params:scim:api:messages:2.0:Error"

/-- Whether a URI names a core schema, in any case.  The attributes of these schemas are members
of the resource itself. -/
def isCore (uri : String) : Bool := Text.sameText uri user || Text.sameText uri group

end Schema

/-- The types of resources. -/
inductive ResourceType where
  | user
  | group
  deriving DecidableEq, Repr, Inhabited

namespace ResourceType

/-- The name of a resource type. -/
def name : ResourceType → String
  | .user => "User"
  | .group => "Group"

/-- The resource type of a given name. -/
def ofName? : String → Option ResourceType
  | "User" => some .user
  | "Group" => some .group
  | _ => none

end ResourceType
end ScimQuery
