import ScimQuery.Schema

/-! # Indexed columns

The columns that a store keeps beside each resource, the attribute that each is a copy of, and the
attributes that filters on each type of resource may look up in a column. -/

namespace ScimQuery

/-- A column that holds a copy of an attribute. -/
inductive Column where
  | scimId
  | externalId
  | userName
  | displayName
  deriving DecidableEq, Repr, Inhabited

namespace Column

/-- Every column, in the order of the columns. -/
def all : List Column := [.scimId, .externalId, .userName, .displayName]

/-- The name of a column. -/
def name : Column → String
  | .scimId => "scim_id"
  | .externalId => "external_id"
  | .userName => "user_name"
  | .displayName => "display_name"

/-- The path of the attribute that a column is a copy of. -/
def source : Column → String
  | .scimId => "id"
  | .externalId => "externalId"
  | .userName => "userName"
  | .displayName => "displayName"

/-- The column of a given name. -/
def ofName? (s : String) : Option Column := all.find? (·.name == s)

end Column

/-- The attributes, in lower case, that filters on a type of resource may look up in a column. -/
def ResourceType.columns : ResourceType → List (String × Column)
  | .user => [("username", .userName), ("externalid", .externalId), ("id", .scimId)]
  | .group => [("externalid", .externalId), ("id", .scimId), ("displayname", .displayName)]

end ScimQuery
