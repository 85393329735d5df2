import ScimQuery.Filter.Fault
import ScimQuery.Json
import ScimQuery.PatchPath
import ScimQuery.Schema

/-! # Error responses

The status and body of an error.  An error without a detail has the reason phrase of its status
for one. -/

namespace ScimQuery

/-- An error as it is answered. -/
structure ErrorResponse where
  status : Int
  detail : String
  scimType : Option String
  deriving DecidableEq, Repr

namespace ErrorResponse

/-- The reason phrases of the statuses. -/
def reasonPhrases : List (Int × String) := [
  (100, "Continue"), (101, "Switching Protocols"), (102, "Processing"), (103, "Early Hints"),
  (200, "OK"), (201, "Created"), (202, "Accepted"), (203, "Non-Authoritative Information"),
  (204, "No Content"), (205, "Reset Content"), (206, "Partial Content"), (207, "Multi-Status"),
  (208, "Already Reported"), (226, "IM Used"), (300, "Multiple Choices"),
  (301, "Moved Permanently"), (302, "Found"), (303, "See Other"), (304, "Not Modified"),
  (305, "Use Proxy"), (307, "Temporary Redirect"), (308, "Permanent Redirect"),
  (400, "Bad Request"), (401, "Unauthorized"), (402, "Payment Required"), (403, "Forbidden"),
  (404, "Not Found"), (405, "Method Not Allowed"), (406, "Not Acceptable"),
  (407, "Proxy Authentication Required"), (408, "Request Timeout"), (409, "Conflict"),
  (410, "Gone"), (411, "Length Required"), (412, "Precondition Failed"),
  (413, "Request Entity Too Large"), (414, "Request-URI Too Long"),
  (415, "Unsupported Media Type"), (416, "Requested Range Not Satisfiable"),
  (417, "Expectation Failed"), (418, "I'm a Teapot"), (421, "Misdirected Request"),
  (422, "Unprocessable Entity"), (423, "Locked"), (424, "Failed Dependency"), (425, "Too Early"),
  (426, "Upgrade Required"), (428, "Precondition Required"), (429, "Too Many Requests"),
  (431, "Request Header Fields Too Large"), (451, "Unavailable For Legal Reasons"),
  (500, "Internal Server Error"), (501, "Not Implemented"), (502, "Bad Gateway"),
  (503, "Service Unavailable"), (504, "Gateway Timeout"), (505, "HTTP Version Not Supported"),
  (506, "Variant Also Negotiates"), (507, "Insufficient Storage"), (508, "Loop Detected"),
  (510, "Not Extended"), (511, "Network Authentication Required")]

/-- The reason phrase of a status, empty for a status that has none. -/
def reasonPhrase (status : Int) : String := (reasonPhrases.lookup status).getD ""

/-- An error with a status, and a detail and a type that it may have. -/
def ofStatus (status : Int) (detail scimType : Option String) : ErrorResponse :=
  ⟨status, detail.getD (reasonPhrase status), scimType⟩

/-- The error for a filter that is refused for a reason given in words. -/
def invalidFilter (text reason : String) : ErrorResponse :=
  ⟨400, Filter.refusalMessage text reason, some "invalidFilter"⟩

/-- The error for a path. -/
def invalidPath (detail : String) : ErrorResponse := ⟨400, detail, some "invalidPath"⟩

/-- The error for a value. -/
def invalidValue (detail : String) : ErrorResponse := ⟨400, detail, some "invalidValue"⟩

/-- The body of an error, without the type that an error does not have. -/
def body (e : ErrorResponse) : Json :=
  .object ([("schemas", .array [.text Schema.error]), ("detail", .text e.detail),
      ("status", .integer e.status)]
    ++ match e.scimType with
      | some t => [("scimType", .text t)]
      | none => [])

end ErrorResponse
end ScimQuery
