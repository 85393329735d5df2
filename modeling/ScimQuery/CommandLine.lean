/-! # The command line

The commands, the arguments that they need, and their options. -/

namespace ScimQuery
namespace CommandLine

/-- The name of the program. -/
def programName : String := "scimfilter"

/-- The version of the program. -/
def version : String := "0.1.0"

/-- An option. -/
inductive Switch where
  | version
  | help
  | resourceType
  | attributes
  | excludedAttributes
  | showEnvironment
  deriving DecidableEq, Repr, Inhabited

namespace Switch

/-- The long form of an option, after two dashes. -/
def long : Switch → String
  | .version => "--version"
  | .help => "--help"
  | .resourceType => "--resource-type"
  | .attributes => "--attributes"
  | .excludedAttributes => "--excluded-attributes"
  | .showEnvironment => "--show-env"

/-- The letter of the short form, which exactly the options with a value have. -/
def letter? : Switch → Option Char
  | .resourceType => some 't'
  | .attributes => some 'a'
  | .excludedAttributes => some 'x'
  | _ => none

/-- Whether an option has a value. -/
def takesValue (s : Switch) : Bool := s.letter?.isSome

/-- The short form of an option by its letter. -/
def short (letter : Char) : String := String.ofList ['-', letter]

/-- The options that stand before the command. -/
def general : List Switch := [.version, .help]

end Switch

/-- An argument that a command needs. -/
inductive Argument where
  | filter
  | resourceFile
  deriving DecidableEq, Repr, Inhabited

namespace Argument

/-- The name of an argument in messages. -/
def name : Argument → String
  | .filter => "FILTER_STRING"
  | .resourceFile => "RESOURCE_FILE"

end Argument

/-- A command. -/
inductive Command where
  /-- Shows the filter that a text writes. -/
  | parse
  /-- Shows the resources of a file that satisfy a filter. -/
  | eval
  /-- Shows what a filter asks of a store. -/
  | pushdown
  /-- Shows the resources of a file, projected. -/
  | project
  /-- Shows the settings. -/
  | config
  deriving DecidableEq, Repr, Inhabited

namespace Command

/-- Every command. -/
def all : List Command := [.parse, .eval, .pushdown, .project, .config]

/-- The name of a command. -/
def name : Command → String
  | .parse => "parse"
  | .eval => "eval"
  | .pushdown => "pushdown"
  | .project => "project"
  | .config => "config"

/-- The command of a given name. -/
def ofName? (s : String) : Option Command := all.find? (·.name == s)

/-- The options of a command. -/
def switches : Command → List Switch
  | .pushdown => [.resourceType, .help]
  | .project => [.attributes, .excludedAttributes, .help]
  | .config => [.showEnvironment, .help]
  | _ => [.help]

/-- The arguments of a command, in order. -/
def arguments : Command → List Argument
  | .parse => [.filter]
  | .eval => [.filter, .resourceFile]
  | .pushdown => [.filter]
  | .project => [.resourceFile]
  | .config => []

end Command
end CommandLine
end ScimQuery
