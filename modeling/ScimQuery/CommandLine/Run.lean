import ScimQuery.CommandLine.ResourceFile
import ScimQuery.CommandLine.Words
import ScimQuery.Json.Writer
import ScimQuery.Plan
import ScimQuery.Settings
import ScimQuery.Text.ControlSequence
import ScimQuery.Text.Ruled
import ScimQuery.Text.Screen

/-! # Running a command line

What the words of a command line lead to.  A run reads at most one file; `start` says which, and
goes on with what is found there. -/

namespace ScimQuery
namespace CommandLine

/-! ### Outcomes -/

/-- How a command is used, or the program without a command. -/
def usage : Option Command → String
  | none => "Usage: " ++ programName ++ " [OPTIONS] COMMAND [ARGS]...\n"
  | some c =>
    Text.join " " (["Usage:", programName, c.name, "[OPTIONS]"] ++ c.arguments.map Argument.name)
      ++ "\n"

/-- Why a command line has no output of its own. -/
inductive Halt where
  /-- The filter is refused. -/
  | refusal (fault : Filter.Fault)
  /-- The words are wrong. -/
  | misuse (misuse : Misuse)
  /-- The command breaks off, with something printed before. -/
  | failure (failure : Failure) (before : String)
  /-- There are no words. -/
  | nothing
  deriving DecidableEq, Repr

/-- What a command line leads to: an output, or a halt. -/
abbrev Outcome := Except Halt String

namespace Outcome

/-- The status that the program ends with. -/
def status : Outcome → Nat
  | .ok _ => 0
  | .error (.refusal _) => 1
  | .error (.failure ..) => 1
  | .error (.misuse _) => 2
  | .error .nothing => 2

/-- What the program prints. -/
def output : Outcome → String
  | .ok text => text
  | .error (.refusal fault) => Text.onScreen ("✗ " ++ fault.reason) ++ "\n"
  | .error (.failure _ before) => before
  | .error _ => ""

/-- What the program says beside its output. -/
def complaint : Outcome → String
  | .ok _ => ""
  | .error (.refusal _) => ""
  | .error (.misuse m) => Text.withoutSequences ("Error: " ++ m.message ++ "\n")
  | .error (.failure f _) => f.message ++ "\n"
  | .error .nothing => usage none

end Outcome

/-! ### Commands -/

/-- Stops where there is a failure. -/
def orFail {α : Type} (r : Except Failure α) : Except Halt α := r.mapError fun f => .failure f ""

/-- A value with spelled texts as it is printed, after something else. -/
def printed (before : String) (v : Json) : Outcome :=
  match Text.ofSpelled? v.pretty with
  | some text => .ok (before ++ text ++ "\n")
  | none => .error (.failure .unprintable before)

/-- How a refused filter ends a command: only faults of syntax are shown. -/
def haltOf (r : Filter.Refusal) : Halt :=
  if r.fault.isSyntax then .refusal r.fault else .failure .badNumber ""

/-- The filter of a text. -/
def readFilter (text : String) : Except Halt Filter := (Filter.parse text).mapError haltOf

/-- Shows the filter that a text writes. -/
def parse (filter : String) : Outcome := do
  let f ← readFilter filter
  pure (f.toJson.pretty ++ "\n")

/-- The resources in the text of a file. -/
def readFile (text : String) : Except Halt Json := orFail (ResourceFile.read text)

/-- Shows the resources in the text of a file that satisfy a filter. -/
def eval (filter text : String) : Outcome := do
  let f ← readFilter filter
  let rs ← orFail (ResourceFile.items (← readFile text))
  let found := rs.filter (f.mapTexts Text.spelled).holds
  printed
    (toString found.length ++ " of " ++ toString rs.length ++ " resources match\n") (.array found)

/-- Shows what a filter on resources of a type asks of a store. -/
def pushdown (type : ResourceType) (filter : String) : Outcome := do
  let plan ← (Plan.ofText type.columns (some filter)).mapError haltOf
  if plan.fetchesAll then pure "In-memory fetch all rows and evaluate the filter\n"
  else
    let asked := plan.predicate.map fun (column, value) => (column.name, Json.scalar value)
    pure ("Pushed down " ++ (Json.object asked).line ++ "\n")

/-- Shows the resources in the text of a file, projected. -/
def project (p : Projection) (text : String) : Outcome := do
  let rs ← readFile text
  let projected ← orFail (ResourceFile.project p rs)
  printed "" projected

/-- The settings as a table. -/
def settingsTable (s : Settings) : Text.RuledTable where
  title := programName ++ " Configuration"
  head := ["Setting", "Value"]
  rows := [
    ["Environment", s.environment.name],
    ["Debug Mode", if s.debug then "On" else "Off"],
    ["Log Level", s.logLevel.name],
    ["Database URL", s.databaseUrl],
    ["Default Page Size", toString s.defaultPageSize],
    ["Max Page Size", toString s.maxPageSize]]

/-- Shows the settings, after a remark. -/
def config (remark : String) : Outcome :=
  .ok (remark ++ String.join ((settingsTable .default).lines.map (· ++ "\n")))

/-! ### Runs -/

/-- What stands at a place where a file is looked for. -/
inductive Location where
  | missing
  | directory
  | file (text : String)
  deriving DecidableEq, Repr

/-- A run that is over, or one that needs a file to go on. -/
inductive Run where
  | finished (outcome : Outcome)
  | reading (file : String) (next : Location → Outcome)

/-- A run that is over since the words are wrong. -/
def Run.misused (m : Misuse) : Run := .finished (.error (.misuse m))

/-- The first of the words that are left, for an argument. -/
def argument (a : Argument) : List String → Except Misuse (String × List String)
  | [] => .error (.missingArgument a)
  | word :: rest => .ok (word, rest)

/-- An outcome, unless there are words beyond the arguments. -/
def unlessExtra (extra : List String) (outcome : Outcome) : Outcome :=
  if extra.isEmpty then outcome else .error (.misuse (.extraArguments extra))

/-- A run on the text of a file. -/
def onFile (file : String) (extra : List String) (use : String → Outcome) : Run :=
  if file.contains '\x00' then .finished (.error (.failure .badFileName ""))
  else .reading file fun found =>
    match found with
    | .missing => .error (.misuse (.noSuchFile .resourceFile file))
    | .directory => .error (.misuse (.isDirectory .resourceFile file))
    | .file text => unlessExtra extra (use text)

/-- The file with the environment of the program. -/
def environmentFile : String := ".env"

/-- The remark on where the environment of the program is. -/
def environmentRemark : Location → String
  | .missing => "⚠  No .env file found at: " ++ environmentFile ++ "\n"
  | _ => "✓ Environment file: " ++ environmentFile ++ "\n"

/-- A run that shows the settings, perhaps after a remark on the environment. -/
def showSettings (w : Words) : Run :=
  if w.arguments.isEmpty && (w.value? .showEnvironment).isSome then
    .reading environmentFile fun found => config (environmentRemark found)
  else .finished (unlessExtra w.arguments (config ""))

/-- The type of resources that an option names: users, unless it is given. -/
def resourceType (w : Words) : Except Misuse ResourceType :=
  match w.value? .resourceType with
  | none => .ok .user
  | some name =>
    match ResourceType.ofName? name with
    | some type => .ok type
    | none =>
      .error (.notAChoice .resourceType name [ResourceType.user.name, ResourceType.group.name])

/-- The spelled attribute names that an option gives. -/
def attributeNames (w : Words) (s : Switch) : Option AttributeNames :=
  (w.value? s).map fun names => .text (Text.spelled names)

/-- The projection that options name. -/
def projection (w : Words) : Projection :=
  ⟨attributeNames w .attributes, attributeNames w .excludedAttributes⟩

/-- The run of a command with its options and arguments.  Options are checked before arguments, and
these before the words beyond them. -/
def Run.ofCommand (c : Command) (w : Words) : Except Misuse Run :=
  match c with
  | .parse => do
    let (filter, extra) ← argument .filter w.arguments
    pure (.finished (unlessExtra extra (parse filter)))
  | .eval => do
    let (filter, rest) ← argument .filter w.arguments
    let (file, extra) ← argument .resourceFile rest
    pure (onFile file extra (eval filter))
  | .pushdown => do
    let type ← resourceType w
    let (filter, extra) ← argument .filter w.arguments
    pure (.finished (unlessExtra extra (pushdown type filter)))
  | .project => do
    let (file, extra) ← argument .resourceFile w.arguments
    pure (onFile file extra (project (projection w)))
  | .config => pure (showSettings w)

/-- What the first option asks for that is answered whatever else is given. -/
def answered? (c : Option Command) (w : Words) : Option Outcome :=
  w.switches.findSome? fun (s, _) =>
    match s with
    | .version => some (.ok (programName ++ ", version " ++ version ++ "\n"))
    | .help => some (.ok (usage c))
    | _ => none

/-- Reads words with the options of a command, or of the program, and goes on with what they give
if that is to be answered otherwise. -/
def reading (c : Option Command) (words : List String) (next : Words → Run) : Run :=
  let known := (c.map Command.switches).getD Switch.general
  match Words.read known c.isSome words with
  | .error m => .misused m
  | .ok w =>
    match answered? c w with
    | some outcome => .finished outcome
    | none => next w

/-- The run of a command with the words after it. -/
def startCommand (c : Command) (words : List String) : Run :=
  reading (some c) words fun w =>
    match Run.ofCommand c w with
    | .ok run => run
    | .error m => .misused m

/-- The run of a command line.  A word that names no command is looked at once more as an option:
it may stand after the two dashes that end the options. -/
def start (words : List String) : Run :=
  if words.isEmpty then .finished (.error .nothing)
  else reading none words fun w =>
    match w.arguments with
    | [] => .misused .missingCommand
    | name :: rest =>
      match Command.ofName? name with
      | some c => startCommand c rest
      | none =>
        reading none (name :: rest) fun _ =>
          .misused (.unknownCommand name (Text.closest (Command.all.map Command.name) name.toList))

end CommandLine
end ScimQuery
