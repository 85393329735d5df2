import ScimQuery.CommandLine
import ScimQuery.Text.Pieces
import ScimQuery.Text.Quoted

/-! # Misused command lines

What can be wrong with the words of a command line, and the words for it. -/

namespace ScimQuery
namespace CommandLine

/-- What is wrong with the words of a command line. -/
inductive Misuse where
  /-- No option is written like this; some are written much like it. -/
  | unknownOption (written : String) (similar : List String)
  /-- The value of an option is missing. -/
  | missingValue (written : String)
  /-- A value is joined to an option that has none. -/
  | unwantedValue (written : String)
  /-- The value of an option is none of the choices. -/
  | notAChoice (switch : Switch) (value : String) (choices : List String)
  /-- An argument is missing. -/
  | missingArgument (argument : Argument)
  /-- There are words beyond the arguments. -/
  | extraArguments (words : List String)
  /-- An argument names a file that is not there. -/
  | noSuchFile (argument : Argument) (file : String)
  /-- An argument names a directory instead of a file. -/
  | isDirectory (argument : Argument) (file : String)
  /-- No command has this name; some have one much like it. -/
  | unknownCommand (name : String) (similar : List String)
  /-- There is no command. -/
  | missingCommand
  deriving DecidableEq, Repr

namespace Misuse

/-- What is said of the names that are much like an unknown one. -/
def suggestion : List String → String
  | [] => ""
  | [one] => " Did you mean " ++ Text.quote one ++ "?"
  | several => " (Did you mean one of: " ++ Text.join ", " (several.map Text.quote) ++ "?)"

/-- An option by all its forms, as a message shows it. -/
def shown (s : Switch) : String :=
  Text.join " / "
    ((s.long :: (s.letter?.map Switch.short).toList).map Text.quote)

/-- What is wrong, in words. -/
def message : Misuse → String
  | .unknownOption written similar =>
    "No such option " ++ Text.quote written ++ "." ++ suggestion similar
  | .missingValue written => "Option " ++ Text.quote written ++ " requires an argument."
  | .unwantedValue written => "Option " ++ Text.quote written ++ " does not take a value."
  | .notAChoice s value choices =>
    "Invalid value for " ++ shown s ++ ": " ++ Text.quote value ++ " is not one of "
      ++ Text.join ", " (choices.map Text.quote) ++ "."
  | .missingArgument a => "Missing argument '" ++ a.name ++ "'."
  | .extraArguments [word] => "Got unexpected extra argument (" ++ word ++ ")"
  | .extraArguments words => "Got unexpected extra arguments (" ++ Text.join " " words ++ ")"
  | .noSuchFile a file =>
    "Invalid value for '" ++ a.name ++ "': File " ++ Text.quote file ++ " does not exist."
  | .isDirectory a file =>
    "Invalid value for '" ++ a.name ++ "': File " ++ Text.quote file ++ " is a directory."
  | .unknownCommand name similar =>
    "No such command " ++ Text.quote name ++ "." ++ suggestion similar
  | .missingCommand => "Missing command."

end Misuse
end CommandLine
end ScimQuery
