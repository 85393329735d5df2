import ScimQuery.CommandLine.Misuse
import ScimQuery.Text.Similarity

/-! # The words of a command line

Words are read from the front.  A word of more than one character that starts with a dash gives an
option; its value is joined to it, after an equals sign in the long form, or else is the next word.
Two dashes alone end the options. -/

namespace ScimQuery
namespace CommandLine

/-- What words give: options with their values, empty for those that have none, and arguments. -/
structure Words where
  switches : List (Switch × String)
  arguments : List String
  deriving DecidableEq, Repr

/-- An option as one word gives it: how the word writes it, and the value that it joins to it. -/
structure GivenSwitch where
  switch : Switch
  written : String
  joined : Option String
  deriving DecidableEq, Repr

namespace Words

/-- Whether a word gives an option. -/
def givesSwitch (word : List Char) : Bool := word.head? == some '-' && word.length > 1

/-- The name and the value of a word in long form. -/
def cutValue (word : List Char) : List Char × Option String :=
  match Text.cutFirst '=' word with
  | some (name, value) => (name, some (String.ofList value))
  | none => (word, none)

/-- The option of a word in short form: a dash, a letter and perhaps a value. -/
def readShort (known : List Switch) (letter : Char) (value : List Char) :
    Except Misuse GivenSwitch :=
  match known.find? (·.letter? == some letter) with
  | some s =>
    .ok ⟨s, Switch.short letter, if value.isEmpty then none else some (String.ofList value)⟩
  | none => .error (.unknownOption (Switch.short letter) [])

/-- The option that a word gives. -/
def readSwitch (known : List Switch) (word : List Char) : Except Misuse GivenSwitch :=
  let (name, value) := cutValue word
  match known.find? (·.long.toList == name) with
  | some s =>
    if s.takesValue || value.isNone then .ok ⟨s, s.long, value⟩
    else .error (.unwantedValue s.long)
  | none =>
    match word with
    | '-' :: '-' :: _ =>
      .error (.unknownOption (String.ofList name) (Text.closest (known.map Switch.long) name))
    | _ :: letter :: rest => readShort known letter rest
    | _ => .error (.unknownOption (String.ofList name) [])

/-- Words after an option with its value. -/
def withSwitch (s : Switch) (value : String) (w : Words) : Words :=
  { w with switches := (s, value) :: w.switches }

/-- Words after an argument. -/
def withArgument (word : String) (w : Words) : Words :=
  { w with arguments := word :: w.arguments }

/-- What words give, when some options are known.  Unless options and arguments may be mixed, the
first argument ends the options. -/
def read (known : List Switch) (mixed : Bool) : List String → Except Misuse Words
  | [] => .ok ⟨[], []⟩
  | word :: rest =>
    if word = "--" then .ok ⟨[], rest⟩
    else if !givesSwitch word.toList then
      if mixed then (read known mixed rest).map (withArgument word) else .ok ⟨[], word :: rest⟩
    else
      match readSwitch known word.toList with
      | .error misuse => .error misuse
      | .ok given =>
        if given.switch.takesValue && given.joined.isNone then
          match rest with
          | [] => .error (.missingValue given.written)
          | value :: rest => (read known mixed rest).map (withSwitch given.switch value)
        else (read known mixed rest).map (withSwitch given.switch (given.joined.getD ""))

/-- The value of an option, the last of several. -/
def value? (w : Words) (s : Switch) : Option String := w.switches.reverse.lookup s

end Words
end CommandLine
end ScimQuery
