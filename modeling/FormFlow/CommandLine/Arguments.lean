import FormFlow.Graph.Property
import FormFlow.Form.Ident

/-!
# The arguments of the command line

The first argument names a command; the others are the path of a form and options. An option
has a long name, and mostly a letter. Its value is the next argument, or follows `=`, or
follows the letter directly. Everything is given at most once, and behind `--` every argument
is a path.

Arguments are read in order (`readArguments`): each is classified by its form alone and then
put to what was given before it (`Given`), so that what is wrong with an argument is found
before a later one is looked at. What is missing is found at the end (`Given.command?`).
-/

set_option autoImplicit false

namespace FormFlow

namespace CommandLine

/-- How results are written. -/
inductive OutputFormat where
  | text
  | json
deriving DecidableEq, Repr, Inhabited

/-- What every command is given. -/
structure CommonOptions where
  /-- The path of the form. -/
  form : String
  /-- The path of the configuration. -/
  config : Option String
  format : OutputFormat
deriving DecidableEq, Repr, Inhabited

/-- A command. -/
inductive Command where
  /-- Wires a form and writes its dependencies. -/
  | wire (options : CommonOptions)
  /-- Wires a form and writes an order of evaluation. -/
  | order (options : CommonOptions)
  /-- Makes iterations of a collection and writes what they add. -/
  | iterate (options : CommonOptions) (collection : String) (count : Nat)
deriving DecidableEq, Repr, Inhabited

/-- What the arguments ask for. -/
inductive Request where
  | run (command : Command)
  | help
  | misuse
deriving DecidableEq, Repr, Inhabited

/-- The options there are. -/
inductive OptionName where
  | config
  | format
  | collection
  | count
deriving DecidableEq, Repr, Inhabited

namespace OptionName

/-- The option with a long name. -/
def ofLong? (name : String) : Option OptionName :=
  match name with
  | "config" => some .config
  | "format" => some .format
  | "collection" => some .collection
  | "count" => some .count
  | _ => none

/-- The option with a letter. -/
def ofLetter? (letter : Char) : Option OptionName :=
  match letter with
  | 'c' => some .config
  | 'f' => some .format
  | 'n' => some .count
  | _ => none

end OptionName

/-- The commands by name. -/
inductive CommandName where
  | wire
  | order
  | iterate
deriving DecidableEq, Repr, Inhabited

namespace CommandName

/-- The command with a name. -/
def ofText? (name : String) : Option CommandName :=
  match name with
  | "wire" => some .wire
  | "order" => some .order
  | "iterate" => some .iterate
  | _ => none

/-- Whether a command has an option. -/
def takes : CommandName → OptionName → Bool
  | _, .config => true
  | _, .format => true
  | .iterate, .collection => true
  | .iterate, .count => true
  | _, _ => false

end CommandName

/-- One argument, by its form. -/
inductive Argument where
  /-- An option whose value is the next argument. -/
  | opening (name : OptionName)
  /-- An option with its value. -/
  | complete (name : OptionName) (value : String)
  | path (text : String)
  /-- The sign that everything behind it is a path. -/
  | onlyPaths
  | help
  | unknown
deriving DecidableEq, Repr, Inhabited

/-- Splits a text at its first equals sign. -/
def cutAtEquals : List Char → List Char × Option (List Char)
  | [] => ([], none)
  | c :: rest =>
    if c = '=' then ([], some rest)
    else
      let (front, value) := cutAtEquals rest
      (c :: front, value)

/-- An argument that starts with two hyphens. -/
def ofLong (text : List Char) : Argument :=
  let (name, value) := cutAtEquals text
  match OptionName.ofLong? (String.ofList name), value with
  | some option, some given => .complete option (String.ofList given)
  | some option, none => .opening option
  | none, none => if String.ofList name = "help" then .help else .unknown
  | none, some _ => .unknown

/-- An argument that starts with one hyphen and a letter. -/
def ofLetter (letter : Char) (rest : List Char) : Argument :=
  match OptionName.ofLetter? letter, rest with
  | some option, [] => .opening option
  | some option, '=' :: given => .complete option (String.ofList given)
  | some option, given => .complete option (String.ofList given)
  | none, _ => if letter = 'h' then .help else .unknown

/-- The form of an argument. A single hyphen is a path. -/
def classify (text : String) : Argument :=
  match text.toList with
  | ['-', '-'] => .onlyPaths
  | '-' :: '-' :: rest => ofLong rest
  | '-' :: letter :: rest => ofLetter letter rest
  | _ => .path text

/-- What was given so far. -/
structure Given where
  form : Option String
  config : Option String
  format : Option OutputFormat
  collection : Option String
  count : Option Nat
deriving DecidableEq, Repr, Inhabited

/-- A path, which is not empty. -/
def path? (text : String) : Option String := if text.isEmpty then none else some text

/-- The format with a name. -/
def OutputFormat.ofText? (name : String) : Option OutputFormat :=
  match name with
  | "text" => some .text
  | "json" => some .json
  | _ => none

/-- A number of iterations. -/
def count? (text : String) : Option Nat := Property.parseIndex? indexBound text.toList

/-- Gives what was not given before; the value has to be usable. -/
def supply {α : Type} : (present value : Option α) → Except Request (Option α)
  | none, some value => .ok (some value)
  | _, _ => .error .misuse

namespace Given

/-- Before the first argument nothing is given. -/
def nothing : Given := ⟨none, none, none, none, none⟩

/-- Gives the form. -/
def addPath (given : Given) (text : String) : Except Request Given := do
  return { given with form := ← supply given.form (path? text) }

/-- Gives an option, which the command has to have. -/
def addOption (command : CommandName) (given : Given) (name : OptionName) (value : String) :
    Except Request Given :=
  if command.takes name then
    match name with
    | .config => do return { given with config := ← supply given.config (path? value) }
    | .format => do
      return { given with format := ← supply given.format (OutputFormat.ofText? value) }
    | .collection => do return { given with collection := ← supply given.collection (some value) }
    | .count => do return { given with count := ← supply given.count (count? value) }
  else .error .misuse

/-- The options that every command has. Results are written as text if no format is given. -/
def common? (given : Given) : Option CommonOptions :=
  given.form.map fun form => ⟨form, given.config, given.format.getD .text⟩

/-- The command, if all that it needs is given. One iteration is made if no number is
given. -/
def command? (given : Given) : CommandName → Option Command
  | .wire => given.common?.map .wire
  | .order => given.common?.map .order
  | .iterate => do
    let options ← given.common?
    let collection ← given.collection
    return .iterate options collection (given.count.getD 1)

end Given

/-- Reads the arguments of a command in order. -/
def readArguments (command : CommandName) : List String → Given → Except Request Given
  | [], given => .ok given
  | text :: rest, given =>
    match classify text with
    | .path path => do readArguments command rest (← given.addPath path)
    | .onlyPaths => rest.foldlM Given.addPath given
    | .complete name value => do readArguments command rest (← given.addOption command name value)
    | .opening name =>
      match rest with
      | [] => .error .misuse
      | value :: others =>
        match classify value with
        | .path value => do readArguments command others (← given.addOption command name value)
        | _ => .error .misuse
    | .help => .error .help
    | .unknown => .error .misuse

/-- The request for a command with its arguments. -/
def commandRequest (command : CommandName) (arguments : List String) : Request :=
  match readArguments command arguments .nothing with
  | .error other => other
  | .ok given =>
    match given.command? command with
    | some found => .run found
    | none => .misuse

/-- The request for help, on everything or on a command, which may be `help` itself. -/
def helpRequest : List String → Request
  | [] => .help
  | [topic] => if topic = "help" ∨ (CommandName.ofText? topic).isSome then .help else .misuse
  | _ => .misuse

/-- What a list of arguments asks for. -/
def Request.ofArguments : List String → Request
  | [] => .misuse
  | name :: rest =>
    match classify name with
    | .help => .help
    | .path "help" => helpRequest rest
    | .path text =>
      match CommandName.ofText? text with
      | some command => commandRequest command rest
      | none => .misuse
    | _ => .misuse

/-- How the commands are used. -/
def usage : String :=
  "usage: wire FORM | order FORM | iterate FORM --collection CODE [-n COUNT]\n" ++
    "options: [-c CONFIG] [-f text|json]\n"

end CommandLine

end FormFlow
