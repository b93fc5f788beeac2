import FormFlow.CommandLine.Arguments
import FormFlow.CommandLine.FileTree
import FormFlow.CommandLine.Output
import FormFlow.Registry.Basic
import FormFlow.Serial.Config

/-!
# Running a command

A command sees the world through an `Environment`: the contents of files, a policy that
overrides the configuration, and a name for the request. It ends with an `Execution`: an exit
code, what is written, and a message if it fails. The configuration is read before the form.

The exit code is 1 if wiring or evaluation fails, 2 if the arguments cannot be used, and 3 if
a form or a configuration cannot be read.
-/

set_option autoImplicit false

namespace FormFlow

namespace CommandLine

/-- What a command sees of the world. -/
structure Environment where
  /-- The content of a file, or why it cannot be read. -/
  readFile : String → Except FileFault String
  /-- The name of a policy for malformed references. -/
  policy : Option String
  /-- The name of the request. -/
  requestName : String

/-- How a command ends. -/
structure Execution where
  exitCode : Nat
  output : String
  message : Option String
deriving DecidableEq, Repr, Inhabited

/-- Why a command fails. -/
structure Failure where
  exitCode : Nat
  message : String
deriving DecidableEq, Repr, Inhabited

namespace Failure

/-- Something cannot be read. -/
def ofReading (message : String) : Failure := ⟨3, message⟩

/-- Wiring fails. -/
def ofWiring : WiringError → Failure
  | .configFile path reason => ⟨3, (WiringError.configFile path reason).message⟩
  | error => ⟨1, error.message⟩

/-- A request or a registration fails. -/
def ofRequest : RequestError → Failure
  | .wiring error => ofWiring error
  | error => ⟨1, error.message⟩

/-- A node tree does not hold together. -/
def ofStructure (error : StructureError) : Failure := ⟨1, error.message⟩

end Failure

/-- The configuration of a file, or the default one. -/
def fileConfig (env : Environment) : Option String → Except WiringError WiringConfig
  | none => .ok .default
  | some path =>
    match env.readFile path with
    | .ok text => WiringConfig.ofText text
    | .error fault => .error (.configFile path fault.message)

/-- The configuration, with its policy overridden. -/
def loadConfig (env : Environment) (path : Option String) :
    Except WiringError WiringConfig := do
  let config ← fileConfig env path
  match env.policy with
  | none => return config
  | some name => return { config with malformedReferences := ← MalformedPolicy.parse name }

/-- Reads a form. -/
def loadForm (env : Environment) (path : String) : Except Failure Form :=
  match env.readFile path with
  | .error fault =>
    .error (.ofReading ("failed to read form '" ++ path ++ "': " ++ fault.message))
  | .ok text =>
    (Form.ofText text).mapError fun error =>
      .ofReading ("failed to parse form '" ++ path ++ "': " ++ error.message)

/-- Registers the form of a command. -/
def registerForm (env : Environment) (options : CommonOptions) :
    Except Failure (Registry × Registration) := do
  let config ← (loadConfig env options.config).mapError Failure.ofWiring
  let form ← loadForm env options.form
  ((Registry.empty config).register form).mapError Failure.ofRequest

/-- Wires a form. -/
def runWire (env : Environment) (options : CommonOptions) : Except Failure String := do
  let (_, registration) ← registerForm env options
  match options.format with
  | .json => return jsonText (wireJson registration.wired registration.fingerprint)
  | .text => return wireText registration.wired

/-- Orders a form. -/
def runOrder (env : Environment) (options : CommonOptions) : Except Failure String := do
  let (_, registration) ← registerForm env options
  let order ← (evaluationOrder [registration.wired.graph]).mapError Failure.ofStructure
  let nodes := registration.wired.form.nodes
  match options.format with
  | .json => return jsonText (orderJson nodes order)
  | .text => return orderText nodes order

/-- Makes iterations with the indices from `index` on. -/
def iterations (collection : NodeId) : (remaining index : Nat) → RequestScope →
    Except RequestError (RequestScope × List Iteration)
  | 0, _, request => .ok (request, [])
  | remaining + 1, index, request => do
    let (next, result) := request.materialize collection index
    let made ← result
    let (last, others) ← iterations collection remaining (index + 1) next
    return (last, made :: others)

/-- Iterates a collection. -/
def runIterate (env : Environment) (options : CommonOptions) (code : String) (count : Nat) :
    Except Failure String := do
  let (registry, registration) ← registerForm env options
  let request ← (registry.beginRequest registration.wired.form.code).mapError Failure.ofRequest
  let collection ← (request.collectionByCode code).mapError Failure.ofRequest
  let (last, made) ← (iterations collection count 0 request).mapError Failure.ofRequest
  match options.format with
  | .json => return jsonText (iterateJson last env.requestName collection made)
  | .text => return iterateText last env.requestName code count

/-- Runs a command. -/
def runCommand (env : Environment) : Command → Except Failure String
  | .wire options => runWire env options
  | .order options => runOrder env options
  | .iterate options collection count => runIterate env options collection count

/-- Runs the command that some arguments ask for. -/
def run (env : Environment) (arguments : List String) : Execution :=
  match Request.ofArguments arguments with
  | .help => ⟨0, usage, none⟩
  | .misuse => ⟨2, "", some usage⟩
  | .run command =>
    match runCommand env command with
    | .ok output => ⟨0, output, none⟩
    | .error failure => ⟨failure.exitCode, "", some failure.message⟩

end CommandLine

end FormFlow
