import FormFlow.CommandLine.Run

/-!
# The program

Reads the files that the arguments name, runs the command, and writes what it answers.
-/

set_option autoImplicit false

namespace FormFlow

namespace CommandLine

/-- The environment variable that overrides the policy for malformed references. -/
def policyVariable : String := "FORMFLOW_MALFORMED_REFERENCES"

/-- The number of a system error, which is reported with either sign. -/
def errorNumber (code : UInt32) : Nat :=
  if code.toNat < Nat.pow 2 31 then code.toNat else Nat.pow 2 32 - code.toNat

/-- The fault with the number of a system error. -/
def numberedFault (reason : String) (code : UInt32) : FileFault :=
  let number := errorNumber code
  (FileFault.ofNumber? number).getD (.other (FileFault.withNumber reason number))

/-- Why a file cannot be read. -/
def fileFault : IO.Error → FileFault
  | .noFileOrDirectory _ code reason => numberedFault reason code
  | .permissionDenied _ code reason => numberedFault reason code
  | .inappropriateType _ code reason => numberedFault reason code
  | .invalidArgument _ code reason => numberedFault reason code
  | .resourceExhausted _ code reason => numberedFault reason code
  | .noSuchThing _ code reason => numberedFault reason code
  | .otherError code reason => numberedFault reason code
  | fault => .other (toString fault)

/-- The content of a file, or why it cannot be read. -/
def readText (path : String) : IO (Except FileFault String) := do
  try
    let bytes ← IO.FS.readBinFile path
    match String.fromUTF8? bytes with
    | some text => return .ok text
    | none => return .error .notText
  catch fault =>
    return .error (fileFault fault)

/-- The paths that a command reads. -/
def pathsOf : Command → List String
  | .wire options => options.config.toList ++ [options.form]
  | .order options => options.config.toList ++ [options.form]
  | .iterate options _ _ => options.config.toList ++ [options.form]

/-- Reads the files that some arguments name. -/
def readFiles (arguments : List String) : IO (List (String × Except FileFault String)) :=
  match Request.ofArguments arguments with
  | .run command => (pathsOf command).mapM fun path => do return (path, ← readText path)
  | _ => return []

/-- Random hexadecimal digits. -/
def randomDigits (count : Nat) : IO String := do
  let digits ← (List.range count).mapM fun _ => do return Json.hexDigit (← IO.rand 0 15)
  return String.ofList digits

/-- A random name for a request, a universally unique identifier of the fourth version. -/
def randomName : IO String := do
  let variant := Json.hexDigit (← IO.rand 8 11)
  return (← randomDigits 8) ++ "-" ++ (← randomDigits 4) ++ "-4" ++ (← randomDigits 3) ++ "-" ++
    variant.toString ++ (← randomDigits 3) ++ "-" ++ (← randomDigits 12)

end CommandLine

end FormFlow

open FormFlow.CommandLine in
/-- Runs the program. -/
def main (arguments : List String) : IO UInt32 := do
  let files ← readFiles arguments
  let environment : Environment := {
    readFile := fun path => (files.lookup path).getD (.error .absent)
    policy := ← IO.getEnv policyVariable
    requestName := ← randomName }
  let execution := run environment arguments
  IO.print execution.output
  match execution.message with
  | some message => IO.eprintln ("Error: " ++ message)
  | none => pure ()
  return execution.exitCode.toUInt32
