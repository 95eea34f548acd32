import TypedVars.Command

/-!
# The program

The outer layer of the program: it reads the file that a command names, runs the command and writes
its outcome.
-/

set_option autoImplicit false

namespace TypedVars

/-- What an error of the system says about a file. -/
def FileFault.ofError : IO.Error → FileFault
  | .noFileOrDirectory .. => .missing
  | .noSuchThing .. => .missing
  | .permissionDenied .. => .forbidden
  | .inappropriateType _ code _ => if code = 21 then .directory else .throughFile
  | _ => .noText

/-- The text of a file. -/
def readSchemaFile (path : Text) : IO (Except FileFault Text) := do
  try
    let content ← IO.FS.readFile (String.ofList path)
    return .ok content.toList
  catch error =>
    return .error (FileFault.ofError error)

/-- Runs the command that arguments give, and answers with the exit code. -/
def runProgram (arguments : List Text) : IO UInt32 := do
  let content ←
    match Command.ofArguments? arguments with
    | some (.change file ..) => readSchemaFile file
    | _ => pure (.error .missing)
  let outcome := Command.run (fun _ => content) arguments
  (← IO.getStdout).putStr (String.ofList outcome.output)
  (← IO.getStderr).putStr (String.ofList outcome.complaint)
  return outcome.exit.toUInt32

end TypedVars

/-- The entry of the program. -/
def main (arguments : List String) : IO UInt32 :=
  TypedVars.runProgram (arguments.map String.toList)
