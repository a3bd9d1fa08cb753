import Offloading.CommandLine
/-!
# The program

Reads the configuration file that the arguments name, prints what they lead to, and ends with the exit
code.
-/

namespace Offloading.CommandLine

/-- Why a file cannot be read. -/
def unreadableReason (e : IO.Error) : String :=
  match e with
  | .noFileOrDirectory _ code details => details ++ " (os error " ++ toString code ++ ")"
  | .permissionDenied _ code details => details ++ " (os error " ++ toString code ++ ")"
  | .inappropriateType _ code details => details ++ " (os error " ++ toString code ++ ")"
  | e => toString e

/-- The text of a file, or why it cannot be read. -/
def readText (path : String) : IO (Except String String) := do
  try return .ok (← IO.FS.readFile path)
  catch e => return .error (unreadableReason e)

/-- Runs the program. -/
def run (arguments : List String) : IO UInt32 := do
  let content ← match Request.ofArguments arguments with
    | .ok (.run (some path) _) => readText path
    | _ => pure (.ok "")
  let outcome := respond (fun _ => content) arguments
  (← IO.getStdout).putStr outcome.output
  (← IO.getStderr).putStr outcome.errors
  return outcome.code.toUInt32

end Offloading.CommandLine

/-- The program. -/
def main (arguments : List String) : IO UInt32 := Offloading.CommandLine.run arguments
