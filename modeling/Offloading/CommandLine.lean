import Offloading.CommandLine.Arguments
import Offloading.CommandLine.Report
import Offloading.Config.Text
/-!
# The command line

What the program prints and how it ends, given its arguments and a way to read files.
-/

namespace Offloading.CommandLine

/-- How the program ends. -/
structure Outcome where
  /-- The exit code. -/
  code : Nat := 0
  /-- What it prints. -/
  output : String := ""
  /-- What it prints about errors. -/
  errors : String := ""
  deriving DecidableEq, Repr

/-- Errors in words, the outermost first, each with its number if there are several below it. -/
def errorText : List String → String
  | [] => ""
  | outer :: [] => "Error: " ++ outer ++ "\n"
  | outer :: [cause] => "Error: " ++ outer ++ "\n\nCaused by:\n    " ++ cause ++ "\n"
  | outer :: causes =>
    let line (cause : String) (i : Nat) : String :=
      Text.rightIn 5 (toString i) ++ ": " ++ cause ++ "\n"
    "Error: " ++ outer ++ "\n\nCaused by:\n" ++ String.join (causes.mapIdx fun i c => line c i)

/-- Ends with errors, after some output. -/
def Outcome.failure (output : String) (chain : List String) : Outcome :=
  { code := 1, output, errors := errorText chain }

/-- The exit code of a program that breaks off. -/
def Outcome.brokenOffCode : Nat := 101

/-- Breaks off, after some output, because a time cannot be divided by zero. -/
def Outcome.brokenOff (output : String) : Outcome :=
  { code := brokenOffCode
    output
    errors := "divide by zero error when dividing duration by scalar\n" }

/-- Ends because of the configuration. -/
def Outcome.badConfig (e : ConfigError) : Outcome := .failure "" (OffloadError.config e).chain

/-- Ends with the report of a workload that was run. -/
def conclude (r : Workload.Report) : Except String String → Outcome
  | .error output => .brokenOff output
  | .ok output =>
    if r.verified then { output }
    else .failure output ["host memory does not match the expected result"]

/-- Runs a workload and reports it. -/
def simulate (c : Config) (w : Workload) (json : Bool) : Outcome :=
  match c.validate with
  | .error e => .badConfig e
  | .ok _ =>
    match w.run c with
    | .error e => .failure "" e.chain
    | .ok r => conclude r (if json then .ok ((reportJson r).pretty 0 ++ "\n") else reportText w r)

/-- The ways in which a workload is run for a comparison. -/
def variants : List (Strategy × Bool) := [(.immediate, false), (.bulk, false), (.immediate, true)]

/-- Runs a workload in several ways and compares them. -/
def compare (c : Config) (w : Workload) : Outcome :=
  let runs := variants.map fun (s, addressTable) =>
    (s, w.run { c with transferMode := s.name, addressTable })
  let output := comparisonText w runs
  let failed : Strategy × Except WorkloadError Workload.Report → Bool
    | (_, .ok r) => !r.verified
    | (_, .error _) => false
  if runs.any failed then
    .failure output ["at least one strategy produced a mismatching result"]
  else { output }

/-- Shows the configuration. -/
def showConfig (c : Config) : Outcome :=
  let text : Except ConfigError String := do
    c.validate
    c.toText
  match text with
  | .error e => .badConfig e
  | .ok output => { output }

/-- Does what a command says. -/
def Command.execute (c : Config) : Command → Outcome
  | simulate mode addressTable w json =>
    CommandLine.simulate
      { c with
        transferMode := mode.getD c.transferMode
        addressTable := c.addressTable || addressTable } w json
  | compare w => CommandLine.compare c w
  | config => showConfig c

/-- The configuration in a file, or the default one. A file that cannot be read has a reason. -/
def loadConfig (readFile : String → Except String String) : Option String → Except ConfigError Config
  | none => .ok {}
  | some path =>
    match readFile path with
    | .ok text => Config.ofText text
    | .error reason => .error (.unreadable path reason)

/-- The name and version of the program. -/
def versionText : String := "offload-sim 0.1.0\n"

/-- How the program is used. -/
def usageText : String :=
  unlines [
    "Simulate offload regions over an in-process device",
    "",
    "Usage: offload-sim [-c FILE] [-v]... COMMAND",
    "",
    "Commands:",
    "  simulate [-m MODE] [--address-table] [-s N] [-p N] [-i N] [--json]",
    "  compare [-s N] [-p N] [-i N]",
    "  config"]

/-- What a request leads to. -/
def Request.respond (readFile : String → Except String String) : Request → Outcome
  | help => { output := usageText }
  | version => { output := versionText }
  | run path? command =>
    match loadConfig readFile path? with
    | .error e => .badConfig e
    | .ok c => command.execute c

/-- What arguments lead to. -/
def respond (readFile : String → Except String String) (arguments : List String) : Outcome :=
  match Request.ofArguments arguments with
  | .ok request => request.respond readFile
  | .error e => { code := 2, errors := "error: " ++ e.message ++ "\n\n" ++ usageText }

end Offloading.CommandLine
