import Offloading.Text.Digit
import Offloading.Workload
/-!
# Command-line arguments

Options and commands. An option has a long name and perhaps a short one; a value follows it as an
argument of its own, after an equals sign, or, after a short name, at once. Short names may share one
hyphen. Options that apply everywhere may stand before the command or after it, where they win.
-/

namespace Offloading.CommandLine

/-- What an option is about. -/
inductive Topic where
  /-- The configuration file. -/
  | config
  /-- How much is logged; nothing is. -/
  | verbose
  /-- The options themselves. -/
  | help
  /-- The version. -/
  | version
  /-- The transfer mode. -/
  | mode
  /-- Whether kernels get an address table. -/
  | addressTable
  /-- The number of structs. -/
  | structs
  /-- The bytes behind the pointer of each struct. -/
  | payload
  /-- The number of regions. -/
  | iterations
  /-- Whether the report is JSON. -/
  | json
  deriving DecidableEq, Repr

namespace Topic

/-- The long name. -/
def long : Topic → String
  | config => "config"
  | verbose => "verbose"
  | help => "help"
  | version => "version"
  | mode => "mode"
  | addressTable => "address-table"
  | structs => "structs"
  | payload => "payload"
  | iterations => "iterations"
  | json => "json"

/-- The short name. -/
def short? : Topic → Option Char
  | config => some 'c'
  | verbose => some 'v'
  | help => some 'h'
  | version => some 'V'
  | mode => some 'm'
  | structs => some 's'
  | payload => some 'p'
  | iterations => some 'i'
  | addressTable | json => none

/-- Whether a value belongs to the option. -/
def takesValue : Topic → Bool
  | config | mode | structs | payload | iterations => true
  | _ => false

/-- The options that apply everywhere. -/
def everywhere : List Topic := [config, verbose, help]

/-- The options that give the shape of the workload. -/
def shape : List Topic := [structs, payload, iterations]

end Topic

/-- Why arguments make no sense. -/
inductive UsageError where
  /-- There is no such option here. -/
  | unknownOption (argument : String)
  /-- An option comes without its value. -/
  | missingValue (topic : Topic)
  /-- A value comes with an option that has none. -/
  | needlessValue (topic : Topic)
  /-- An option comes twice. -/
  | repeated (topic : Topic)
  /-- A value has the wrong form. -/
  | badValue (topic : Topic) (value : String)
  /-- An argument is neither an option nor a command. -/
  | unexpected (argument : String)
  /-- There is no command. -/
  | noCommand
  deriving DecidableEq, Repr

/-- The error in words. -/
def UsageError.message : UsageError → String
  | unknownOption argument => "unknown option '" ++ argument ++ "'"
  | missingValue topic => "option '--" ++ topic.long ++ "' needs a value"
  | needlessValue topic => "option '--" ++ topic.long ++ "' takes no value"
  | repeated topic => "option '--" ++ topic.long ++ "' given twice"
  | badValue topic value => "bad value '" ++ value ++ "' for option '--" ++ topic.long ++ "'"
  | unexpected argument => "unexpected argument '" ++ argument ++ "'"
  | noCommand => "a command is needed"

/-- An option and its value, which is empty for options that have none. -/
abbrev Occurrence := Topic × String

/-- What one argument with options says. -/
inductive Reading where
  /-- These options. -/
  | complete (found : List Occurrence)
  /-- These options, and one whose value is the next argument. -/
  | awaiting (found : List Occurrence) (topic : Topic)
  /-- These options, and something that makes no sense. -/
  | faulty (found : List Occurrence) (error : UsageError)
  deriving DecidableEq, Repr

/-- Adds an option in front. -/
def Reading.add (o : Occurrence) : Reading → Reading
  | complete found => complete (o :: found)
  | awaiting found topic => awaiting (o :: found) topic
  | faulty found error => faulty (o :: found) error

/-- The options with short names behind one hyphen. -/
def readShort (topics : List Topic) : List Char → Reading
  | [] => .complete []
  | c :: rest =>
    match topics.find? fun t => t.short? == some c with
    | none => .faulty [] (.unknownOption ("-" ++ c.toString))
    | some t =>
      if t.takesValue then
        match rest with
        | [] => .awaiting [] t
        | '=' :: value => .complete [(t, String.ofList value)]
        | value => .complete [(t, String.ofList value)]
      else (readShort topics rest).add (t, "")

/-- The option with a long name behind two hyphens. -/
def readLong (topics : List Topic) (cs : List Char) : Reading :=
  let name := String.ofList (cs.takeWhile (· != '='))
  match topics.find? fun t => t.long == name with
  | none => .faulty [] (.unknownOption ("--" ++ name))
  | some t =>
    match cs.dropWhile (· != '='), t.takesValue with
    | [], true => .awaiting [] t
    | [], false => .complete [(t, "")]
    | _ :: value, true => .complete [(t, String.ofList value)]
    | _ :: _, false => .faulty [] (.needlessValue t)

/-- The options in an argument; a word has none. -/
def read? (topics : List Topic) (argument : String) : Option Reading :=
  match argument.toList with
  | '-' :: '-' :: cs => some (readLong topics cs)
  | '-' :: c :: cs => some (readShort topics (c :: cs))
  | _ => none

/-- Whether an argument looks like an option, and so is no value. -/
def looksLikeOption (argument : String) : Bool :=
  match argument.toList with
  | '-' :: _ :: _ => true
  | _ => false

/-- How a row of options ends. -/
inductive End where
  /-- With the last argument. -/
  | last
  /-- With a word, before other arguments. -/
  | word (word : String) (rest : List String)
  /-- With something that makes no sense. -/
  | faulty (error : UsageError)
  deriving DecidableEq, Repr

/-- The options up to the first word, and how their row ends. Two hyphens make words of all arguments
behind them. -/
def scan (topics : List Topic) : List String → List Occurrence × End
  | [] => ([], .last)
  | "--" :: [] => ([], .last)
  | "--" :: argument :: _ => ([], .faulty (.unexpected argument))
  | argument :: rest =>
    match read? topics argument with
    | none => ([], .word argument rest)
    | some (.faulty found error) => (found, .faulty error)
    | some (.complete found) =>
      let (others, stop) := scan topics rest
      (found ++ others, stop)
    | some (.awaiting found topic) =>
      match rest with
      | [] => (found, .faulty (.missingValue topic))
      | value :: rest =>
        if looksLikeOption value then (found, .faulty (.missingValue topic))
        else
          let (others, stop) := scan topics rest
          (found ++ (topic, value) :: others, stop)

/-- The values of options. -/
structure Options where
  /-- The path of the configuration file. -/
  config : Option String := none
  /-- The transfer mode. -/
  mode : Option String := none
  /-- The number of structs. -/
  structs : Option Nat := none
  /-- The bytes behind the pointer of each struct. -/
  payload : Option Nat := none
  /-- The number of regions. -/
  iterations : Option Nat := none
  /-- Whether kernels get an address table. -/
  addressTable : Bool := false
  /-- Whether the report is JSON. -/
  json : Bool := false
  /-- Whether only the options or the version are asked for. -/
  information : Option Topic := none
  deriving DecidableEq, Repr

/-- A 64-bit number in decimal, perhaps with a plus sign. -/
def number? (s : String) : Option Nat :=
  let digits := match s.toList with
    | '+' :: rest => rest
    | cs => cs
  let n := Text.valueIn 10 digits
  if digits ≠ [] ∧ digits.all Text.isDigit ∧ n < Word.modulus then some n else none

namespace Options

/-- A number that comes for the first time. -/
def number (topic : Topic) (before : Option Nat) (value : String) : Except UsageError Nat :=
  match number? value with
  | none => .error (.badValue topic value)
  | some n => if before.isSome then .error (.repeated topic) else .ok n

/-- Adds an option. Nothing is added once information is asked for. -/
def add (o : Options) : Occurrence → Except UsageError Options
  | (topic, value) =>
    if o.information.isSome then .ok o
    else
      match topic with
      | .verbose => .ok o
      | .help | .version => .ok { o with information := some topic }
      | .config =>
        if value = "" then .error (.badValue topic value)
        else if o.config.isSome then .error (.repeated topic)
        else .ok { o with config := some value }
      | .mode => if o.mode.isSome then .error (.repeated topic) else .ok { o with mode := some value }
      | .structs => (number topic o.structs value).map fun n => { o with structs := some n }
      | .payload => (number topic o.payload value).map fun n => { o with payload := some n }
      | .iterations => (number topic o.iterations value).map fun n => { o with iterations := some n }
      | .addressTable =>
        if o.addressTable then .error (.repeated topic) else .ok { o with addressTable := true }
      | .json => if o.json then .error (.repeated topic) else .ok { o with json := true }

/-- The shape of the workload. -/
def workload (o : Options) : Workload :=
  let fallback : Workload := {}
  { structs := o.structs.getD fallback.structs
    payload := o.payload.getD fallback.payload
    iterations := o.iterations.getD fallback.iterations }

end Options

/-- What is to be done. -/
inductive Command where
  /-- Running one workload. -/
  | simulate (mode : Option String) (addressTable : Bool) (workload : Workload) (json : Bool)
  /-- Running a workload in several ways. -/
  | compare (workload : Workload)
  /-- Showing the configuration. -/
  | config
  deriving DecidableEq, Repr

/-- What the arguments ask for. -/
inductive Request where
  /-- The options. -/
  | help
  /-- The version. -/
  | version
  /-- A command under the configuration in a file. -/
  | run (config : Option String) (command : Command)
  deriving DecidableEq, Repr

/-- The options of a command and the command that they make. -/
def command? : String → Option (List Topic × (Options → Command))
  | "simulate" =>
    some (.mode :: .addressTable :: .json :: Topic.shape, fun o =>
      .simulate o.mode o.addressTable o.workload o.json)
  | "compare" => some (Topic.shape, fun o => .compare o.workload)
  | "config" => some ([], fun _ => .config)
  | _ => none

/-- The request for information, if there is one. -/
def Options.request? (o : Options) : Option Request :=
  o.information.map fun topic => if topic = .version then .version else .help

/-- The request that the arguments of a command make, after the options before it. -/
def commandRequest (before : Options) (topics : List Topic) (make : Options → Command)
    (arguments : List String) : Except UsageError Request := do
  let (found, stop) := scan (Topic.everywhere ++ topics) arguments
  let o ← found.foldlM Options.add {}
  match o.request?, stop with
  | some request, _ => return request
  | none, .last => return .run (o.config.or before.config) (make o)
  | none, .word word _ => throw (.unexpected word)
  | none, .faulty error => throw error

/-- The request that arguments make. -/
def Request.ofArguments (arguments : List String) : Except UsageError Request := do
  let (found, stop) := scan (.version :: Topic.everywhere) arguments
  let o ← found.foldlM Options.add {}
  match o.request?, stop with
  | some request, _ => return request
  | none, .last => throw .noCommand
  | none, .faulty error => throw error
  | none, .word word rest =>
    match command? word with
    | some (topics, make) => commandRequest o topics make rest
    | none => if word = "help" then return .help else throw (.unexpected word)

end Offloading.CommandLine
