import MotorSupervisor.Decimal.Literal

/-!
# The command line

Arguments are read from left to right.  A long option takes its value after an
equals sign or from the next argument, a short one also directly behind its
letter; short switches can share one dash.  An argument that starts with a
dash is never the value of the option before it, except a dash alone.

`Request.ofArguments` gives what the arguments ask for.  Every option can be
given once.  Help and version are answered as soon as they are met, before any
later argument is looked at; the conflict between the two setpoints is only
found at the end.
-/

namespace MotorSupervisor

/-- Settings of a run. -/
structure Options where
  /-- Configuration file to load. -/
  config : Option String
  /-- Driver to use instead of the configured one. -/
  driver : Option String
  /-- Open-loop duty setpoint. -/
  duty : Option Single
  /-- Target-speed setpoint. -/
  rpm : Option UInt32
  /-- Seconds to run; not positive means until interrupted. -/
  duration : Double
  /-- Milliseconds between status reports. -/
  statusIntervalMillis : UInt64
  /-- Show debug messages whatever the configuration says. -/
  verbose : Bool
  /-- Write log lines as data. -/
  json : Bool
deriving DecidableEq

/-- What the arguments ask for. -/
inductive Request
  | run (options : Options)
  | help
  | version
deriving DecidableEq

/-- Why the arguments cannot be understood. -/
inductive UsageError
  | unknownArgument (argument : String)
  | missingValue (argument : String)
  | unexpectedValue (argument : String)
  | invalidValue (argument value : String)
  | repeatedArgument (argument : String)
  | conflictingSetpoints
deriving DecidableEq

/-- Explanation of a usage error. -/
def UsageError.message : UsageError → String
  | unknownArgument argument => s!"unexpected argument '{argument}'"
  | missingValue argument => s!"a value is required for '{argument}'"
  | unexpectedValue argument => s!"'{argument}' takes no value"
  | invalidValue argument value => s!"invalid value '{value}' for '{argument}'"
  | repeatedArgument argument => s!"'{argument}' cannot be used multiple times"
  | conflictingSetpoints => "'--duty' cannot be used with '--rpm'"

namespace CommandLine

/-- An option with a value. -/
inductive Key
  | config
  | driver
  | duty
  | rpm
  | duration
  | statusInterval
deriving DecidableEq

/-- The long spelling of an option. -/
def Key.spelling : Key → String
  | config => "--config"
  | driver => "--driver"
  | duty => "--duty"
  | rpm => "--rpm"
  | duration => "--duration"
  | statusInterval => "--status-interval-ms"

/-- An option without a value. -/
inductive Switch
  | verbose
  | json
  | help
  | version
deriving DecidableEq

/-- The long spelling of a switch. -/
def Switch.spelling : Switch → String
  | verbose => "--verbose"
  | json => "--json"
  | help => "--help"
  | version => "--version"

/-- An option of either kind. -/
inductive Name
  | key (k : Key)
  | switch (s : Switch)

/-- The options with values. -/
def keys : List Key :=
  [.config, .driver, .duty, .rpm, .duration, .statusInterval]

/-- The options without values. -/
def switches : List Switch :=
  [.verbose, .json, .help, .version]

/-- The option with a long spelling. -/
def long? (spelling : String) : Option Name :=
  ((keys.find? (·.spelling == spelling)).map Name.key) <|>
    ((switches.find? (·.spelling == spelling)).map Name.switch)

/-- The option with a one-letter spelling. -/
def short? : Char → Option Name
  | 'c' => some (.key .config)
  | 'd' => some (.key .driver)
  | 'v' => some (.switch .verbose)
  | 'h' => some (.switch .help)
  | 'V' => some (.switch .version)
  | _ => none

/-- The options that were given so far. -/
structure Draft where
  config : Option String
  driver : Option String
  duty : Option Single
  rpm : Option UInt32
  duration : Option Double
  statusInterval : Option UInt64
  verbose : Bool
  json : Bool

namespace Draft

/-- No option is given. -/
def empty : Draft :=
  ⟨none, none, none, none, none, none, false, false⟩

/-- The settings, with the defaults of absent options. -/
def finish (d : Draft) : Except UsageError Request :=
  if d.duty.isSome ∧ d.rpm.isSome then .error .conflictingSetpoints
  else
    .ok (.run
      { config := d.config
        driver := d.driver
        duty := d.duty
        rpm := d.rpm
        duration := d.duration.getD 0
        statusIntervalMillis := d.statusInterval.getD 500
        verbose := d.verbose
        json := d.json })

end Draft

/-- A 32-bit word in decimal digits; a sign is allowed. -/
def word32? (text : String) : Option UInt32 := do
  let i ← ofSignedDigits? text.toList
  if 0 ≤ i ∧ i < UInt32.size then some (UInt32.ofNat i.toNat) else none

/-- A 64-bit word in decimal digits; only a plus sign is allowed. -/
def word64? (text : String) : Option UInt64 := do
  let i ← ofSignedDigits? text.toList
  if text.toList.head? = some '-' then none
  else if i < UInt64.size then some (UInt64.ofNat i.toNat)
  else none

/-- A path, which is never empty. -/
def path? (text : String) : Option String :=
  if text.isEmpty then none else some text

/-- Fill the place of an option that is not yet given. -/
def fill {α : Type} (key : Key) (text : String) (read : String → Option α)
    (place : Option α) (update : Option α → Draft) : Except UsageError Draft :=
  match place with
  | some _ => .error (.repeatedArgument key.spelling)
  | none =>
      match read text with
      | some value => .ok (update (some value))
      | none => .error (.invalidValue key.spelling text)

/-- Give an option its value. -/
def assign (key : Key) (text : String) (d : Draft) : Except UsageError Draft :=
  match key with
  | .config => fill key text path? d.config ({ d with config := · })
  | .driver => fill key text some d.driver ({ d with driver := · })
  | .duty => fill key text (Binary.ofText? .single) d.duty ({ d with duty := · })
  | .rpm => fill key text word32? d.rpm ({ d with rpm := · })
  | .duration => fill key text (Binary.ofText? .double) d.duration ({ d with duration := · })
  | .statusInterval => fill key text word64? d.statusInterval ({ d with statusInterval := · })

/-- The state of reading between two arguments. -/
inductive Progress
  /-- The next argument is an option. -/
  | between (d : Draft)
  /-- The next argument is the value of an option. -/
  | expecting (key : Key) (d : Draft)
  /-- All options are given; any further argument is one too many. -/
  | closed (d : Draft)
  /-- The arguments are answered already. -/
  | answered (request : Request)

/-- Take up a switch. -/
def raise (switch : Switch) (d : Draft) : Except UsageError Progress :=
  match switch with
  | .help => .ok (.answered .help)
  | .version => .ok (.answered .version)
  | .verbose =>
      if d.verbose then .error (.repeatedArgument switch.spelling)
      else .ok (.between { d with verbose := true })
  | .json =>
      if d.json then .error (.repeatedArgument switch.spelling)
      else .ok (.between { d with json := true })

/-- Take up an option whose value follows the equals sign, or a switch. -/
def takeLong (argument : String) (d : Draft) : Except UsageError Progress :=
  let cs := argument.toList
  let spelling := String.ofList (cs.takeWhile (· ≠ '='))
  match long? spelling, cs.dropWhile (· ≠ '=') with
  | none, _ => .error (.unknownArgument argument)
  | some (.switch switch), [] => raise switch d
  | some (.switch _), _ => .error (.unexpectedValue spelling)
  | some (.key key), [] => .ok (.expecting key d)
  | some (.key key), _ :: value =>
      (assign key (String.ofList value) d).map Progress.between

/-- Take up the letters behind a single dash. -/
def takeShort : List Char → Draft → Except UsageError Progress
  | [], d => .ok (.between d)
  | c :: rest, d =>
      match short? c with
      | none => .error (.unknownArgument (String.ofList ['-', c]))
      | some (.switch switch) =>
          match raise switch d with
          | .ok (.between d) => takeShort rest d
          | other => other
      | some (.key key) =>
          match rest with
          | [] => .ok (.expecting key d)
          | '=' :: value => (assign key (String.ofList value) d).map Progress.between
          | value => (assign key (String.ofList value) d).map Progress.between

/-- An argument that cannot be a separate value. -/
def looksLikeOption (argument : String) : Bool :=
  argument.startsWith "-" && argument != "-"

/-- Take up an argument at the place of an option. -/
def take (argument : String) (d : Draft) : Except UsageError Progress :=
  if argument = "--" then .ok (.closed d)
  else if argument.startsWith "--" then takeLong argument d
  else if looksLikeOption argument then takeShort (argument.toList.drop 1) d
  else .error (.unknownArgument argument)

/-- Take up one argument. -/
def advance (progress : Progress) (argument : String) : Except UsageError Progress :=
  match progress with
  | .between d => take argument d
  | .expecting key d =>
      if looksLikeOption argument then .error (.missingValue key.spelling)
      else (assign key argument d).map Progress.between
  | .closed _ => .error (.unknownArgument argument)
  | .answered request => .ok (.answered request)

/-- What the arguments ask for once all are read. -/
def conclude : Progress → Except UsageError Request
  | .between d => d.finish
  | .expecting key _ => .error (.missingValue key.spelling)
  | .closed d => d.finish
  | .answered request => .ok request

end CommandLine

/-- What a list of arguments asks for. -/
def Request.ofArguments (arguments : List String) : Except UsageError Request := do
  let progress ← arguments.foldlM CommandLine.advance (.between .empty)
  CommandLine.conclude progress

end MotorSupervisor
