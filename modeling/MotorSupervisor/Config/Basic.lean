import MotorSupervisor.Config.Simulation
import MotorSupervisor.Toml.Value

/-!
# The configuration of a service

A configuration has one table for the service itself, one that selects the
driver, one for the control loop and one for the simulated motor.

**Definitions.**
* `Config.standard`: the configuration without a file.
* `Config.violation?`: the rules of all tables in order, and last the rule
  that a simulated motor and the control loop agree on the pole count.
* `ConfigError`: the three ways in which a configuration cannot be had.
-/

namespace MotorSupervisor

/-- Severity of a log message, most verbose first. -/
inductive LogLevel
  | trace
  | debug
  | info
  | warn
  | error
deriving DecidableEq, Inhabited

namespace LogLevel

/-- The level in a log line. -/
def label : LogLevel → String
  | trace => "TRACE"
  | debug => "DEBUG"
  | info => "INFO"
  | warn => "WARN"
  | error => "ERROR"

/-- Position in the order of severity. -/
def severity : LogLevel → Nat
  | trace => 0
  | debug => 1
  | info => 2
  | warn => 3
  | error => 4

/-- A log kept at this level shows messages of the other level. -/
def shows (kept message : LogLevel) : Bool :=
  kept.severity ≤ message.severity

end LogLevel

/-- Settings of the service itself. -/
structure SharedConfig where
  logLevel : LogLevel
  serviceName : String
deriving DecidableEq

namespace SharedConfig

/-- The service as it is called without a configuration. -/
def standard : SharedConfig :=
  ⟨.info, "esc"⟩

/-- The service has a name. -/
def violation? (c : SharedConfig) : Option Violation :=
  if c.serviceName.isEmpty then some .emptyServiceName else none

end SharedConfig

/-- Selection of the driver. -/
structure DriverConfig where
  name : String
deriving DecidableEq

namespace DriverConfig

/-- Name of the driver of the simulated motor. -/
def simulation : String :=
  "simulation"

/-- The simulated motor. -/
def standard : DriverConfig :=
  ⟨simulation⟩

end DriverConfig

/-- The configuration of a service. -/
structure Config where
  shared : SharedConfig
  driver : DriverConfig
  control : ControlConfig
  simulation : SimulationConfig
deriving DecidableEq

namespace Config

/-- The configuration without a file. -/
def standard : Config where
  shared := .standard
  driver := .standard
  control := .standard
  simulation := .standard

/-- With the simulated motor selected, the control loop has to convert its
commutation period with the same pole count. -/
def poleViolation? (c : Config) : Option Violation :=
  if c.driver.name = DriverConfig.simulation ∧ c.control.poles ≠ c.simulation.poles then
    some (.polesDiffer c.control.poles c.simulation.poles)
  else none

/-- The first broken rule, table by table. -/
def violation? (c : Config) : Option Violation :=
  c.shared.violation? <|> c.control.violation? <|> c.simulation.violation? <|>
    c.poleViolation?

/-- No rule is broken. -/
def Valid (c : Config) : Prop :=
  c.violation? = none

instance (c : Config) : Decidable c.Valid :=
  inferInstanceAs (Decidable (c.violation? = none))

end Config

/-- Why a document does not give a configuration. -/
inductive Unreadable
  /-- The file exists but cannot be read as a file. -/
  | notAFile
  /-- The text is not a document. -/
  | document (fault : Toml.Fault)
  /-- A value has the wrong type or range, or a required one is missing. -/
  | mismatch
deriving DecidableEq

/-- Explanation of an unreadable configuration. -/
def Unreadable.message : Unreadable → String
  | notAFile => "not a regular file"
  | document fault => fault.message
  | mismatch => "missing or mistyped value"

/-- Why there is no configuration. -/
inductive ConfigError
  | fileNotFound
  | unreadable (reason : Unreadable)
  | invalid (violation : Violation)
deriving DecidableEq

/-- The text of a configuration error. -/
def ConfigError.message : ConfigError → String
  | fileNotFound => "Configuration file not found"
  | unreadable reason => s!"Failed to parse configuration: {reason.message}"
  | invalid violation => s!"Configuration validation failed: {violation.message}"

end MotorSupervisor
