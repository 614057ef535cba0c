import MotorSupervisor.Config.Overlay
import MotorSupervisor.Toml.Document

/-!
# Loading configurations

A configuration is loaded from what a path leads to: nothing, something that
is not a file, or the bytes of a file.  Loading reads a document and lays it
over the defaults; a separate step checks the rules.
-/

namespace MotorSupervisor

/-- What a path leads to. -/
inductive Source
  | missing
  | notAFile
  | file (bytes : ByteArray)

namespace Source

/-- The entries of the document at a path. -/
def entries : Source → Except ConfigError Toml.Entries
  | missing => .error .fileNotFound
  | notAFile => .error (.unreadable .notAFile)
  | file bytes =>
      match Toml.ofBytes bytes with
      | .ok entries => .ok entries
      | .error fault => .error (.unreadable (.document fault))

/-- What a reader of documents makes of the document at a path. -/
def load {α : Type} (read : Toml.Entries → Option α) (source : Source) :
    Except ConfigError α :=
  match source.entries with
  | .error e => .error e
  | .ok entries =>
      match read entries with
      | some settings => .ok settings
      | none => .error (.unreadable .mismatch)

/-- A configuration is passed on unless it breaks a rule. -/
def checked {α : Type} (violation? : α → Option Violation) (settings : α) :
    Except ConfigError α :=
  match violation? settings with
  | none => .ok settings
  | some violation => .error (.invalid violation)

end Source

namespace Config

/-- The configuration at a path, unchecked. -/
def load (source : Source) : Except ConfigError Config :=
  source.load ofEntries?

/-- The configuration at a path, if it keeps all rules. -/
def loadValid (source : Source) : Except ConfigError Config :=
  match load source with
  | .ok config => Source.checked violation? config
  | .error e => .error e

end Config

namespace SharedConfig

/-- The shared settings at a path with their keys at top level, if they keep
their rule. -/
def loadValid (source : Source) : Except ConfigError SharedConfig :=
  match source.load (fun entries => decode (.table entries)) with
  | .ok shared => Source.checked violation? shared
  | .error e => .error e

end SharedConfig

/-- Driver selection at a path with its key at top level. -/
def DriverConfig.load (source : Source) : Except ConfigError DriverConfig :=
  source.load (fun entries => decode (.table entries))

/-- Control settings at a path with their keys at top level. -/
def ControlConfig.load (source : Source) : Except ConfigError ControlConfig :=
  source.load (fun entries => decode (.table entries))

/-- Simulation settings at a path with their keys at top level. -/
def SimulationConfig.load (source : Source) : Except ConfigError SimulationConfig :=
  source.load (fun entries => decode (.table entries))

/-- The mode at a path. -/
def Mode.load (source : Source) : Except ConfigError Mode :=
  source.load ofEntries?

end MotorSupervisor
