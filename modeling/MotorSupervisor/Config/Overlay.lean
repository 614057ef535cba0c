import MotorSupervisor.Config.Basic
import MotorSupervisor.Control.Mode

/-!
# Configuration from document values

A table of a document is laid over the default settings: every recognised key
sets its field, every other key is ignored if its value is readable, and a
field without a key keeps its default.  A list of `Field`s says which keys a
table recognises.

An array in place of a table gives the fields by position; items beyond the
last field are not looked at.  A date-time in place of a table counts as a
table without any recognised key.

**Definitions.**
* `Decoder`: from a value to a setting, if the value fits its type and range.
* `overlay?`: lay the entries of a table over given settings.
* `Config.ofEntries?`: the configuration of a whole document.
-/

namespace MotorSupervisor

open Toml (Value Entries)

/-- From a document value to a setting. -/
abbrev Decoder (α : Type) := Value → Option α

namespace Decoder

/-- A text. -/
def string : Decoder String
  | .string text => some text
  | _ => none

/-- A truth value. -/
def boolean : Decoder Bool
  | .boolean value => some value
  | _ => none

/-- An integer from `low` to `high`. -/
def integer (low high : Int) : Decoder Int
  | .integer i => if low ≤ i ∧ i ≤ high then some i else none
  | _ => none

/-- A 32-bit word. -/
def word32 : Decoder UInt32 :=
  fun value => (integer 0 (UInt32.size - 1) value).map (UInt32.ofNat ·.toNat)

/-- A 64-bit word. -/
def word64 : Decoder UInt64 :=
  fun value => (integer 0 (UInt64.size - 1) value).map (UInt64.ofNat ·.toNat)

/-- A signed 32-bit word. -/
def signed32 : Decoder Int32 :=
  fun value => (integer Int32.minValue.toInt Int32.maxValue.toInt value).map Int32.ofInt

/-- A 32-bit number.  An integer is converted directly, a float through the
64-bit format in which documents hold it. -/
def single : Decoder Single
  | .float value => some (value.toFormat Format.single)
  | .integer i => if Int64.minValue.toInt ≤ i ∧ i < UInt64.size then some (Binary.ofInt i) else none
  | _ => none

/-- One of several named choices: its name, or a table with the name as its
only key and an empty table or array as value. -/
def choice {α : Type} (choices : List (String × α)) : Decoder α
  | .string name => choices.lookup name
  | .table [(name, .table [])] => choices.lookup name
  | .table [(name, .array [])] => choices.lookup name
  | _ => none

/-- A severity by its name in small letters. -/
def logLevel : Decoder LogLevel :=
  choice [("trace", .trace), ("debug", .debug), ("info", .info), ("warn", .warn),
    ("error", .error)]

/-- A control mode by its name. -/
def mode : Decoder Mode :=
  choice [("open_loop", .openLoop), ("rpm_target", .rpmTarget)]

end Decoder

/-- A key that a table recognises, with the setting that it stands for. -/
structure Field (α : Type) where
  key : String
  {β : Type}
  /-- Reads the value of the key. -/
  decode : Decoder β
  /-- The setting among all settings. -/
  get : α → β
  /-- All settings with this one changed. -/
  set : β → α → α

/-- Change the setting to what the value of the key says. -/
def Field.assign {α : Type} (field : Field α) (value : Value) (settings : α) : Option α :=
  (field.decode value).map (field.set · settings)

/-- An entry of a table may stand there: a field reads it, or all of it is
readable. -/
def tolerates {α : Type} (fields : List (Field α)) (entry : String × Value) : Bool :=
  fields.any (·.key == entry.1) || entry.2.isReadable

/-- Lay the recognised entries of a table over the settings. -/
def overlay? {α : Type} (fields : List (Field α)) (entries : Entries) (settings : α) :
    Option α :=
  if entries.all (tolerates fields) then
    fields.foldlM
      (fun settings field =>
        match entries.lookup field.key with
        | some value => field.assign value settings
        | none => some settings)
      settings
  else none

/-- Lay values over the settings field by field, in order. -/
def overlayItems? {α : Type} : List (Field α) → List Value → α → Option α
  | field :: fields, value :: values, settings => do
      let settings ← field.assign value settings
      overlayItems? fields values settings
  | _, _, settings => some settings

/-- Lay a table, or what may stand in its place, over the settings. -/
def overlayValue? {α : Type} (fields : List (Field α)) (value : Value) (settings : α) :
    Option α :=
  match value with
  | .table entries => overlay? fields entries settings
  | .array items => overlayItems? fields items settings
  | .dateTime _ => some settings
  | _ => none

namespace ControlConfig

/-- The keys of the control table. -/
def fields : List (Field ControlConfig) :=
  [⟨"spinup_voltage", Decoder.single, (·.spinupVoltage),
     fun x c => { c with spinupVoltage := x }⟩,
   ⟨"duty_step_max", Decoder.single, (·.dutyStepMax),
     fun x c => { c with dutyStepMax := x }⟩,
   ⟨"duty_slope", Decoder.single, (·.dutySlope), fun x c => { c with dutySlope := x }⟩,
   ⟨"filter_tau", Decoder.single, (·.filterTau), fun x c => { c with filterTau := x }⟩,
   ⟨"poles", Decoder.word32, (·.poles), fun x c => { c with poles := x }⟩,
   ⟨"reverse", Decoder.boolean, (·.reverse), fun x c => { c with reverse := x }⟩,
   ⟨"rpm_min", Decoder.word32, (·.rpmMin), fun x c => { c with rpmMin := x }⟩,
   ⟨"control_period_us", Decoder.word64, (·.controlPeriodMicros),
     fun x c => { c with controlPeriodMicros := x }⟩,
   ⟨"setpoint_timeout_ms", Decoder.word64, (·.setpointTimeoutMillis),
     fun x c => { c with setpointTimeoutMillis := x }⟩,
   ⟨"rt_priority", Decoder.signed32, (·.rtPriority), fun x c => { c with rtPriority := x }⟩]

/-- The control settings of a value in place of the control table. -/
def decode : Decoder ControlConfig :=
  fun value => overlayValue? fields value .standard

end ControlConfig

namespace SimulationConfig

/-- The keys of the simulation table. -/
def fields : List (Field SimulationConfig) :=
  [⟨"bus_voltage", Decoder.single, (·.busVoltage), fun x c => { c with busVoltage := x }⟩,
   ⟨"source_resistance", Decoder.single, (·.sourceResistance),
     fun x c => { c with sourceResistance := x }⟩,
   ⟨"kv", Decoder.single, (·.kv), fun x c => { c with kv := x }⟩,
   ⟨"poles", Decoder.word32, (·.poles), fun x c => { c with poles := x }⟩,
   ⟨"spinup_time_ms", Decoder.word64, (·.spinupTimeMillis),
     fun x c => { c with spinupTimeMillis := x }⟩,
   ⟨"time_constant_ms", Decoder.word64, (·.timeConstantMillis),
     fun x c => { c with timeConstantMillis := x }⟩,
   ⟨"stall_rpm", Decoder.single, (·.stallRpm), fun x c => { c with stallRpm := x }⟩,
   ⟨"full_load_current", Decoder.single, (·.fullLoadCurrent),
     fun x c => { c with fullLoadCurrent := x }⟩,
   ⟨"min_comm_period_hnsec", Decoder.word32, (·.minCommutationPeriod),
     fun x c => { c with minCommutationPeriod := x }⟩]

/-- The simulation settings of a value in place of the simulation table. -/
def decode : Decoder SimulationConfig :=
  fun value => overlayValue? fields value .standard

end SimulationConfig

namespace DriverConfig

/-- The keys of the driver table. -/
def fields : List (Field DriverConfig) :=
  [⟨"name", Decoder.string, (·.name), fun x _ => ⟨x⟩⟩]

/-- The driver selection of a value in place of the driver table. -/
def decode : Decoder DriverConfig :=
  fun value => overlayValue? fields value .standard

end DriverConfig

/-- The shared table while its required name may still be missing. -/
structure SharedDraft where
  logLevel : LogLevel
  serviceName : Option String

namespace SharedDraft

/-- Nothing is set yet. -/
def empty : SharedDraft :=
  ⟨.info, none⟩

/-- The settings, if the name is present. -/
def finish? (d : SharedDraft) : Option SharedConfig :=
  d.serviceName.map (⟨d.logLevel, ·⟩)

end SharedDraft

namespace SharedConfig

/-- The keys of the shared table. -/
def fields : List (Field SharedDraft) :=
  [⟨"log_level", Decoder.logLevel, (·.logLevel), fun x c => { c with logLevel := x }⟩,
   ⟨"service_name", fun value => (Decoder.string value).map some, (·.serviceName),
     fun x c => { c with serviceName := x }⟩]

/-- The shared settings of a value in place of the shared table. -/
def decode : Decoder SharedConfig :=
  fun value => (overlayValue? fields value .empty).bind (·.finish?)

end SharedConfig

namespace Config

/-- The tables of a document. -/
def fields : List (Field Config) :=
  [⟨"shared", SharedConfig.decode, (·.shared), fun x c => { c with shared := x }⟩,
   ⟨"driver", DriverConfig.decode, (·.driver), fun x c => { c with driver := x }⟩,
   ⟨"control", ControlConfig.decode, (·.control), fun x c => { c with control := x }⟩,
   ⟨"simulation", SimulationConfig.decode, (·.simulation),
     fun x c => { c with simulation := x }⟩]

/-- The configuration of a document. -/
def ofEntries? (entries : Entries) : Option Config :=
  overlay? fields entries .standard

end Config

namespace Mode

/-- The one key of a document that only holds a mode. -/
def fields : List (Field (Option Mode)) :=
  [⟨"mode", fun value => (Decoder.mode value).map some, id, fun x _ => x⟩]

/-- The mode of a document with the single required key `mode`. -/
def ofEntries? (entries : Entries) : Option Mode :=
  (overlay? fields entries none).join

end Mode

end MotorSupervisor
