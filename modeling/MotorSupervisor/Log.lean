import MotorSupervisor.Config.Basic
import MotorSupervisor.Control.State
import MotorSupervisor.CycleStats

/-!
# Log events

Everything the library reports is an `Event`.  `Event.level` gives its
severity and `Event.message` its text; no other place writes log texts.
`Event.line` and `Event.dataLine` are the two forms in which a log is written.
-/

namespace MotorSupervisor

/-- Something worth reporting. -/
inductive Event
  -- bringing up
  | driverReady (name : String)
  | speedRange (lowest highest poles : UInt32)
  | voltageRefused (voltage : Single)
  | loopStarted (period : Span)
  -- control cycles
  | setpointTimeout (seconds : Single)
  | startingMotor (duty : Single) (mode : Mode) (reverse : Bool)
  | speedControlMissing
  | noDutyTarget
  | timingViolation (number : UInt64) (body budget : Span)
  | loopStatistics (stats : CycleStats)
  -- shutting down
  | shutdownRequested
  | loopStopped
  -- simulated motor
  | simulationReady (config : SimulationConfig)
  | startIgnored (state : RunState)
  | rotorSpinup (duty target : Single) (reverse : Bool)
  | rotorRunning (speed : Single)
  | rotorStalled (speed : Single)
  | rotorStopped (speed : Single)
  -- the program
  | programStarted (version : String)
  | configAccepted (service driver : String) (periodMicros : UInt64)
  | knownDrivers (names : List String)
  | dutySelected (duty : Single)
  | rpmSelected (rpm : UInt32)
  | report (status : Status)
  | durationElapsed
  | loopSummary (stats : CycleStats)
  | programFailed (reason : String)
  | programFinished

namespace Event

/-- Severity of an event. -/
def level : Event → LogLevel
  | startIgnored _ => .trace
  | startingMotor _ _ _ => .debug
  | noDutyTarget => .debug
  | loopStatistics _ => .debug
  | rotorSpinup _ _ _ => .debug
  | rotorRunning _ => .debug
  | rotorStalled _ => .debug
  | rotorStopped _ => .debug
  | setpointTimeout _ => .warn
  | speedControlMissing => .warn
  | timingViolation _ _ _ => .warn
  | voltageRefused _ => .error
  | knownDrivers _ => .error
  | programFailed _ => .error
  | _ => .info

/-- Text of an event. -/
def message : Event → String
  | driverReady name => s!"Motor driver '{name}' initialized"
  | speedRange lowest highest poles =>
      s!"Motor control: RPM range: [{lowest}, {highest}]; poles: {poles}"
  | voltageRefused voltage => s!"Motor control: invalid input voltage: {voltage.text}"
  | loopStarted period => s!"Control thread started (period={period.micros}us, rt=false)"
  | setpointTimeout seconds =>
      s!"Setpoint timeout after {seconds.fixed 3}s, zeroing setpoints"
  | startingMotor duty mode reverse =>
      s!"Starting motor: spinup_duty={duty.fixed 4}, mode={mode.name}, reverse={reverse}"
  | speedControlMissing => "RPM control is not implemented, stopping motor"
  | noDutyTarget => "No valid duty cycle target, stopping motor"
  | timingViolation number body budget =>
      s!"Timing violation #{number}: cycle took {body.micros}us (target {budget.micros}us)"
  | loopStatistics stats =>
      s!"Control loop: {stats.cycles} cycles, avg={stats.mean}us, " ++
        s!"max={stats.longest}us, overruns={stats.overruns}"
  | shutdownRequested => "Motor control shutdown requested"
  | loopStopped => "Control thread stopped"
  | simulationReady config =>
      s!"Initializing simulation driver: bus={config.busVoltage.fixed 1}V, " ++
        s!"kv={config.kv.fixed 0}, poles={config.poles}, " ++
        s!"limit={config.minCommutationPeriod}hnsec"
  | startIgnored state => s!"Start ignored in state {state.name}"
  | rotorSpinup duty target reverse =>
      s!"Rotor spin-up: duty={duty.fixed 3}, target={target.fixed 0} RPM, reverse={reverse}"
  | rotorRunning speed => s!"Rotor running at {speed.fixed 0} RPM"
  | rotorStalled speed => s!"Rotor stalled at {speed.fixed 0} RPM"
  | rotorStopped speed => s!"Rotor stopped at {speed.fixed 0} RPM"
  | programStarted version => s!"ESC Control v{version} starting..."
  | configAccepted service driver periodMicros =>
      s!"Config OK: service={service}, driver={driver}, period={periodMicros}us"
  | knownDrivers names => "Available drivers: " ++ ", ".intercalate names
  | dutySelected duty => s!"Setpoint: duty cycle {duty.text}"
  | rpmSelected rpm => s!"Setpoint: {rpm} RPM"
  | report status =>
      s!"mode={status.mode.name} running={status.running} duty={status.duty.fixed 3} " ++
        s!"rpm={status.rpm} limits={status.limits.describe} " ++
        s!"V={status.supply.voltage.fixed 2} I={status.supply.current.fixed 2}"
  | durationElapsed => "Requested duration elapsed"
  | loopSummary stats =>
      s!"Control loop ran {stats.cycles} cycles (avg={stats.mean}us, " ++
        s!"max={stats.longest}us, overruns={stats.overruns})"
  | programFailed reason => s!"FATAL: {reason}"
  | programFinished => "ESC Control shutdown complete"

/-- Severity and text of an event. -/
def text (e : Event) : String :=
  s!"{e.level.label} {e.message}"

/-- A character of a log line.  Control characters that a terminal could take
for the start of a command are spelled out. -/
def visible (c : Char) : String :=
  if c = '\x07' then "\\x07"
  else if c = '\x08' then "\\x08"
  else if c = '\x0c' then "\\x0c"
  else if c = '\x1b' then "\\x1b"
  else if c = '\x7f' then "\\x7f"
  else if '\u0080' ≤ c ∧ c ≤ '\u009f' then
    "\\u\x7b" ++ String.ofList (Nat.toDigits 16 c.toNat) ++ "\x7d"
  else c.toString

/-- The log line of an event. -/
def line (e : Event) : String :=
  String.join (e.text.toList.map visible)

/-- A character inside a quoted text of a data line. -/
def escaped (c : Char) : String :=
  if c = '"' then "\\\""
  else if c = '\\' then "\\\\"
  else if c = '\n' then "\\n"
  else if c < ' ' then
    (if c.toNat < 16 then "\\u000" else "\\u00") ++ String.ofList (Nat.toDigits 16 c.toNat)
  else c.toString

/-- The log line of an event as data, one object per line. -/
def dataLine (e : Event) : String :=
  let text := e.message.toList.map escaped
  "\x7b\"level\":\"" ++ e.level.label ++ "\",\"message\":\"" ++ String.join text ++ "\"\x7d"

end Event

namespace Parameters

/-- The report of the speed range that the parameters allow. -/
def announcement (p : Parameters) : Event :=
  .speedRange p.rpmMin p.rpmMax p.poles.count

end Parameters
end MotorSupervisor
