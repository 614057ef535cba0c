import MotorSupervisor.Driver.Basic

/-!
# The motor controller

The controller ties the control cycle to a driver and to a clock.  Setters
select a mode and its setpoint at any time; a cycle measures the time since
the previous one, drops setpoints that are too old, filters the bus readings,
runs the control step and hands its command to the driver.

**Bringing up** happens in a fixed order: the configuration is checked, the
driver is brought up, the parameters are derived, and the first reading of the
bus voltage has to lie between four and forty volts.

**Running.**  `Controller.step` takes one `Input` and returns what the step
did as a `StepResult`; `Controller.run` does so for a list of inputs.  After
the first shutdown no cycle runs any more, and only setters have an effect.
-/

namespace MotorSupervisor

/-- Why a controller could not be brought up. -/
inductive InitError
  | config (error : ConfigError)
  | driver (error : DriverError)
  | inputVoltage (voltage : Single)
deriving DecidableEq

/-- Lowest bus voltage that is accepted at the start. -/
def minInputVoltage : Single :=
  4

/-- Highest bus voltage that is accepted at the start. -/
def maxInputVoltage : Single :=
  40

/-- The text of an error. -/
def InitError.message : InitError → String
  | config error => s!"Configuration error: {error.message}"
  | driver error => s!"Driver error: {error.message}"
  | inputVoltage voltage =>
      s!"Invalid input voltage: {voltage.fixed 2}V " ++
        s!"(valid range {minInputVoltage.text}..{maxInputVoltage.text}V)"

/-- A controller with its driver. -/
structure Controller (δ : Type) where
  parameters : Parameters
  /-- Nominal period, the budget of a cycle. -/
  period : Span
  /-- Setpoints older than this many clock ticks are dropped; `0` keeps
  them. -/
  timeout : UInt64
  state : ControlState
  driver : δ
  stats : CycleStats
  /-- Clock reading of the latest setter call. -/
  lastSetter : UInt64
  /-- Clock reading of the latest cycle. -/
  lastCycle : UInt64
  /-- No shutdown yet. -/
  active : Bool

/-- Something that happens to a controller. -/
inductive Input (κ : Type)
  /-- The duty setter is called at a clock reading. -/
  | setDuty (duty : Single) (now : UInt64)
  /-- The speed setter is called at a clock reading. -/
  | setRpm (rpm : UInt32) (now : UInt64)
  /-- A control cycle runs at a clock reading and takes some time. -/
  | cycle (now : UInt64) (body : Span)
  /-- The driver changes on its own. -/
  | change (c : κ)
  /-- The controller is shut down. -/
  | shutdown

/-- What a step did. -/
structure StepResult where
  /-- Outcome of the control cycle, if one ran. -/
  outcome : Option Outcome
  /-- The command that was given to the driver. -/
  command : Option Command
  log : List Event

namespace StepResult

/-- A step without any visible effect. -/
def silent : StepResult :=
  ⟨none, none, []⟩

end StepResult

/-- The setpoint that a requested duty amounts to. -/
def clampDuty (duty : Single) : Single :=
  if duty.isNaN then 0 else duty.clamp 0 1

/-- Length of a timeout in clock ticks, as far as a word can hold it. -/
def timeoutTicks (millis : UInt64) : UInt64 :=
  UInt64.ofNat (Nat.min (millis.toNat * Clock.ticksPerMilli) (UInt64.size - 1))

namespace ControlState

/-- A setpoint is held in either mode. -/
def holdsSetpoint (s : ControlState) : Bool :=
  decide (0 < s.dutySetpoint) || decide (0 < s.rpmSetpoint)

/-- Drop the setpoints when the latest setter call is too long ago. -/
def expire (timeout lastSetter now : UInt64) (s : ControlState) :
    ControlState × List Event :=
  if timeout ≠ 0 ∧ s.holdsSetpoint ∧ timeout < Clock.elapsed lastSetter now then
    ({ s with dutySetpoint := 0, rpmSetpoint := 0 },
      [.setpointTimeout (Clock.toSeconds (now - lastSetter))])
  else (s, [])

end ControlState

namespace Controller

variable {δ : Type} [MotorDriver δ]

/-- The controller of a driver that is up, before its first cycle.  One clock reading
stands for two: the time that counts as the latest setter call, and the reading that the
control loop takes when it starts, from which its first cycle measures. -/
def ready (config : ControlConfig) (parameters : Parameters) (now : UInt64) (d : δ) :
    Controller δ where
  parameters := parameters
  period := .ofMicros config.controlPeriodMicros.toNat
  timeout := timeoutTicks config.setpointTimeoutMillis
  state := ControlState.initial.seedFilters (MotorDriver.supply d)
  driver := d
  stats := .empty
  lastSetter := now
  lastCycle := now
  active := true

/-- The controller of a driver that is up, if its bus voltage is accepted. -/
def accept (config : ControlConfig) (valid : config.Valid) (now : UInt64) (d : δ) :
    Except InitError (Controller δ) × List Event :=
  let parameters :=
    Parameters.derive config valid.poles_pos (MotorDriver.periodLimit d)
  let (settled, drift) := MotorDriver.settle d
  let c := ready config parameters now settled
  let voltage := c.state.supply.voltage
  let log := [.driverReady (MotorDriver.name d), parameters.announcement] ++ drift
  if minInputVoltage ≤ voltage ∧ voltage ≤ maxInputVoltage then
    (.ok c, log ++ [.loopStarted c.period])
  else (.error (.inputVoltage voltage), log ++ [.voltageRefused voltage])

/-- Bring up a controller at a clock reading. -/
def init (config : ControlConfig) (now : UInt64) (d : δ) :
    Except InitError (Controller δ) × List Event :=
  match valid : config.violation? with
  | some violation => (.error (.config (.invalid violation)), [])
  | none =>
      match MotorDriver.bringUp d with
      | (.error e, log) => (.error (.driver e), log)
      | (.ok d, log) =>
          let (result, more) := accept config valid now d
          (result, log ++ more)

/-- Select the open-loop mode and its setpoint. -/
def setDuty (duty : Single) (now : UInt64) (c : Controller δ) : Controller δ :=
  { c with
    state := { c.state with mode := .openLoop, dutySetpoint := clampDuty duty }
    lastSetter := now }

/-- Select the target-speed mode and its setpoint. -/
def setRpm (rpm : UInt32) (now : UInt64) (c : Controller δ) : Controller δ :=
  { c with
    state :=
      { c.state with mode := .rpmTarget, rpmSetpoint := min rpm c.parameters.rpmMax }
    lastSetter := now }

/-- Warnings and statistics that follow a cycle.  The first ten overruns are
reported and then every thousandth; statistics every thousand cycles. -/
def timingEvents (body period : Span) (overrun : Bool) (stats : CycleStats) :
    List Event :=
  (if overrun ∧ (stats.overruns ≤ 10 ∨ stats.overruns % 1000 = 0) then
    [.timingViolation stats.overruns body period] else []) ++
  (if stats.cycles % 1000 = 0 then [.loopStatistics stats] else [])

/-- The control part of a cycle: drop old setpoints, filter the bus readings
and run the control step.  The driver is returned as the readings left it. -/
def control (dt : Single) (now : UInt64) (c : Controller δ) : δ × CycleResult :=
  let (held, expired) := c.state.expire c.timeout c.lastSetter now
  let (sampled, drift) := MotorDriver.settle c.driver
  let filtered := held.filter c.parameters.filterTau dt (MotorDriver.supply sampled)
  let (observed, readings, more) := MotorDriver.observe filtered.mode sampled
  let result := filtered.cycle c.parameters dt readings
  (observed, { result with log := expired ++ drift ++ more ++ result.log })

/-- One cycle of the control loop. -/
def cycle (now : UInt64) (body : Span) (c : Controller δ) : Controller δ × StepResult :=
  let dt := Clock.toSeconds (Clock.elapsed c.lastCycle now)
  let (observed, result) := c.control dt now
  let (driver, moved) := MotorDriver.performAll result.command observed
  let (stats, overrun) := c.stats.record body c.period dt
  ({ c with
      state := result.state
      driver := driver
      stats := stats
      lastCycle := now },
    { outcome := some result.outcome
      command := result.command
      log := result.log ++ moved ++ timingEvents body c.period overrun stats })

/-- Stop the control loop and then the motor. -/
def shutdown (c : Controller δ) : Controller δ × StepResult :=
  let (driver, moved) := MotorDriver.perform .stop c.driver
  ({ c with driver := driver, active := false },
    { outcome := none
      command := some .stop
      log := [.shutdownRequested, .loopStopped] ++ moved })

/-- One input. -/
def step (input : Input (MotorDriver.Change δ)) (c : Controller δ) :
    Controller δ × StepResult :=
  match input with
  | .setDuty duty now => (c.setDuty duty now, .silent)
  | .setRpm rpm now => (c.setRpm rpm now, .silent)
  | .cycle now body => if c.active then c.cycle now body else (c, .silent)
  | .change change =>
      let (driver, log) := MotorDriver.change change c.driver
      ({ c with driver := driver }, ⟨none, none, log⟩)
  | .shutdown => if c.active then c.shutdown else (c, .silent)

/-- A list of inputs, with the result of each step. -/
def run : List (Input (MotorDriver.Change δ)) → Controller δ →
    Controller δ × List StepResult
  | [], c => (c, [])
  | input :: inputs, c =>
      let (next, result) := c.step input
      let (last, results) := run inputs next
      (last, result :: results)

/-- What a caller reads of the state, given what it reads of the driver. -/
def statusOf (c : Controller δ) (period : UInt32) (runState : RunState) : Status where
  mode := c.state.mode
  limits := c.state.limits
  duty := c.state.duty
  dutySetpoint := c.state.dutySetpoint
  rpmSetpoint := c.state.rpmSetpoint
  rpm := c.parameters.poles.rpmOfPeriod period
  running := decide (runState ≠ .idle)
  supply := c.state.supply

/-- Everything a caller can read, with the controller after the accesses.  The
commutation period is accessed before the run state. -/
def status (c : Controller δ) : Controller δ × Status × List Event :=
  let (first, log) := MotorDriver.settle c.driver
  let (second, more) := MotorDriver.settle first
  ({ c with driver := second },
    c.statusOf (MotorDriver.period first) (MotorDriver.runState second), log ++ more)

end Controller
end MotorSupervisor
