import MotorSupervisor.Decimal.Shortest

/-!
# Rules on configuration values

Each constructor of `Violation` is one rule that a configuration can break,
with the offending value where the report shows it.
-/

namespace MotorSupervisor

/-- Longest setpoint timeout in milliseconds whose length in clock ticks fits
a 64-bit word. -/
def maxTimeoutMillis : Nat :=
  (UInt64.size - 1) / 10000

/-- A broken rule. -/
inductive Violation
  | emptyServiceName
  | controlPoles
  | spinupVoltage (value : Single)
  | dutyStepMax (value : Single)
  | dutySlope (value : Single)
  | filterTau (value : Single)
  | controlPeriod
  | setpointTimeout (millis : UInt64)
  | busVoltage
  | velocityConstant
  | simulationPoles (count : UInt32)
  | timeConstant
  | commutationLimit
  | polesDiffer (control simulation : UInt32)
deriving DecidableEq

/-- What the rule asks for. -/
def Violation.message : Violation → String
  | emptyServiceName => "shared.service_name must not be empty"
  | controlPoles => "control.poles must be greater than 0"
  | spinupVoltage value => s!"control.spinup_voltage must be positive, got {value.text}"
  | dutyStepMax value => s!"control.duty_step_max must be non-negative, got {value.text}"
  | dutySlope value => s!"control.duty_slope must be positive, got {value.text}"
  | filterTau value => s!"control.filter_tau must be non-negative, got {value.text}"
  | controlPeriod => "control.control_period_us must be greater than 0"
  | setpointTimeout millis =>
      s!"control.setpoint_timeout_ms must be at most {maxTimeoutMillis}, got {millis}"
  | busVoltage => "simulation.bus_voltage must be positive"
  | velocityConstant => "simulation.kv must be positive"
  | simulationPoles count =>
      s!"simulation.poles must be a positive even number, got {count}"
  | timeConstant => "simulation.time_constant_ms must be greater than 0"
  | commutationLimit => "simulation.min_comm_period_hnsec must be greater than 0"
  | polesDiffer control simulation =>
      s!"control.poles ({control}) must match simulation.poles ({simulation})"

end MotorSupervisor
