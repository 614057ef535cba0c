import MotorSupervisor.Config.Control

/-!
# Parameters of the simulated motor
-/

namespace MotorSupervisor

/-- Parameters of the simulated motor and its supply. -/
structure SimulationConfig where
  /-- Supply voltage without load, in volts. -/
  busVoltage : Single
  /-- Series resistance of the supply, in ohms. -/
  sourceResistance : Single
  /-- Velocity constant of the motor, in revolutions per minute and volt. -/
  kv : Single
  /-- Pole count of the motor. -/
  poles : UInt32
  /-- Duration of the spin-up, in milliseconds. -/
  spinupTimeMillis : UInt64
  /-- Time constant of the speed, in milliseconds. -/
  timeConstantMillis : UInt64
  /-- Speed below which a running motor stalls. -/
  stallRpm : Single
  /-- Current drawn at full duty, in amperes. -/
  fullLoadCurrent : Single
  /-- Shortest commutation period the driver can follow, in clock ticks. -/
  minCommutationPeriod : UInt32
deriving DecidableEq

namespace SimulationConfig

/-- The motor that is simulated unless the configuration says otherwise. -/
def standard : SimulationConfig where
  busVoltage := 12
  sourceResistance := 0.05
  kv := 920
  poles := 14
  spinupTimeMillis := 200
  timeConstantMillis := 80
  stallRpm := 300
  fullLoadCurrent := 8
  minCommutationPeriod := 700

/-- The first broken rule, if any.  Voltage and velocity constant are refused
when they compare as not positive; a value that is not a number compares as
nothing and is not refused. -/
def violation? (c : SimulationConfig) : Option Violation :=
  if c.busVoltage ≤ 0 then some .busVoltage
  else if c.kv ≤ 0 then some .velocityConstant
  else if c.poles = 0 ∨ c.poles % 2 ≠ 0 then some (.simulationPoles c.poles)
  else if c.timeConstantMillis = 0 then some .timeConstant
  else if c.minCommutationPeriod = 0 then some .commutationLimit
  else none

/-- No rule is broken. -/
def Valid (c : SimulationConfig) : Prop :=
  c.violation? = none

instance (c : SimulationConfig) : Decidable c.Valid :=
  inferInstanceAs (Decidable (c.violation? = none))

end SimulationConfig
end MotorSupervisor
