import MotorSupervisor.Commutation
import MotorSupervisor.Config.Control
import MotorSupervisor.Control.Mode
import MotorSupervisor.LowPass

/-!
# Parameters and state of the control loop

`Parameters` are fixed when the controller is brought up.  `ControlState` is
what the control cycle and the two setters change, and `Status` is what a
report shows of it together with the readings of the driver.
-/

namespace MotorSupervisor

/-- Constants of the control loop. -/
structure Parameters where
  /-- Voltage applied during spin-up. -/
  spinupVoltage : Single
  /-- Largest change of the duty cycle in one cycle without slewing. -/
  dutyStepMax : Single
  /-- Slew rate beyond that step, per second. -/
  dutySlope : Single
  /-- Time constant of the filters. -/
  filterTau : Single
  /-- Poles of the motor. -/
  poles : PoleCount
  /-- Direction of a start. -/
  reverse : Bool
  /-- Shortest commutation period the driver can follow; below it the
  open-loop ramp caps the duty cycle. -/
  periodLimit : UInt32
  /-- Lowest target speed that commands a start. -/
  rpmMin : UInt32

namespace Parameters

/-- Speed at the shortest commutation period. -/
def rpmMax (p : Parameters) : UInt32 :=
  p.poles.rpmOfPeriod p.periodLimit

/-- The parameters of a configuration with at least one pole. -/
def derive (config : ControlConfig) (positive : 0 < config.poles)
    (periodLimit : UInt32) : Parameters where
  spinupVoltage := config.spinupVoltage
  dutyStepMax := config.dutyStepMax
  dutySlope := config.dutySlope
  filterTau := config.filterTau
  poles := ⟨config.poles, positive⟩
  reverse := config.reverse
  periodLimit := periodLimit
  rpmMin := config.rpmMin

/-- The parameters of any configuration. -/
def derive? (config : ControlConfig) (periodLimit : UInt32) :
    Except PoleFault Parameters :=
  if positive : 0 < config.poles then .ok (derive config positive periodLimit)
  else .error .notPositive

end Parameters

/-- Voltage and current of the bus. -/
structure Supply where
  voltage : Single
  current : Single
deriving DecidableEq

/-- What the control loop remembers between cycles. -/
structure ControlState where
  /-- Selected by the last setter. -/
  mode : Mode
  /-- Limits that shaped the last cycle. -/
  limits : Limits
  /-- Last commanded duty cycle. -/
  duty : Single
  /-- Setpoint of the open-loop mode. -/
  dutySetpoint : Single
  /-- Setpoint of the target-speed mode. -/
  rpmSetpoint : UInt32
  /-- Filtered voltage and current of the bus. -/
  supply : Supply
deriving DecidableEq

namespace ControlState

/-- The state before the first reading. -/
def initial : ControlState where
  mode := .openLoop
  limits := .none
  duty := 0
  dutySetpoint := 0
  rpmSetpoint := 0
  supply := ⟨0, 0⟩

/-- Start the filters at a reading. -/
def seedFilters (s : ControlState) (reading : Supply) : ControlState :=
  { s with supply := reading }

/-- Fold a reading into the filters. -/
def filter (s : ControlState) (tau dt : Single) (reading : Supply) : ControlState :=
  { s with
    supply :=
      ⟨lowPass tau dt s.supply.voltage reading.voltage,
        lowPass tau dt s.supply.current reading.current⟩ }

end ControlState

/-- A snapshot of everything a caller can read. -/
structure Status where
  mode : Mode
  limits : Limits
  duty : Single
  dutySetpoint : Single
  rpmSetpoint : UInt32
  /-- Measured speed; `0` at rest. -/
  rpm : UInt32
  /-- The driver is not idle. -/
  running : Bool
  supply : Supply
deriving DecidableEq

end MotorSupervisor
