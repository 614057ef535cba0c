import MotorSupervisor.Config.Violation

/-!
# Control loop tuning

The settings of the control loop with the values it was tuned for, and the
rules that they have to keep.  The rules are checked in a fixed order and the
first broken one is reported.
-/

namespace MotorSupervisor

/-- Settings of the control loop. -/
structure ControlConfig where
  /-- Voltage applied during spin-up, in volts. -/
  spinupVoltage : Single
  /-- Largest change of the duty cycle in one cycle without slewing. -/
  dutyStepMax : Single
  /-- Slew rate of the duty cycle beyond that step, per second. -/
  dutySlope : Single
  /-- Time constant of the filters for bus voltage and current. -/
  filterTau : Single
  /-- Pole count of the motor. -/
  poles : UInt32
  /-- Direction passed to the driver at a start. -/
  reverse : Bool
  /-- Lowest target speed that commands a start. -/
  rpmMin : UInt32
  /-- Nominal period of the control loop in microseconds. -/
  controlPeriodMicros : UInt64
  /-- Setpoints are dropped this long after the last setter call, in
  milliseconds; `0` keeps them. -/
  setpointTimeoutMillis : UInt64
  /-- Real-time priority of the control thread; `0` asks for none. -/
  rtPriority : Int32
deriving DecidableEq

namespace ControlConfig

/-- Nominal control period in microseconds. -/
def nominalPeriodMicros : UInt64 :=
  1000

/-- The tuning that the loop was built with. -/
def standard : ControlConfig where
  spinupVoltage := 2
  dutyStepMax := 0.2
  dutySlope := 1
  filterTau := 2
  poles := 14
  reverse := false
  rpmMin := 500
  controlPeriodMicros := nominalPeriodMicros
  setpointTimeoutMillis := 0
  rtPriority := 0

/-- The first broken rule, if any.  Comparisons fail on a value that is not a
number, so such a value breaks its rule. -/
def violation? (c : ControlConfig) : Option Violation :=
  if c.poles = 0 then some .controlPoles
  else if ¬ (0 < c.spinupVoltage) then some (.spinupVoltage c.spinupVoltage)
  else if ¬ (0 ≤ c.dutyStepMax) then some (.dutyStepMax c.dutyStepMax)
  else if ¬ (0 < c.dutySlope) then some (.dutySlope c.dutySlope)
  else if ¬ (0 ≤ c.filterTau) then some (.filterTau c.filterTau)
  else if c.controlPeriodMicros = 0 then some .controlPeriod
  else if maxTimeoutMillis < c.setpointTimeoutMillis.toNat then
    some (.setpointTimeout c.setpointTimeoutMillis)
  else none

/-- No rule is broken. -/
def Valid (c : ControlConfig) : Prop :=
  c.violation? = none

instance (c : ControlConfig) : Decidable c.Valid :=
  inferInstanceAs (Decidable (c.violation? = none))

/-- A valid configuration has a pole. -/
theorem Valid.poles_pos {c : ControlConfig} (h : c.Valid) : 0 < c.poles := by
  unfold Valid violation? at h
  split at h
  · cases h
  · rename_i hpoles
    exact UInt32.pos_iff_ne_zero.2 hpoles

end ControlConfig
end MotorSupervisor
