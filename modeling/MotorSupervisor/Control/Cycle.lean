import MotorSupervisor.Log

/-!
# One control cycle

A cycle looks at the run state of the driver.

* While the driver spins the motor up, nothing is touched.
* At rest the spin-up duty is armed as the present duty, and a start is
  commanded if the active setpoint asks for one.
* While the motor runs, the active mode demands a duty or a stop.  A demanded
  duty is approached by at most one slewed step; anything else stops the motor
  and resets every setpoint.

The cycle is a pure function.  What it wants of the driver is returned as a
`Command`, at most one per cycle, together with the events to log before the
command is carried out.
-/

namespace MotorSupervisor

/-- What can be asked of a driver. -/
inductive Command
  /-- Begin spin-up at a duty and continue at another one. -/
  | start (target spinup : Single) (reverse : Bool)
  /-- Switch the outputs off. -/
  | stop
  /-- Apply a duty cycle. -/
  | setDuty (duty : Single)
deriving DecidableEq

/-- What a mode demands of a cycle. -/
inductive Demand
  /-- Drive at this duty, before slewing. -/
  | drive (duty : Single)
  /-- Stop the motor. -/
  | stop
  /-- The mode has no controller; the motor is stopped. -/
  | unavailable
deriving DecidableEq

/-- The duty that is driven towards; only finite ones are. -/
def Demand.target? : Demand → Option Single
  | drive duty => if duty.isFinite then some duty else none
  | _ => none

/-- What a cycle did. -/
inductive Outcome
  /-- Spin-up in progress, nothing touched. -/
  | starting
  /-- At rest, spin-up duty armed. -/
  | idle (startCommanded : Bool)
  /-- Duty applied. -/
  | driving (duty : Single) (slewed : Bool)
  /-- Motor stopped. -/
  | stopped (unavailable : Bool)
deriving DecidableEq

/-- The readings of the driver that a cycle uses. -/
structure Readings where
  runState : RunState
  /-- Commutation period; `0` at rest. -/
  period : UInt32
deriving DecidableEq

/-- The result of a cycle. -/
structure CycleResult where
  state : ControlState
  outcome : Outcome
  command : Option Command
  log : List Event

namespace ControlState

/-- Width of the ramp of the speed cap, from half the limit to the limit.  Half
of an odd limit is truncated. -/
def rampWidth (limit : UInt32) : Single :=
  Binary.ofNat limit.toNat - Binary.ofNat (limit / 2).toNat

/-- The duty of the speed cap: a straight ramp over commutation periods, from
`0` at half the limit to `1` at the limit. -/
def ramp (limit period : UInt32) : Single :=
  (Binary.ofNat period.toNat - Binary.ofNat (limit / 2).toNat) / rampWidth limit

/-- The open-loop mode: the setpoint, capped by the ramp when the commutation
period is below its limit.  The cap sets the speed limit flag. -/
def openLoop (p : Parameters) (period : UInt32) (s : ControlState) :
    ControlState × Demand :=
  if period = 0 then (s, .stop)
  else
    let cap := ramp p.periodLimit period
    if period < p.periodLimit ∧ cap < s.dutySetpoint then
      ({ s with limits := s.limits.insert ⟨true, false⟩ }, .drive cap)
    else
      ({ s with limits := s.limits.remove ⟨true, false⟩ },
        if 0 < s.dutySetpoint then .drive s.dutySetpoint else .stop)

/-- The target-speed mode, which has no controller. -/
def targetSpeed (s : ControlState) : ControlState × Demand :=
  (s, .unavailable)

/-- The demand of the active mode. -/
def demand (p : Parameters) (period : UInt32) (s : ControlState) :
    ControlState × Demand :=
  match s.mode with
  | .openLoop => s.openLoop p period
  | .rpmTarget => s.targetSpeed

/-- Move the duty towards a target.  A jump beyond the step limit becomes one
step of slope times elapsed time, and sets the acceleration flag. -/
def slew (p : Parameters) (dt target : Single) (s : ControlState) :
    ControlState × Bool :=
  if p.dutyStepMax < (target - s.duty).abs then
    let step := p.dutySlope * dt
    let signed := if target < s.duty then -step else step
    ({ s with
        duty := s.duty + signed
        limits := s.limits.insert ⟨false, true⟩ }, true)
  else
    ({ s with duty := target, limits := s.limits.remove ⟨false, true⟩ }, false)

/-- The state after a stop: no limits, no duty, no setpoints. -/
def reset (s : ControlState) : ControlState :=
  { s with limits := .none, duty := 0, dutySetpoint := 0, rpmSetpoint := 0 }

/-- Duty that puts the spin-up voltage on the motor at the present bus
voltage. -/
def spinupDuty (p : Parameters) (s : ControlState) : Single :=
  p.spinupVoltage / s.supply.voltage

/-- The active setpoint asks for a start.  The two modes have thresholds of
their own. -/
def wantsStart (p : Parameters) (s : ControlState) : Bool :=
  match s.mode with
  | .openLoop => decide (s.spinupDuty p ≤ s.dutySetpoint)
  | .rpmTarget => decide (p.rpmMin ≤ s.rpmSetpoint)

/-- A cycle at rest: arm the spin-up duty and decide about a start. -/
def idleCycle (p : Parameters) (s : ControlState) : CycleResult :=
  let duty := s.spinupDuty p
  let armed := { s with duty := duty, limits := .none }
  if s.wantsStart p then
    { state := armed
      outcome := .idle true
      command := some (.start duty duty p.reverse)
      log := [.startingMotor duty s.mode p.reverse] }
  else
    { state := armed, outcome := .idle false, command := none, log := [] }

/-- A cycle while the motor does not run under control of the duty cycle. -/
def restingCycle (p : Parameters) (runState : RunState) (s : ControlState) :
    CycleResult :=
  match runState with
  | .starting => { state := s, outcome := .starting, command := none, log := [] }
  | _ => s.idleCycle p

/-- A cycle while the motor runs. -/
def runningCycle (p : Parameters) (dt : Single) (period : UInt32) (s : ControlState) :
    CycleResult :=
  let (demanded, demand) := s.demand p period
  match demand.target? with
  | some target =>
      let (slewed, engaged) := demanded.slew p dt target
      { state := slewed
        outcome := .driving slewed.duty engaged
        command := some (.setDuty slewed.duty)
        log := [] }
  | none =>
      let unavailable := decide (demand = .unavailable)
      { state := demanded.reset
        outcome := .stopped unavailable
        command := some .stop
        log := [if unavailable then .speedControlMissing else .noDutyTarget] }

/-- One control cycle, `dt` seconds after the previous one. -/
def cycle (p : Parameters) (dt : Single) (readings : Readings) (s : ControlState) :
    CycleResult :=
  match readings.runState with
  | .running => s.runningCycle p dt readings.period
  | runState => s.restingCycle p runState

end ControlState
end MotorSupervisor
