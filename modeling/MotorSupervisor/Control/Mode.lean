/-!
# Control modes, run states and limits

The vocabulary shared by the controller, the drivers and the reports: which
setpoint is active, what the motor is doing, and which limits shaped the last
control cycle.
-/

namespace MotorSupervisor

/-- Which setpoint drives the motor. -/
inductive Mode
  /-- A duty cycle; the speed only caps it. -/
  | openLoop
  /-- A target speed. -/
  | rpmTarget
deriving DecidableEq, Inhabited

/-- Name of a mode in reports. -/
def Mode.name : Mode → String
  | .openLoop => "OpenLoop"
  | .rpmTarget => "RpmTarget"

/-- What a driver reports about its motor. -/
inductive RunState
  /-- At rest, outputs off. -/
  | idle
  /-- The driver's own spin-up is in progress. -/
  | starting
  /-- Turning under control of the duty cycle. -/
  | running
deriving DecidableEq, Inhabited

/-- Name of a run state in reports. -/
def RunState.name : RunState → String
  | .idle => "Idle"
  | .starting => "Starting"
  | .running => "Running"

/-- The limits that shaped the output of a control cycle. -/
structure Limits where
  /-- Capped by the commutation-period ramp. -/
  rpm : Bool
  /-- Slewed by the duty-cycle rate limiter. -/
  accel : Bool
deriving DecidableEq

namespace Limits

/-- No limit. -/
def none : Limits := ⟨false, false⟩

/-- The limits of both sets. -/
def insert (l m : Limits) : Limits :=
  ⟨l.rpm || m.rpm, l.accel || m.accel⟩

/-- The limits of the first set that are not in the second. -/
def remove (l m : Limits) : Limits :=
  ⟨l.rpm && !m.rpm, l.accel && !m.accel⟩

/-- Every limit of the second set is in the first. -/
def contains (l m : Limits) : Bool :=
  (l.rpm || !m.rpm) && (l.accel || !m.accel)

/-- The mask of a set: one for the speed cap, two for the rate limiter. -/
def toBits (l : Limits) : Nat :=
  (if l.rpm then 1 else 0) + (if l.accel then 2 else 0)

/-- The set of a mask; other bits mean nothing. -/
def ofBits (bits : Nat) : Limits :=
  ⟨bits % 2 == 1, bits / 2 % 2 == 1⟩

/-- The set in reports. -/
def describe (l : Limits) : String :=
  match l.rpm, l.accel with
  | false, false => "LimitFlags(0x0)"
  | true, false => "LimitFlags(RPM)"
  | false, true => "LimitFlags(ACCEL)"
  | true, true => "LimitFlags(RPM | ACCEL)"

theorem ofBits_toBits (l : Limits) : ofBits l.toBits = l := by
  rcases l with ⟨rpm, accel⟩
  cases rpm <;> cases accel <;> rfl

end Limits
end MotorSupervisor
