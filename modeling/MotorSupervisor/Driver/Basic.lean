import MotorSupervisor.Control.Cycle

/-!
# Motor drivers

A driver is a state with readings that the controller takes from it and
commands that the controller gives it.  Between two accesses the driver may
change on its own: time passes for a simulated motor, a test rig is set up
differently.  Such a change is a value of the type that the driver names, so
that a run of the controller is a list of plain data.

A driver may notice only when it is accessed what has happened to it.  Each
reading is therefore taken from the driver as `settle` leaves it, and two
readings in a row need not agree.
-/

namespace MotorSupervisor

/-- Why a driver is not available. -/
inductive DriverError
  | initFailed (reason : String)
  | configRejected (reason : String)
  | notFound (name : String)
deriving DecidableEq

/-- The text of a driver error. -/
def DriverError.message : DriverError → String
  | initFailed reason => s!"Initialization failed: {reason}"
  | configRejected reason => s!"Configuration error: {reason}"
  | notFound name => s!"Driver not found: {name}"

/-- The interface through which the controller sees and moves a motor. -/
class MotorDriver (δ : Type) where
  /-- What can happen to the driver between accesses. -/
  Change : Type
  /-- The driver after a change. -/
  change : Change → δ → δ × List Event
  /-- The driver after it has caught up with its changes, before an access. -/
  settle : δ → δ × List Event := fun d => (d, [])
  /-- Name of the driver in reports. -/
  name : δ → String
  /-- Prepare the hardware. -/
  bringUp : δ → Except DriverError δ × List Event
  /-- What the motor is doing. -/
  runState : δ → RunState
  /-- Latest commutation period in clock ticks; `0` at rest. -/
  period : δ → UInt32
  /-- Shortest commutation period that the driver can follow. -/
  periodLimit : δ → UInt32
  /-- Raw voltage and current of the bus. -/
  supply : δ → Supply
  /-- Carry out a command. -/
  perform : Command → δ → δ × List Event

namespace MotorDriver

variable {δ : Type} [MotorDriver δ]

/-- The readings of the present state. -/
def readings (d : δ) : Readings :=
  ⟨runState d, period d⟩

/-- The readings that a control cycle takes in a mode, with the driver after
the accesses.  The commutation period is accessed only for a running motor in
the open-loop mode; nothing else depends on it. -/
def observe (mode : Mode) (d : δ) : δ × Readings × List Event :=
  let (first, log) := settle d
  if runState first = .running ∧ mode = .openLoop then
    let (second, more) := settle first
    (second, ⟨.running, period second⟩, log ++ more)
  else (first, readings first, log)

/-- Carry out a command, if there is one. -/
def performAll (command : Option Command) (d : δ) : δ × List Event :=
  match command with
  | some c => perform c d
  | none => (d, [])

end MotorDriver

/-- Either of two kinds of drivers is a driver.  A change meant for the other
kind has no effect. -/
instance {α β : Type} [MotorDriver α] [MotorDriver β] : MotorDriver (α ⊕ β) where
  Change := MotorDriver.Change α ⊕ MotorDriver.Change β
  change
    | .inl c, .inl d => ((MotorDriver.change c d).map .inl id)
    | .inr c, .inr d => ((MotorDriver.change c d).map .inr id)
    | _, d => (d, [])
  settle
    | .inl d => ((MotorDriver.settle d).map .inl id)
    | .inr d => ((MotorDriver.settle d).map .inr id)
  name := Sum.elim MotorDriver.name MotorDriver.name
  bringUp
    | .inl d => ((MotorDriver.bringUp d).map (·.map .inl) id)
    | .inr d => ((MotorDriver.bringUp d).map (·.map .inr) id)
  runState := Sum.elim MotorDriver.runState MotorDriver.runState
  period := Sum.elim MotorDriver.period MotorDriver.period
  periodLimit := Sum.elim MotorDriver.periodLimit MotorDriver.periodLimit
  supply := Sum.elim MotorDriver.supply MotorDriver.supply
  perform
    | c, .inl d => ((MotorDriver.perform c d).map .inl id)
    | c, .inr d => ((MotorDriver.perform c d).map .inr id)

end MotorSupervisor
