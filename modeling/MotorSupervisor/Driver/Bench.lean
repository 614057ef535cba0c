import MotorSupervisor.Driver.Basic

/-!
# Bench driver

A driver without a motor model: its readings are whatever they were set to.
A start puts it into a given run state, a stop puts it to rest.
-/

namespace MotorSupervisor

/-- A driver whose readings are set by hand. -/
structure BenchDriver where
  name : String
  runState : RunState
  period : UInt32
  supply : Supply
  /-- Run state after a start. -/
  startsAs : RunState
  /-- Commutation period after a start straight into running. -/
  runningPeriod : UInt32
  periodLimit : UInt32
  /-- Bringing the driver up fails with this error. -/
  fault : Option DriverError
deriving DecidableEq

namespace BenchDriver

/-- The usual bench: at rest on twelve volts. -/
def standard (name : String) : BenchDriver where
  name := name
  runState := .idle
  period := 0
  supply := ⟨12, 0⟩
  startsAs := .starting
  runningPeriod := 5000
  periodLimit := 700
  fault := none

/-- Carry out a command.  A duty has no effect on any reading. -/
def perform : Command → BenchDriver → BenchDriver
  | .start _ _ _, d =>
      { d with
        runState := d.startsAs
        period := if d.startsAs = .running then d.runningPeriod else d.period }
  | .stop, d => { d with runState := .idle, period := 0 }
  | .setDuty _, d => d

end BenchDriver

instance : MotorDriver BenchDriver where
  Change := BenchDriver
  change new _ := (new, [])
  name d := d.name
  bringUp d :=
    (match d.fault with
      | some e => .error e
      | none => .ok d, [])
  runState d := d.runState
  period d := d.period
  periodLimit d := d.periodLimit
  supply d := d.supply
  perform c d := (d.perform c, [])

end MotorSupervisor
