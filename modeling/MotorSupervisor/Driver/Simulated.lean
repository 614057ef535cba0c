import MotorSupervisor.Driver.Basic
import MotorSupervisor.Rotor

/-!
# Drivers of the simulated rotor

Both drivers hand the controller's commands to a `Rotor` and read it back.

* `RotorDriver` is a bare rotor for test rigs: it takes any parameters and
  only moves when told to.
* `SimulatedDriver` is the driver that a service selects by name: it refuses
  parameters that break a rule, and it starts with a rotor at rest.  It moves
  the rotor when it is accessed, by the time since the access before.
-/

namespace MotorSupervisor

/-- Hand a command to a rotor. -/
def Rotor.perform : Command → Rotor → Rotor × List Event
  | .start target spinup reverse, r => r.start target spinup reverse
  | .stop, r => r.stop
  | .setDuty duty, r => (r.setDuty duty, [])

/-- A bare rotor under a name. -/
structure RotorDriver where
  name : String
  rotor : Rotor
  /-- Bringing the driver up fails with this error. -/
  fault : Option DriverError
deriving DecidableEq

instance : MotorDriver RotorDriver where
  Change := Span
  change elapsed d :=
    let (rotor, log) := d.rotor.advance elapsed
    ({ d with rotor := rotor }, log)
  name d := d.name
  bringUp d :=
    (match d.fault with
      | some e => .error e
      | none => .ok d, [])
  runState d := d.rotor.state
  period d := d.rotor.period
  periodLimit d := d.rotor.config.minCommutationPeriod
  supply d := d.rotor.supply
  perform c d :=
    let (rotor, log) := d.rotor.perform c
    ({ d with rotor := rotor }, log)

/-- The driver of the simulated motor. -/
structure SimulatedDriver where
  config : SimulationConfig
  rotor : Rotor
  /-- Time since the latest access; none before the first one. -/
  sinceAccess : Option Span
deriving DecidableEq

namespace SimulatedDriver

/-- The driver with a rotor at rest. -/
def ofConfig (config : SimulationConfig) : SimulatedDriver :=
  ⟨config, .atRest config, none⟩

/-- Time passes, which the rotor shows at the next access. -/
def pass (elapsed : Span) (d : SimulatedDriver) : SimulatedDriver :=
  { d with sinceAccess := d.sinceAccess.map (· + elapsed) }

/-- Move the rotor by the time since the latest access. -/
def settle (d : SimulatedDriver) : SimulatedDriver × List Event :=
  match d.sinceAccess with
  | none => ({ d with sinceAccess := some .zero }, [])
  | some elapsed =>
      let (rotor, log) := d.rotor.advance elapsed
      ({ d with rotor := rotor, sinceAccess := some .zero }, log)

/-- Check the parameters and start over with a rotor at rest. -/
def bringUp (d : SimulatedDriver) : Except DriverError SimulatedDriver × List Event :=
  match d.config.violation? with
  | some violation =>
      (.error (.configRejected (ConfigError.invalid violation).message), [])
  | none => (.ok ⟨d.config, .atRest d.config, some .zero⟩, [.simulationReady d.config])

/-- Catch up, then hand a command to the rotor. -/
def perform (c : Command) (d : SimulatedDriver) : SimulatedDriver × List Event :=
  let (settled, drift) := d.settle
  let (rotor, log) := settled.rotor.perform c
  ({ settled with rotor := rotor }, drift ++ log)

end SimulatedDriver

instance : MotorDriver SimulatedDriver where
  Change := Span
  change elapsed d := (d.pass elapsed, [])
  settle := SimulatedDriver.settle
  name _ := DriverConfig.simulation
  bringUp := SimulatedDriver.bringUp
  runState d := d.rotor.state
  period d := d.rotor.period
  periodLimit d := d.config.minCommutationPeriod
  supply d := d.rotor.supply
  perform := SimulatedDriver.perform

end MotorSupervisor
