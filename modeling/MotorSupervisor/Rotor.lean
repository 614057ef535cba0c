import MotorSupervisor.Log

/-!
# Simulated rotor

A first-order model of the speed of a sensorless motor.

* At rest the outputs are off and the speed is zero.
* During spin-up the speed rises in a straight line from zero to the spin-up
  target; the driver is in control and duty commands have no effect.
* While running the speed follows `duty * bus voltage * velocity constant`
  with a time constant.  A speed below the stall speed stops the rotor.

Time passes only in `Rotor.advance`.
-/

namespace MotorSupervisor

/-- A rotor with its parameters. -/
structure Rotor where
  config : SimulationConfig
  state : RunState
  /-- Mechanical speed in revolutions per minute. -/
  speed : Single
  /-- Applied duty cycle. -/
  duty : Single
  /-- Direction of the last start. -/
  reverse : Bool
  /-- Time left of the spin-up. -/
  spinupLeft : Span
  /-- Speed at the end of the spin-up. -/
  spinupTarget : Single
deriving DecidableEq

namespace Rotor

/-- A rotor at rest. -/
def atRest (config : SimulationConfig) : Rotor where
  config := config
  state := .idle
  speed := 0
  duty := 0
  reverse := false
  spinupLeft := .zero
  spinupTarget := 0

/-- Duration of the spin-up. -/
def spinupTime (r : Rotor) : Span :=
  .ofMillis r.config.spinupTimeMillis.toNat

/-- Time constant of the speed. -/
def timeConstant (r : Rotor) : Span :=
  .ofMillis r.config.timeConstantMillis.toNat

/-- Speed that a duty leads to without load. -/
def noLoadSpeed (r : Rotor) (duty : Single) : Single :=
  duty * r.config.busVoltage * r.config.kv

/-- The duty that a commanded one amounts to. -/
def admissible (duty : Single) : Single :=
  duty.clamp 0 1

/-- Begin spin-up.  Only a rotor at rest starts. -/
def start (target spinup : Single) (reverse : Bool) (r : Rotor) : Rotor × List Event :=
  match r.state with
  | .idle =>
      let duty := admissible target
      let speed := r.noLoadSpeed (admissible spinup)
      ({ r with
          state := .starting
          duty := duty
          reverse := reverse
          spinupLeft := r.spinupTime
          spinupTarget := speed },
        [.rotorSpinup duty speed reverse])
  | state => (r, [.startIgnored state])

/-- Switch the outputs off; the rotor is braked to rest. -/
def stop (r : Rotor) : Rotor × List Event :=
  ({ r with state := .idle, speed := 0, duty := 0 },
    if r.state = .idle then [] else [.rotorStopped r.speed])

/-- Apply a duty.  Only a running rotor follows it. -/
def setDuty (duty : Single) (r : Rotor) : Rotor :=
  match r.state with
  | .running => { r with duty := admissible duty }
  | _ => r

/-- Spin-up over a span of time. -/
def advanceSpinup (elapsed : Span) (r : Rotor) : Rotor × List Event :=
  let left := r.spinupLeft - elapsed
  if left = .zero ∨ r.spinupTime = .zero then
    ({ r with spinupLeft := left, speed := r.spinupTarget, state := .running },
      [.rotorRunning r.spinupTarget])
  else
    let done := 1 - left.toSeconds / r.spinupTime.toSeconds
    ({ r with spinupLeft := left, speed := r.spinupTarget * done }, [])

/-- Speed after a span of time under the present duty. -/
def speedAfter (elapsed : Span) (r : Rotor) : Single :=
  let tau := r.timeConstant.toSeconds
  let dt := elapsed.toSeconds
  r.speed + (r.noLoadSpeed r.duty - r.speed) * dt / (tau + dt)

/-- Running over a span of time. -/
def advanceRunning (elapsed : Span) (r : Rotor) : Rotor × List Event :=
  let speed := r.speedAfter elapsed
  let turned := { r with speed := speed }
  if speed < r.config.stallRpm then
    let (stopped, log) := turned.stop
    (stopped, .rotorStalled speed :: log)
  else (turned, [])

/-- Let time pass. -/
def advance (elapsed : Span) (r : Rotor) : Rotor × List Event :=
  match r.state with
  | .idle => ({ r with speed := 0 }, [])
  | .starting => r.advanceSpinup elapsed
  | .running => r.advanceRunning elapsed

/-- Commutation period in clock ticks; `0` when the rotor does not turn.  Six
commutations make an electrical revolution, and half the poles are the
electrical revolutions in a mechanical one.  The computation is in the 64-bit
format, and a period beyond a 32-bit word is cut to the largest word. -/
def period (r : Rotor) : UInt32 :=
  if r.speed ≤ 0 then 0
  else
    let speed : Double := r.speed.toFormat Format.double
    let electrical := speed * Binary.ofNat r.config.poles.toNat / 2
    let ticksPerMinute : Double := Binary.ofNat Clock.ticksPerSecond * 60
    let ticks := ticksPerMinute / (electrical * 6)
    (ticks.min (Binary.ofNat (UInt32.size - 1))).toWord

/-- Current drawn from the bus. -/
def current (r : Rotor) : Single :=
  match r.state with
  | .idle => 0
  | _ => r.duty * r.config.fullLoadCurrent

/-- Bus voltage and current under the present load. -/
def supply (r : Rotor) : Supply :=
  ⟨r.config.busVoltage - r.config.sourceResistance * r.current, r.current⟩

end Rotor
end MotorSupervisor
