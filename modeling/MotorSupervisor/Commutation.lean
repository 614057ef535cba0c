import MotorSupervisor.Span

/-!
# Commutation periods and mechanical speed

A motor commutates six times in an electrical revolution and turns `2 / poles`
mechanical revolutions in an electrical one.  Speed in revolutions per minute
and commutation period in clock ticks are therefore inversely proportional:

  `speed * period = 120 * ticksPerSecond / (6 * poles)`.

Both conversions divide the truncated right-hand side, so they are the same
function.  A period of `0` means that the motor is at rest.
-/

namespace MotorSupervisor

/-- A motor has at least one pole. -/
structure PoleCount where
  count : UInt32
  positive : 0 < count

/-- The pole count was zero. -/
inductive PoleFault
  | notPositive
deriving DecidableEq

/-- Explanation of a fault. -/
def PoleFault.message : PoleFault → String
  | .notPositive => "pole count must be positive"

namespace PoleCount

/-- The pole count of a positive word. -/
def of? (count : UInt32) : Except PoleFault PoleCount :=
  if positive : 0 < count then .ok ⟨count, positive⟩ else .error .notPositive

/-- The product of speed and commutation period. -/
def scale (p : PoleCount) : UInt32 :=
  UInt32.ofNat (120 * Clock.ticksPerSecond / (p.count.toNat * 6))

/-- Mechanical speed of a commutation period; a period of `0` is rest. -/
def rpmOfPeriod (p : PoleCount) (period : UInt32) : UInt32 :=
  if period = 0 then 0 else p.scale / period

/-- Commutation period of a mechanical speed; rest has period `0`. -/
def periodOfRpm (p : PoleCount) (rpm : UInt32) : UInt32 :=
  if rpm = 0 then 0 else p.scale / rpm

end PoleCount

/-- Mechanical speed of a commutation period at any pole count. -/
def rpmOfPeriod? (poles period : UInt32) : Except PoleFault UInt32 :=
  (PoleCount.of? poles).map (·.rpmOfPeriod period)

/-- Commutation period of a mechanical speed at any pole count. -/
def periodOfRpm? (poles rpm : UInt32) : Except PoleFault UInt32 :=
  (PoleCount.of? poles).map (·.periodOfRpm rpm)

end MotorSupervisor
