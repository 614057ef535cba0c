import MotorSupervisor.Span

/-!
# Timing statistics of the control loop

Counters over all control cycles: how many there were, how many ran longer
than their budget, and the longest, total and mean running time in whole
microseconds.  The comparison with the budget is made in nanoseconds.
-/

namespace MotorSupervisor

/-- Statistics over all cycles so far. -/
structure CycleStats where
  /-- Number of cycles. -/
  cycles : UInt64
  /-- Number of cycles that ran longer than their budget. -/
  overruns : UInt64
  /-- Longest running time in microseconds. -/
  longest : UInt64
  /-- Sum of all running times in microseconds. -/
  total : UInt64
  /-- Seconds between the two latest cycles. -/
  lastDt : Single
deriving DecidableEq

namespace CycleStats

/-- No cycle yet. -/
def empty : CycleStats :=
  ⟨0, 0, 0, 0, 0⟩

/-- Count one cycle; the flag says whether it ran longer than its budget. -/
def record (body budget : Span) (dt : Single) (s : CycleStats) : CycleStats × Bool :=
  let micros := UInt64.ofNat body.micros
  let overrun := decide (budget < body)
  ({ cycles := s.cycles + 1
     overruns := if overrun then s.overruns + 1 else s.overruns
     longest := max s.longest micros
     total := s.total + micros
     lastDt := dt },
    overrun)

/-- Mean running time in microseconds; `0` without cycles. -/
def mean (s : CycleStats) : UInt64 :=
  if s.cycles = 0 then 0 else s.total / s.cycles

end CycleStats
end MotorSupervisor
