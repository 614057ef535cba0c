import MotorSupervisor.Binary.Arithmetic

/-!
# Low-pass filter

Discrete exponential smoothing of bus readings, weighted by the measured time
between two samples:

  `(dt * sample + tau * previous) / (dt + tau)`.
-/

namespace MotorSupervisor

/-- Fold one sample into a filtered value.  Without any weight the sample is
taken as it is. -/
def lowPass (tau dt previous sample : Single) : Single :=
  let weight := dt + tau
  if weight ≤ 0 then sample
  else (dt * sample + tau * previous) / weight

/-- The filtered value after each of a sequence of samples. -/
def lowPassScan (tau dt : Single) : Single → List Single → List Single
  | _, [] => []
  | previous, sample :: samples =>
      let filtered := lowPass tau dt previous sample
      filtered :: lowPassScan tau dt filtered samples

end MotorSupervisor
