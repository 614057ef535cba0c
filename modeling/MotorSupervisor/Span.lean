import MotorSupervisor.Decimal.Fixed
import MotorSupervisor.Binary.Arithmetic

/-!
# Lengths of time and clock readings

A `Span` is an exact length of time in nanoseconds.  The monotonic clock of
the control loop counts **ticks** of a tenth of a microsecond in a 64-bit
word; commutation periods are counted in the same ticks.

**Definitions.**
* `Span.toSeconds`: a span as a 32-bit number of seconds, from its whole
  seconds and the remaining nanoseconds.
* `Clock.elapsed`: ticks between two readings, never negative.
* `Clock.toSeconds`: ticks as a 32-bit number of seconds, through the 64-bit
  format.
-/

namespace MotorSupervisor

/-- A length of time. -/
structure Span where
  nanoseconds : Nat
deriving DecidableEq

namespace Span

/-- No time at all. -/
def zero : Span := ⟨0⟩

/-- A number of microseconds. -/
def ofMicros (n : Nat) : Span := ⟨n * 1000⟩

/-- A number of milliseconds. -/
def ofMillis (n : Nat) : Span := ⟨n * 1000000⟩

/-- A number of seconds. -/
def ofSeconds (n : Nat) : Span := ⟨n * 1000000000⟩

/-- Whole microseconds of a span. -/
def micros (s : Span) : Nat :=
  s.nanoseconds / 1000

/-- Seconds as a 32-bit number: whole seconds and remaining nanoseconds are
converted on their own and then added. -/
def toSeconds (s : Span) : Single :=
  Binary.ofNat (s.nanoseconds / 1000000000) +
    Binary.ofNat (s.nanoseconds % 1000000000) / Binary.ofNat 1000000000

/-- The span of a positive number of seconds, to the nearest nanosecond; none
if the whole seconds do not fit a 64-bit word. -/
def ofSecondsNumber? (seconds : Double) : Option Span :=
  if seconds.isFinite then
    let nanoseconds := roundHalfEven (seconds.toRat * 1000000000)
    if nanoseconds < UInt64.size * 1000000000 then some ⟨nanoseconds⟩ else none
  else none

instance : Add Span := ⟨fun a b => ⟨a.nanoseconds + b.nanoseconds⟩⟩

/-- The time left of a span after another one has passed. -/
instance : Sub Span := ⟨fun a b => ⟨a.nanoseconds - b.nanoseconds⟩⟩

instance : LT Span := ⟨fun a b => a.nanoseconds < b.nanoseconds⟩

instance : LE Span := ⟨fun a b => a.nanoseconds ≤ b.nanoseconds⟩

instance (a b : Span) : Decidable (a < b) :=
  inferInstanceAs (Decidable (a.nanoseconds < b.nanoseconds))

instance (a b : Span) : Decidable (a ≤ b) :=
  inferInstanceAs (Decidable (a.nanoseconds ≤ b.nanoseconds))

end Span

namespace Clock

/-- Clock ticks in a second. -/
def ticksPerSecond : Nat :=
  10000000

/-- Clock ticks in a millisecond. -/
def ticksPerMilli : Nat :=
  10000

/-- The reading of a clock that started a span ago. -/
def reading (sinceStart : Span) : UInt64 :=
  UInt64.ofNat (sinceStart.nanoseconds / 100)

/-- Ticks from one reading to another; `0` if the clock went backwards. -/
def elapsed (earlier now : UInt64) : UInt64 :=
  if earlier ≤ now then now - earlier else 0

/-- Ticks as seconds. -/
def toSeconds (ticks : UInt64) : Single :=
  let exact : Double := Binary.ofNat ticks.toNat / Binary.ofNat ticksPerSecond
  exact.toFormat Format.single

end Clock
end MotorSupervisor
