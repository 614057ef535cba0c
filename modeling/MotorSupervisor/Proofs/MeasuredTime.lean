import MotorSupervisor.Proofs.Clock
import MotorSupervisor.Proofs.Run

/-!
# The measured cycle time

A cycle measures the time since the cycle before it; the first one measures
from the reading that the controller came up with.  The readings are any words:
a clock that is set back or stands still gives a time of zero, and the next
cycle measures from the lower reading.  What is measured is the same number
that filters, control step and statistics are given.

**Results.**
* `run_lastCycle`: the reading that the controller remembers.
* `elapsed_le_elapsed`: a longer interval is not measured as a shorter one.
* `measured_time_forward`: the time of every cycle after every run.
-/

namespace MotorSupervisor

variable {δ : Type}

theorem Turn.elapsed_le_elapsed {t u : Turn δ}
    (h : t.now.toNat - t.before.lastCycle.toNat ≤ u.now.toNat - u.before.lastCycle.toNat) :
    t.elapsed ≤ u.elapsed := by
  apply Clock.toSeconds_mono
  rw [UInt64.le_iff_toNat_le, Clock.toNat_elapsed, Clock.toNat_elapsed]
  exact h

variable [MotorDriver δ]

namespace Controller

/-- The clock reading of the latest turn of a run; the one before the run if
there is none. -/
def latestReading (c : Controller δ) (inputs : List (Input (MotorDriver.Change δ))) : UInt64 :=
  (c.turns inputs).getLast?.elim c.lastCycle Turn.now

theorem run_lastCycle (inputs : List (Input (MotorDriver.Change δ))) (c : Controller δ) :
    (c.run inputs).1.lastCycle = c.latestReading inputs := by
  induction inputs generalizing c with
  | nil => rfl
  | cons input inputs ih =>
      rw [run_cons, ih, latestReading, latestReading]
      rcases turns_cons input inputs c with ⟨hquiet, hcons⟩ | ⟨t, -, hafter, -, hcons⟩
      · rw [hcons, (measured_of_quiet hquiet).1]
      · -- a first turn is forgotten as soon as another one follows
        have hreading : (c.step input).1.lastCycle = t.now := by
          rw [← hafter]
          rfl
        rw [hcons, hreading, List.getLast?_cons]
        cases ((c.step input).1.turns inputs).getLast? <;> rfl

end Controller

namespace Turn

/-- What a turn measures since an earlier reading. -/
structure MeasuresForward (t : Turn δ) (earlier : UInt64) : Prop where
  finite : t.elapsed.isFinite
  nonneg : 0 ≤ t.elapsed
  zero_iff : t.elapsed = 0 ↔ t.now ≤ earlier
  pos_iff : 0 < t.elapsed ↔ earlier < t.now
  /-- A caller reads the same number. -/
  recorded : t.after.stats.lastDt = t.elapsed

theorem measuresForward (t : Turn δ) : t.MeasuresForward t.before.lastCycle := by
  have hpos : 0 < t.elapsed ↔ t.before.lastCycle < t.now :=
    Clock.toSeconds_pos_iff.trans (Clock.elapsed_pos_iff _ _)
  constructor
  case finite => exact (Clock.toSeconds_spec _).1.finite
  case nonneg => exact Clock.toSeconds_nonneg _
  case zero_iff =>
    rw [← UInt64.not_lt, ← hpos]
    constructor
    · intro hzero
      rw [hzero]
      exact Binary.isZero_zero.not_pos
    · intro hnone
      have hticks : Clock.elapsed t.before.lastCycle t.now = 0 := by
        rwa [hpos, ← Clock.elapsed_pos_iff, UInt64.pos_iff_ne_zero, not_not] at hnone
      rw [elapsed, hticks, Clock.toSeconds_zero]
  case pos_iff => exact hpos
  case recorded => rfl

end Turn

/-- The time that a cycle measures, after any run of a controller. -/
structure Controller.MeasuresForward (c : Controller δ) : Prop where
  turn : ∀ past now body,
    Turn.MeasuresForward ⟨(c.run past).1, now, body⟩ (c.latestReading past)
  ordered : ∀ few more : UInt64, few ≤ more → Clock.toSeconds few ≤ Clock.toSeconds more
  longer : ∀ past now body past' now' body',
    now.toNat - (c.latestReading past).toNat ≤ now'.toNat - (c.latestReading past').toNat →
      Turn.elapsed ⟨(c.run past).1, now, body⟩ ≤ Turn.elapsed ⟨(c.run past').1, now', body'⟩

/-- Whatever the clock reads, every cycle of every run measures a finite time
that is not negative, and zero exactly when the clock did not advance; a longer
time is not measured as a shorter one. -/
theorem measured_time_forward (c : Controller δ) : c.MeasuresForward where
  turn := by
    intro past now body
    rw [← Controller.run_lastCycle]
    exact Turn.measuresForward ⟨(c.run past).1, now, body⟩
  ordered := fun few more => Clock.toSeconds_mono
  longer := by
    intro past now body past' now' body' h
    rw [← Controller.run_lastCycle, ← Controller.run_lastCycle] at h
    exact Turn.elapsed_le_elapsed h

end MotorSupervisor
