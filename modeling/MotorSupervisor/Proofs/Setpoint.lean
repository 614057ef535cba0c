import MotorSupervisor.Proofs.Binary.Unit
import MotorSupervisor.Proofs.ControlStep
import MotorSupervisor.Proofs.Run

/-!
# Setpoints

Whatever the duty setter is called with, the setpoint is a number from `0` to
`1`, and it is zero unless the request is positive.  Apart from the setters
nothing makes a setpoint: a turn leaves both setpoints as they are or makes
both of them zero.  It does so when the latest setter call is too long ago,
and when it stops the motor.

**Results.**
* `clampDuty_spec`, `clampDuty_of_inUnit`: what the duty setter makes of a
  request.
* `expire_of_lapsed`, `expire_of_not_lapsed`, `isZero_of_lapsed`: what a timeout makes of
  them.
* `setpointsKept_after`: what a turn makes of the setpoints.
* `inUnit_run`: the duty setpoint stays a duty.
-/

namespace MotorSupervisor
open Binary

/-- A setpoint is a number from `0` to `1`, and positive only on a positive
request. -/
theorem clampDuty_spec (duty : Single) :
    (clampDuty duty).InUnit ∧ (0 < clampDuty duty ↔ 0 < duty) := by
  have hone := ordinal_one_pos
  unfold clampDuty clamp
  cases hnan : duty.isNaN with
  | true => exact ⟨inUnit_zero, by simp [pos_iff, hnan]⟩
  | false =>
      rw [if_neg (by simp)]
      simp only [inUnit_iff, lt_iff, hnan, isNaN_zero, isNaN_one, ordinal_zero, true_and]
      split_ifs with hlow hhigh
      · exact ⟨⟨isNaN_zero, by simp, by simpa using hone.le⟩, by simp; omega⟩
      · exact ⟨⟨isNaN_one, hone.le, le_rfl⟩, by simp [isNaN_one]; omega⟩
      · exact ⟨⟨hnan, by omega, by omega⟩, by simp [hnan]⟩

theorem clampDuty_of_inUnit {duty : Single} (h : duty.InUnit) : clampDuty duty = duty := by
  obtain ⟨hnan, hlow, hhigh⟩ := inUnit_iff.1 h
  have hneg : ¬ duty < 0 := by
    rw [lt_iff, ordinal_zero]
    omega
  have hover : ¬ 1 < duty := by
    rw [lt_iff]
    omega
  rw [clampDuty, hnan, if_neg Bool.false_ne_true, clamp, if_neg hneg, if_neg hover]

theorem clampDuty_of_isNaN {duty : Single} (h : duty.isNaN = true) : clampDuty duty = 0 := by
  rw [clampDuty, if_pos h]

theorem clampDuty_of_neg {duty : Single} (h : duty < 0) : clampDuty duty = 0 := by
  have hnan := ((lt_iff _ _).1 h).1
  rw [clampDuty, hnan, if_neg Bool.false_ne_true, clamp, if_pos h]

theorem clampDuty_of_one_lt {duty : Single} (h : 1 < duty) : clampDuty duty = 1 := by
  have hnan := ((lt_iff _ _).1 h).2.1
  have hneg : ¬ duty < 0 := by
    have hone := ordinal_one_pos
    rw [lt_iff] at h
    rw [lt_iff, ordinal_zero]
    omega
  rw [clampDuty, hnan, if_neg Bool.false_ne_true, clamp, if_neg hneg, if_pos h]

/-- The latest setter call is too long ago for a timeout that is in force. -/
def Lapsed (timeout lastSetter now : UInt64) : Prop :=
  timeout ≠ 0 ∧ timeout < Clock.elapsed lastSetter now

instance (timeout lastSetter now : UInt64) : Decidable (Lapsed timeout lastSetter now) :=
  inferInstanceAs (Decidable (_ ∧ _))

namespace ControlState

variable {timeout lastSetter now : UInt64} {s : ControlState}

theorem holdsSetpoint_eq_false_iff :
    s.holdsSetpoint = false ↔ ¬ 0 < s.dutySetpoint ∧ s.rpmSetpoint = 0 := by
  rw [holdsSetpoint, Bool.or_eq_false_iff, decide_eq_false_iff_not, decide_eq_false_iff_not,
    UInt32.not_lt, UInt32.le_zero_iff]

theorem expire_of_not_lapsed (h : ¬ Lapsed timeout lastSetter now) :
    s.expire timeout lastSetter now = (s, []) :=
  if_neg fun hexpire => h ⟨hexpire.1, hexpire.2.2⟩

theorem expire_of_not_holds (h : s.holdsSetpoint = false) :
    s.expire timeout lastSetter now = (s, []) :=
  if_neg (by simp [h])

theorem expire_of_holds (h : Lapsed timeout lastSetter now) (hholds : s.holdsSetpoint = true) :
    s.expire timeout lastSetter now =
      ({ s with dutySetpoint := 0, rpmSetpoint := 0 },
        [.setpointTimeout (Clock.toSeconds (now - lastSetter))]) :=
  if_pos ⟨h.1, hholds, h.2⟩

/-- After a timeout no setpoint is left, whether or not one was held. -/
theorem expire_of_lapsed (h : Lapsed timeout lastSetter now) :
    ¬ 0 < (s.expire timeout lastSetter now).1.dutySetpoint ∧
      (s.expire timeout lastSetter now).1.rpmSetpoint = 0 := by
  cases hholds : s.holdsSetpoint with
  | true =>
      rw [expire_of_holds h hholds]
      exact ⟨isZero_zero.not_pos, rfl⟩
  | false =>
      rw [expire_of_not_holds hholds]
      exact holdsSetpoint_eq_false_iff.1 hholds

/-- Dropping old setpoints concerns both of them and nothing else. -/
theorem expire_cases (timeout lastSetter now : UInt64) (s : ControlState) :
    (s.expire timeout lastSetter now).1 = s ∨
      (s.expire timeout lastSetter now).1 = { s with dutySetpoint := 0, rpmSetpoint := 0 } := by
  unfold expire
  split
  · exact Or.inr rfl
  · exact Or.inl rfl

/-- A setpoint that is not negative is zero after a timeout. -/
theorem isZero_of_lapsed (h : Lapsed timeout lastSetter now) (hnonneg : 0 ≤ s.dutySetpoint) :
    (s.expire timeout lastSetter now).1.dutySetpoint.IsZero := by
  have hpos := (expire_of_lapsed (s := s) h).1
  obtain hkept | hdropped := expire_cases timeout lastSetter now s
  · -- nothing was held, so the setpoint is neither positive nor negative
    rw [hkept] at hpos ⊢
    exact isZero_of_not_pos hnonneg hpos
  · rw [hdropped]
    exact isZero_zero

theorem expire_keeps (timeout lastSetter now : UInt64) (s : ControlState) :
    (s.expire timeout lastSetter now).1.mode = s.mode ∧
      (s.expire timeout lastSetter now).1.limits = s.limits ∧
      (s.expire timeout lastSetter now).1.duty = s.duty ∧
      (s.expire timeout lastSetter now).1.supply = s.supply := by
  obtain h | h := expire_cases timeout lastSetter now s <;>
  · rw [h]
    exact ⟨rfl, rfl, rfl, rfl⟩

end ControlState

/-- Both setpoints of a state are as before, or both are zero. -/
def ControlState.SetpointsKept (s s' : ControlState) : Prop :=
  s'.mode = s.mode ∧
    ((s'.dutySetpoint = s.dutySetpoint ∧ s'.rpmSetpoint = s.rpmSetpoint) ∨
      (s'.dutySetpoint = 0 ∧ s'.rpmSetpoint = 0))

theorem ControlState.SetpointsKept.trans {s₁ s₂ s₃ : ControlState}
    (h : s₁.SetpointsKept s₂) (h' : s₂.SetpointsKept s₃) : s₁.SetpointsKept s₃ := by
  obtain ⟨hmode, hset⟩ := h
  obtain ⟨hmode', ⟨hduty, hrpm⟩ | hzero⟩ := h'
  · refine ⟨hmode'.trans hmode, ?_⟩
    rwa [hduty, hrpm]
  · exact ⟨hmode'.trans hmode, Or.inr hzero⟩

theorem ControlState.SetpointsKept.inUnit {s s' : ControlState} (h : s.SetpointsKept s')
    (hunit : s.dutySetpoint.InUnit) : s'.dutySetpoint.InUnit := by
  obtain ⟨-, ⟨hduty, -⟩ | ⟨hduty, -⟩⟩ := h
  · rwa [hduty]
  · rw [hduty]
    exact inUnit_zero

theorem ControlState.SetpointsKept.isZero {s s' : ControlState} (h : s.SetpointsKept s')
    (hduty : s.dutySetpoint.IsZero) (hrpm : s.rpmSetpoint = 0) :
    s'.dutySetpoint.IsZero ∧ s'.rpmSetpoint = 0 := by
  obtain ⟨-, ⟨hduty', hrpm'⟩ | ⟨hduty', hrpm'⟩⟩ := h
  · rw [hduty', hrpm']
    exact ⟨hduty, hrpm⟩
  · rw [hduty']
    exact ⟨isZero_zero, hrpm'⟩

section Run

variable {δ : Type} [MotorDriver δ]

namespace Turn

variable (t : Turn δ)

/-- A turn works on the setpoints that it finds, or on none. -/
theorem setpointsKept_state : t.before.state.SetpointsKept t.state := by
  rw [ControlState.SetpointsKept, state_mode, state_dutySetpoint, state_rpmSetpoint, held]
  rcases ControlState.expire_cases t.before.timeout t.before.lastSetter t.now t.before.state
    with h | h
  · rw [h]
    exact ⟨rfl, Or.inl ⟨rfl, rfl⟩⟩
  · rw [h]
    exact ⟨rfl, Or.inr ⟨rfl, rfl⟩⟩

theorem setpointsKept_result : t.state.SetpointsKept t.after.state := by
  rw [after_state, result]
  obtain ⟨hmode, -, hset⟩ := ControlState.cycle_keeps
  exact ⟨hmode, hset⟩

/-- Only a setter changes a setpoint to anything but zero. -/
theorem setpointsKept_after : t.before.state.SetpointsKept t.after.state :=
  t.setpointsKept_state.trans t.setpointsKept_result

end Turn

/-- A run that begins with a duty as its setpoint ends with one. -/
theorem inUnit_run (inputs : List (Input (MotorDriver.Change δ))) {c : Controller δ}
    (h : c.state.dutySetpoint.InUnit) : (c.run inputs).1.state.dutySetpoint.InUnit := by
  refine Controller.run_invariant (I := fun c => c.state.dutySetpoint.InUnit) ?_ ?_ inputs h
  · intro input c hquiet hunit
    obtain ⟨duty, now, -, hstep⟩ | ⟨rpm, now, -, hstep⟩ | ⟨driver, active, hstep⟩ :=
      Controller.step_of_quiet hquiet
    · rw [hstep]
      exact (clampDuty_spec duty).1
    · rw [hstep]
      exact hunit
    · rw [hstep]
      exact hunit
  · intro t hunit
    exact t.setpointsKept_after.inUnit hunit

end Run
end MotorSupervisor
