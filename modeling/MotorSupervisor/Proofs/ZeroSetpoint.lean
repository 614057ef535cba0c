import MotorSupervisor.Driver.Bench
import MotorSupervisor.Proofs.ControlStep
import MotorSupervisor.Proofs.Ramp
import MotorSupervisor.Proofs.Run
import MotorSupervisor.Proofs.Setpoint

/-!
# Stopping on a zero setpoint

A running motor in open loop whose setpoint is zero is stopped by the next
cycle, unless its commutation period is so short that the speed cap is
negative: below half of the limit the cap undercuts even a zero setpoint, and
the motor is then driven towards the cap.

**Results.**
* `capped_iff_of_isZero`, `capped_of_target`, `rampNegative_of_driving`: a zero setpoint
  and the cap.
* `stopped_iff_of_isZero`: when exactly a zero setpoint stops the motor.
* `zero_setpoint_drives`: a fast motor is not stopped.
-/

namespace MotorSupervisor

open Binary

namespace Turn

variable {δ : Type} [MotorDriver δ] {t : Turn δ}

/-- Only a negative cap undercuts a zero setpoint. -/
theorem capped_iff_of_isZero (hzero : t.state.dutySetpoint.IsZero) :
    t.state.Capped t.before.parameters t.readings.period ↔
      t.readings.period < t.before.parameters.periodLimit ∧
        ControlState.ramp t.before.parameters.periodLimit t.readings.period < 0 := by
  rw [ControlState.Capped, hzero.lt_iff_neg]

/-- At a zero setpoint nothing but the cap is a duty to drive at. -/
theorem capped_of_target (hzero : t.state.dutySetpoint.IsZero) {target : Single}
    (h : t.state.target? t.before.parameters t.readings.period = some target) :
    t.readings.period ≠ 0 ∧ t.state.Capped t.before.parameters t.readings.period := by
  obtain ⟨-, hperiod, -, ⟨hcap, -⟩ | ⟨-, hpos, -⟩⟩ := ControlState.target?_eq_some_iff.1 h
  · exact ⟨hperiod, hcap⟩
  · exact absurd hpos hzero.not_pos

/-- A motor that is driven at a zero setpoint is driven towards a negative cap. -/
theorem rampNegative_of_driving (hzero : t.state.dutySetpoint.IsZero) {duty : Single}
    {slewed : Bool} (h : t.did.outcome = some (.driving duty slewed)) :
    ControlState.RampNegative t.before.parameters.periodLimit t.readings.period := by
  rw [did_outcome, Option.some.injEq] at h
  obtain ⟨-, target, htarget⟩ := ControlState.exists_target_of_driving h
  obtain ⟨hperiod, hcap⟩ := capped_of_target hzero htarget
  exact ControlState.rampNegative_iff.2 ⟨hperiod, (capped_iff_of_isZero hzero).1 hcap⟩

/-- In open loop a zero setpoint stops a running motor exactly when the cap is
not negative. -/
theorem stopped_iff_of_isZero (hmode : t.held.mode = .openLoop)
    (hzero : t.held.dutySetpoint.IsZero) (hrun : t.readings.runState = .running) :
    (t.did.outcome = some (.stopped false) ∧ t.did.command = some .stop) ↔
      ¬ ControlState.RampNegative t.before.parameters.periodLimit t.readings.period := by
  rw [← state_dutySetpoint] at hzero
  rw [did_outcome, did_command, result, ControlState.rampNegative_iff,
    ← capped_iff_of_isZero hzero]
  cases htarget : t.state.target? t.before.parameters t.readings.period with
  | none =>
      rw [ControlState.cycle_stop hrun htarget]
      refine iff_of_true ⟨by simp [hmode], rfl⟩ ?_
      have hstate : t.state.mode = .openLoop := by rw [state_mode, hmode]
      rintro ⟨hperiod, hcap⟩
      have htarget' := ControlState.target?_eq_some_iff.2
        ⟨hstate, hperiod, (ControlState.ramp_spec hcap.1).1, Or.inl ⟨hcap, rfl⟩⟩
      rw [htarget] at htarget'
      cases htarget'
  | some target =>
      rw [ControlState.cycle_drive hrun htarget]
      exact iff_of_false (by simp) (not_not.2 (capped_of_target hzero htarget))

end Turn

/-- A bench driver that runs as soon as it is started, seven times faster than
its period limit allows. -/
def fastBench : BenchDriver :=
  { BenchDriver.standard "bench" with startsAs := .running, runningPeriod := 100 }

/-- A start at full duty, and a zero setpoint once the motor runs. -/
def stopRequest : List (Input BenchDriver) :=
  [.setDuty 1 0, .cycle 0 .zero, .setDuty 0 10000000, .cycle 10000000 .zero]

/-- A fast motor is driven although the setpoint is zero. -/
theorem zero_setpoint_drives :
    let c := Controller.broughtUp .standard ControlConfig.standard_valid 0 fastBench
    (Controller.init .standard 0 fastBench).1 = .ok c ∧
      ∃ t ∈ c.turns stopRequest,
        t.held.mode = .openLoop ∧ t.held.dutySetpoint.IsZero ∧
          t.readings.runState = .running ∧
          ¬ (t.did.outcome = some (.stopped false) ∧ t.did.command = some .stop) := by
  intro c
  refine ⟨Controller.init_eq_ok_iff.2
    ⟨ControlConfig.standard_valid, fastBench, rfl, by decide +kernel, rfl⟩, ?_⟩
  decide +kernel

/-- At its period limit the same motor is stopped. -/
theorem zero_setpoint_stops_at_limit :
    let c := Controller.broughtUp .standard ControlConfig.standard_valid 0
      { fastBench with runningPeriod := 700 }
    ∃ t ∈ c.turns stopRequest,
      t.held.mode = .openLoop ∧ t.held.dutySetpoint.IsZero ∧
        t.readings.runState = .running ∧
        ¬ ControlState.RampNegative t.before.parameters.periodLimit t.readings.period ∧
        t.did.outcome = some (.stopped false) ∧ t.did.command = some .stop := by
  intro c
  have hpremises : ∃ t ∈ c.turns stopRequest,
      t.held.mode = .openLoop ∧ t.held.dutySetpoint.IsZero ∧
        t.readings.runState = .running ∧
        ¬ ControlState.RampNegative t.before.parameters.periodLimit t.readings.period := by
    decide +kernel
  obtain ⟨t, ht, hmode, hzero, hrun, hcap⟩ := hpremises
  exact ⟨t, ht, hmode, hzero, hrun, hcap,
    (Turn.stopped_iff_of_isZero hmode hzero hrun).2 hcap⟩

end MotorSupervisor
