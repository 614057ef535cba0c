import MotorSupervisor.Driver.Bench
import MotorSupervisor.Proofs.Setpoint

/-!
# The last setter wins

The mode of a controller is that of the latest setter call, whatever else
happened since.  A setter writes its own setpoint, clamped to what the motor
can follow, and leaves the other one in place; a timeout and a stop write both.
So both setpoints stay in range for as long as the controller exists, shut
down or not.

**Results.**
* `mode_step`, `mode_run`: which mode is in force.
* `rpmSetpoint_run`: the speed setpoint stays below the speed of the driver.
* `last_setter_wins`: setpoints, parameters and mode after every run.
-/

namespace MotorSupervisor

open Binary

/-- The mode of the latest setter call among some inputs; an earlier one if
there is none. -/
def selectedMode {κ : Type} (earlier : Mode) : List (Input κ) → Mode
  | [] => earlier
  | .setDuty _ _ :: inputs => selectedMode .openLoop inputs
  | .setRpm _ _ :: inputs => selectedMode .rpmTarget inputs
  | _ :: inputs => selectedMode earlier inputs

variable {δ : Type} [MotorDriver δ]

theorem mode_step (input : Input (MotorDriver.Change δ)) (c : Controller δ) :
    (c.step input).1.state.mode = selectedMode c.state.mode [input] := by
  cases input with
  | setDuty duty now => rfl
  | setRpm rpm now => rfl
  | cycle now body =>
      by_cases hactive : c.active
      · -- neither the timeout nor a stop selects a mode
        rw [Controller.step, if_pos hactive]
        exact (Turn.setpointsKept_after ⟨c, now, body⟩).1
      · rw [Controller.step, if_neg hactive]
        rfl
  | change change => rfl
  | shutdown =>
      simp only [Controller.step]
      split <;> rfl

theorem mode_run (inputs : List (Input (MotorDriver.Change δ))) (c : Controller δ) :
    (c.run inputs).1.state.mode = selectedMode c.state.mode inputs := by
  induction inputs generalizing c with
  | nil => rfl
  | cons input inputs ih =>
      rw [Controller.run_cons, ih, mode_step]
      cases input <;> rfl

theorem rpmSetpoint_run (inputs : List (Input (MotorDriver.Change δ))) {c : Controller δ}
    (h : c.state.rpmSetpoint ≤ c.parameters.rpmMax) :
    (c.run inputs).1.state.rpmSetpoint ≤ (c.run inputs).1.parameters.rpmMax := by
  refine Controller.run_invariant
    (I := fun c => c.state.rpmSetpoint ≤ c.parameters.rpmMax) ?_ ?_ inputs h
  · intro input c hquiet hbound
    obtain ⟨duty, now, -, hstep⟩ | ⟨rpm, now, -, hstep⟩ | ⟨driver, active, hstep⟩ :=
      Controller.step_of_quiet hquiet
    · rw [hstep]
      exact hbound
    · rw [hstep]
      exact Std.min_le_right
    · rw [hstep]
      exact hbound
  · intro t hbound
    obtain ⟨-, ⟨-, hrpm⟩ | ⟨-, hrpm⟩⟩ := t.setpointsKept_after
    · rw [hrpm]
      exact hbound
    · rw [hrpm]
      exact UInt32.zero_le

/-- The duty setpoint that a request makes. -/
structure AnswersDuty (requested setpoint : Single) : Prop where
  kept : 0 ≤ requested → requested ≤ 1 → setpoint = requested
  negative : requested < 0 → setpoint = 0
  notANumber : requested.isNaN = true → setpoint = 0
  excess : 1 < requested → setpoint = 1

theorem answersDuty_clampDuty (requested : Single) :
    AnswersDuty requested (clampDuty requested) where
  kept := fun hlow hhigh => clampDuty_of_inUnit ⟨hlow, hhigh⟩
  negative := clampDuty_of_neg
  notANumber := clampDuty_of_isNaN
  excess := clampDuty_of_one_lt

/-- Setpoints and mode after some inputs, and after one more setter call. -/
structure LastSetterWins (p : Parameters) (c : Controller δ)
    (inputs : List (Input (MotorDriver.Change δ))) : Prop where
  dutySetpoint : (c.run inputs).1.state.dutySetpoint.InUnit
  rpmSetpoint : (c.run inputs).1.state.rpmSetpoint ≤ p.rpmMax
  parameters : (c.run inputs).1.parameters = p
  mode : (c.run inputs).1.state.mode = selectedMode .openLoop inputs
  afterDuty : ∀ duty now,
    AnswersDuty duty (c.run (inputs ++ [.setDuty duty now])).1.state.dutySetpoint ∧
      (c.run (inputs ++ [.setDuty duty now])).1.state.rpmSetpoint =
        (c.run inputs).1.state.rpmSetpoint
  afterRpm : ∀ rpm now,
    (c.run (inputs ++ [.setRpm rpm now])).1.state.rpmSetpoint = min rpm p.rpmMax ∧
      (c.run (inputs ++ [.setRpm rpm now])).1.state.dutySetpoint =
        (c.run inputs).1.state.dutySetpoint

/-- In every run the setpoints stay in range, the parameters are those of the
start, and mode and setpoint are those of the latest setter call. -/
theorem last_setter_wins {config : ControlConfig} {start : UInt64} {d : δ} {c : Controller δ}
    (hinit : (Controller.init config start d).1 = .ok c)
    (inputs : List (Input (MotorDriver.Change δ))) :
    ∃ (valid : config.Valid) (up : δ), (MotorDriver.bringUp d).1 = .ok up ∧
      LastSetterWins
        (Parameters.derive config valid.poles_pos (MotorDriver.periodLimit up)) c inputs := by
  obtain ⟨valid, up, hup, -, rfl⟩ := Controller.init_eq_ok_iff.1 hinit
  have hparameters := Controller.run_parameters inputs (Controller.broughtUp config valid start up)
  refine ⟨valid, up, hup, ?_⟩
  constructor
  case dutySetpoint => exact inUnit_run inputs inUnit_zero
  case rpmSetpoint =>
    have hbound := rpmSetpoint_run inputs
      (c := Controller.broughtUp config valid start up) UInt32.zero_le
    rwa [hparameters] at hbound
  case parameters => exact hparameters
  case mode => exact mode_run inputs _
  case afterDuty =>
    intro duty now
    rw [Controller.run_append]
    exact ⟨answersDuty_clampDuty duty, rfl⟩
  case afterRpm =>
    intro rpm now
    rw [Controller.run_append]
    exact ⟨congrArg (fun p : Parameters => min rpm p.rpmMax) hparameters, rfl⟩

/-- Requests out of range, a stop, a shutdown, and a request that is no number. -/
def unruly : List (Input BenchDriver) :=
  [.setRpm 4294967295 0, .cycle 10 .zero, .setDuty (.infinity false) 20,
    .change { BenchDriver.standard "bench" with runState := .running }, .cycle 30 .zero,
    .shutdown, .setDuty .nan 40]

theorem last_setter_wins_unruly :
    let c := Controller.broughtUp .standard ControlConfig.standard_valid 0
      (BenchDriver.standard "bench")
    (Controller.init .standard 0 (BenchDriver.standard "bench")).1 = .ok c ∧
      ((c.run (unruly.take 1)).1.state.rpmSetpoint = 20408 ∧
        (c.run (unruly.take 3)).1.state.dutySetpoint = 1 ∧
        (c.run unruly).1.state.dutySetpoint = 0) ∧
      ∃ (valid : ControlConfig.standard.Valid) (up : BenchDriver),
        (MotorDriver.bringUp (BenchDriver.standard "bench")).1 = .ok up ∧
          LastSetterWins
            (Parameters.derive .standard valid.poles_pos (MotorDriver.periodLimit up)) c
            unruly := by
  intro c
  have hinit : (Controller.init .standard 0 (BenchDriver.standard "bench")).1 = .ok c :=
    Controller.init_eq_ok_iff.2
      ⟨ControlConfig.standard_valid, BenchDriver.standard "bench", rfl, by decide +kernel, rfl⟩
  exact ⟨hinit, by decide +kernel, last_setter_wins hinit unruly⟩

end MotorSupervisor
