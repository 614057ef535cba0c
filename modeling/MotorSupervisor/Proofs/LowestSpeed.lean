import MotorSupervisor.Proofs.StartGate

/-!
# The lowest speed that commands a start

A request for a speed is clamped to the top speed of the driver before it meets the
lowest speed of the configuration.  So it commands a start of a motor at rest if it
is no lower than the latter, provided that the driver can reach that speed at all.
The configuration check does not know the driver: with a lowest speed above the top
speed it is accepted, and no request for a speed starts the motor.

**Definitions.**
* `Turn.DropsSetpoint`: a timeout fires in a turn.

**Results.**
* `Controller.state_run_changes`: what happens to the driver does not reach the setpoints.
* `Turn.held_of_not_dropsSetpoint`: without a timeout a turn works on the setpoints
  that it finds.
* `starts_from_lowest_speed`: which requests for a speed command a start.
-/

namespace MotorSupervisor

variable {δ : Type} [MotorDriver δ]

/-- The latest setter call is too long ago, and there is a setpoint to drop. -/
def Turn.DropsSetpoint (t : Turn δ) : Prop :=
  t.TimedOut ∧ t.before.state.holdsSetpoint = true

instance (t : Turn δ) : Decidable t.DropsSetpoint :=
  inferInstanceAs (Decidable ((_ ∧ _) ∧ _))

omit [MotorDriver δ] in
theorem Turn.held_of_not_dropsSetpoint {t : Turn δ} (h : ¬ t.DropsSetpoint) :
    t.held = t.before.state := by
  by_cases hlate : t.TimedOut
  · have hnone : t.before.state.holdsSetpoint = false :=
      Bool.eq_false_iff.2 fun hholds => h ⟨hlate, hholds⟩
    rw [held, ControlState.expire_of_not_holds hnone]
  · rw [held, ControlState.expire_of_not_lapsed hlate]

theorem Controller.state_run_changes (changes : List (MotorDriver.Change δ)) (c : Controller δ) :
    (c.run (changes.map .change)).1.state = c.state := by
  induction changes generalizing c with
  | nil => rfl
  | cons change changes ih => exact ih _

/-- A request for a speed starts a motor at rest exactly when it is no lower than the
lowest speed, and the top speed of the driver is no lower either. -/
theorem starts_from_lowest_speed {config : ControlConfig} {start : UInt64} {d : δ}
    {c : Controller δ} (hinit : (Controller.init config start d).1 = .ok c)
    (past : List (Input (MotorDriver.Change δ))) (rpm : UInt32) (called : UInt64)
    (changes : List (MotorDriver.Change δ)) (now : UInt64) (body : Span) :
    let t : Turn δ := ⟨(c.run (past ++ .setRpm rpm called :: changes.map .change)).1, now, body⟩
    t.readings.runState = .idle → ¬ t.DropsSetpoint →
      (t.Starts ↔ config.rpmMin ≤ rpm ∧ config.rpmMin ≤ c.parameters.rpmMax) := by
  intro t hidle hkept
  have hparameters : t.before.parameters = c.parameters := Controller.run_parameters _ c
  have hmin : c.parameters.rpmMin = config.rpmMin := by
    obtain ⟨valid, up, -, -, rfl⟩ := Controller.init_eq_ok_iff.1 hinit
    rfl
  -- nothing comes between the setter and the decision: neither the driver nor a
  -- timeout touches what the setter has left
  have hstate : t.before.state = ((c.run past).1.setRpm rpm called).state := by
    show (c.run (past ++ .setRpm rpm called :: changes.map .change)).1.state = _
    rw [Controller.run_append, Controller.run_cons]
    exact Controller.state_run_changes changes _
  have hmode : t.state.mode = .rpmTarget := by
    rw [Turn.state_mode, Turn.held_of_not_dropsSetpoint hkept, hstate]
    rfl
  have hsetpoint : t.state.rpmSetpoint = min rpm c.parameters.rpmMax := by
    rw [Turn.state_rpmSetpoint, Turn.held_of_not_dropsSetpoint hkept, hstate,
      ← Controller.run_parameters past c]
    rfl
  rw [Turn.starts_iff, and_iff_right hidle, ControlState.wantsStart, hmode]
  dsimp only
  rw [decide_eq_true_iff, hparameters, hmin, hsetpoint]
  exact Std.le_min_iff

/-- The bench comes back to rest after an open-loop start, and the lowest speed is
requested. -/
theorem starts_from_lowest_speed_on_bench :
    let bench := BenchDriver.standard "bench"
    let c := Controller.broughtUp .standard ControlConfig.standard_valid 0 bench
    let t : Turn BenchDriver :=
      ⟨(c.run ([.setDuty 1 0, .cycle 0 .zero] ++ .setRpm 500 10 :: [bench].map .change)).1, 10,
        .zero⟩
    (Controller.init .standard 0 bench).1 = .ok c ∧ t.readings.runState = .idle ∧
      ¬ t.DropsSetpoint ∧ t.Starts ∧
      (t.Starts ↔ ControlConfig.standard.rpmMin ≤ 500 ∧
        ControlConfig.standard.rpmMin ≤ c.parameters.rpmMax) := by
  intro bench c t
  have hinit : (Controller.init .standard 0 bench).1 = .ok c :=
    Controller.init_eq_ok_iff.2 ⟨ControlConfig.standard_valid, bench, rfl, by decide +kernel, rfl⟩
  have hidle : t.readings.runState = .idle := by decide +kernel
  have hkept : ¬ t.DropsSetpoint := by decide +kernel
  exact ⟨hinit, hidle, hkept, by decide +kernel,
    starts_from_lowest_speed hinit [.setDuty 1 0, .cycle 0 .zero] 500 10 [bench] 10 .zero hidle
      hkept⟩

/-- A bench whose shortest period is so long that its top speed is 71. -/
def slowBench : BenchDriver :=
  { BenchDriver.standard "bench" with periodLimit := 200000 }

/-- On the slow bench a request above the lowest speed does not start the motor. -/
theorem slow_bench_ignores_request :
    let c := Controller.broughtUp .standard ControlConfig.standard_valid 0 slowBench
    let t : Turn BenchDriver := ⟨(c.run [.setRpm 1000 0]).1, 0, .zero⟩
    ControlConfig.standard.Valid ∧ (Controller.init .standard 0 slowBench).1 = .ok c ∧
      t.readings.runState = .idle ∧ ¬ t.DropsSetpoint ∧
      ControlConfig.standard.rpmMin ≤ 1000 ∧ ¬ t.Starts := by
  intro c t
  refine ⟨ControlConfig.standard_valid, Controller.init_eq_ok_iff.2
    ⟨ControlConfig.standard_valid, slowBench, rfl, by decide +kernel, rfl⟩, ?_⟩
  decide +kernel

end MotorSupervisor
