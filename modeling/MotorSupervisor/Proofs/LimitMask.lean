import MotorSupervisor.Proofs.RotorTurn

/-!
# The limits in force

A cycle that drives the motor writes both limit flags, and a cycle at rest or
a stop clears them.  Only a cycle during spin-up leaves them alone, so whether
they are up to date then depends on how the spin-up began.

For a rotor that moves between cycles only, the joint invariant of rotor and
controller is `Cleared`: no limit is in force while the rotor spins up.  A
spin-up begins at rest, where the cycle has just cleared the flags, and no
setter, lapse of time or shutdown sets one.

**Results.**
* `cleared_init`, `cleared_turn`, `cleared_step`: the invariant.
* `limits_after_turn`: after every cycle the flags are those of that cycle.
-/

namespace MotorSupervisor

/-- The limits are those that shaped this turn. -/
def Turn.LimitsCurrent {δ : Type} [MotorDriver δ] (t : Turn δ) : Prop :=
  match t.did.outcome with
  | some (.driving _ slewed) =>
      (∃ target, t.state.target? t.before.parameters t.readings.period = some target ∧
        (t.after.state.limits.accel = true ↔ t.state.Jumps t.before.parameters target)) ∧
      (t.after.state.limits.accel = true ↔ slewed = true) ∧
      (t.after.state.limits.rpm = true ↔
        t.readings.period < t.before.parameters.periodLimit ∧
          ControlState.ramp t.before.parameters.periodLimit t.readings.period <
            t.state.dutySetpoint)
  | _ => t.after.state.limits = .none

/-- No limit is in force while the rotor spins up. -/
def Cleared (c : Controller RotorDriver) : Prop :=
  c.driver.rotor.state = .starting → c.state.limits = .none

variable {t : Turn RotorDriver}

/-- A cycle keeps the limits cleared during spin-up. -/
theorem cleared_turn (h : Cleared t.before) : Cleared t.after := by
  intro hstarting
  have hrotor : (MotorDriver.performAll t.result.command t.before.driver).1.rotor.state =
      .starting := by
    rw [Turn.after_driver, rotor_observed] at hstarting
    exact hstarting
  rw [Turn.after_state]
  unfold Turn.result at hrotor ⊢
  cases hrun : t.before.driver.rotor.state with
  | starting =>
      rw [ControlState.cycle_starting (by simpa using hrun)]
      simpa using h hrun
  | idle => rw [ControlState.cycle_idle (by simpa using hrun)]
  | running =>
      have hreading : t.readings.runState = .running := by simpa using hrun
      cases htarget : t.state.target? t.before.parameters t.readings.period with
      | none => rw [ControlState.cycle_stop hreading htarget]; rfl
      | some target =>
          rw [ControlState.cycle_drive hreading htarget] at hrotor
          have hset : (t.before.driver.rotor.setDuty
              (t.state.nextDuty t.before.parameters t.elapsed target)).state = .starting := hrotor
          rw [Rotor.state_setDuty, hrun] at hset
          cases hset

/-- So does everything that happens between cycles. -/
theorem cleared_step {input : Input Span} {c : Controller RotorDriver}
    (hquiet : Controller.Quiet input c) (h : Cleared c) : Cleared (c.step input).1 := by
  cases input with
  | setDuty duty now => exact h
  | setRpm rpm now => exact h
  | cycle now body =>
      have hidle : c.active = false := hquiet
      simpa [Controller.step, hidle] using h
  | change elapsed =>
      intro hstarting
      exact h (Rotor.state_advance_starting hstarting)
  | shutdown =>
      simp only [Controller.step]
      split
      · intro hstarting
        cases hstarting
      · exact h

theorem cleared_init {config : ControlConfig} {start : UInt64} {d : RotorDriver}
    {c : Controller RotorDriver} (hinit : (Controller.init config start d).1 = .ok c) :
    Cleared c := by
  obtain ⟨_, _, _, _, rfl⟩ := Controller.init_eq_ok_iff.1 hinit
  intro _
  rfl

/-- After every cycle the limits in force are those of that cycle. -/
theorem limits_after_turn {config : ControlConfig} {start : UInt64} {d : RotorDriver}
    {c : Controller RotorDriver} (hinit : (Controller.init config start d).1 = .ok c)
    (inputs : List (Input Span)) :
    ∀ t ∈ c.turns inputs, t.LimitsCurrent := by
  intro t ht
  have hclear : Cleared t.before :=
    Controller.forall_turns (fun _ _ => cleared_step) (fun _ => cleared_turn) inputs
      (cleared_init hinit) t ht
  unfold Turn.LimitsCurrent
  rw [Turn.did_outcome, Turn.after_state]
  unfold Turn.result
  cases hrun : t.readings.runState with
  | starting =>
      rw [ControlState.cycle_starting hrun]
      simpa using hclear (by simpa using hrun)
  | idle => rw [ControlState.cycle_idle hrun]
  | running =>
      cases htarget : t.state.target? t.before.parameters t.readings.period with
      | none => rw [ControlState.cycle_stop hrun htarget]; rfl
      | some target =>
          rw [ControlState.cycle_drive hrun htarget]
          refine ⟨⟨target, rfl, ?_⟩, ?_, ?_⟩
          · simp
          · simp
          · rw [decide_eq_true_iff, ControlState.Capped]

/-- A start, its spin-up and the first cycle afterwards. -/
def firstSpinup : List (Input Span) :=
  [.setDuty 1 0, .cycle 10 .zero, .change (.ofMillis 600), .cycle 20 .zero]

/-- The first cycle starts the rotor with no limit in force; the last one drives it
and is slewed. -/
theorem limits_after_first_spinup :
    let c := Controller.broughtUp .standard ControlConfig.standard_valid 0 restingRotor
    (Controller.init .standard 0 restingRotor).1 = .ok c ∧
      (c.run firstSpinup).2.map (fun r => r.outcome) =
        [none, some (.idle true), none, some (.driving (c.run firstSpinup).1.state.duty true)] ∧
      (c.run firstSpinup).1.state.limits = ⟨false, true⟩ ∧
      ∀ t ∈ c.turns firstSpinup, t.LimitsCurrent := by
  intro c
  have hinit : (Controller.init .standard 0 restingRotor).1 = .ok c :=
    Controller.init_eq_ok_iff.2
      ⟨ControlConfig.standard_valid, restingRotor, rfl, by decide +kernel, rfl⟩
  exact ⟨hinit, by decide +kernel, by decide +kernel, limits_after_turn hinit firstSpinup⟩

end MotorSupervisor
