import MotorSupervisor.Proofs.CommandDiscipline
import MotorSupervisor.Proofs.StartGate

/-!
# From spin-up to the control loop

A start hands the motor to the driver with the spin-up duty armed as the
present duty.  As long as the cycles find the driver spinning up, nothing
changes the present duty: not the cycles, which touch nothing, and not the
setters, timeouts and filters, which touch other things.  So the first cycle
that finds the motor running slews from the duty that it was started with.

A cycle can find the motor at rest before that, when the spin-up ended and the
motor stalled between two cycles.  Such a cycle arms the spin-up duty of the
present bus voltage, which need not be that of the start.  The motor then runs
only after another start.

**Definitions.**
* `SpinsUpOnStart`: a driver that leaves rest on a start only, and its spin-up
  for running only.
* `Turn.HandsOver`: a turn goes on from the duty of the spin-up.

**Results.**
* `duty_run_of_starting`: the present duty during spin-up.
* `rest_run`, `not_idle_of_running`: at rest until the next start.
* `hand_over`: from a start to the first cycle of the running motor.
* `rearmed_after_unseen_stall`: the motor at rest in between.
-/

namespace MotorSupervisor

/-- A driver leaves rest on a start only, and its spin-up for running only
unless it is stopped. -/
structure SpinsUpOnStart (δ : Type) [MotorDriver δ] : Prop where
  rest_settle : ∀ d : δ, MotorDriver.runState d = .idle →
    MotorDriver.runState (MotorDriver.settle d).1 = .idle
  rest_change : ∀ change (d : δ), MotorDriver.runState d = .idle →
    MotorDriver.runState (MotorDriver.change change d).1 = .idle
  rest_perform : ∀ k (d : δ), ¬ k.IsStart → MotorDriver.runState d = .idle →
    MotorDriver.runState (MotorDriver.perform k d).1 = .idle
  spinup_settle : ∀ d : δ, MotorDriver.runState d = .starting →
    MotorDriver.runState (MotorDriver.settle d).1 ≠ .idle
  spinup_change : ∀ change (d : δ), MotorDriver.runState d = .starting →
    MotorDriver.runState (MotorDriver.change change d).1 ≠ .idle
  spinup_perform : ∀ k (d : δ), k ≠ .stop → MotorDriver.runState d = .starting →
    MotorDriver.runState (MotorDriver.perform k d).1 ≠ .idle

variable {δ : Type} [MotorDriver δ]

namespace Turn

variable {t : Turn δ}

theorem duty_after_of_starting (h : t.readings.runState = .starting) :
    t.after.state.duty = t.before.state.duty := by
  rw [after_state, result, ControlState.cycle_starting h]
  exact t.state_duty

/-- A start arms the duty that it passes on. -/
theorem duty_after_of_start {target spinup : Single} {reverse : Bool}
    (h : t.did.command = some (.start target spinup reverse)) :
    target = spinup ∧ t.after.state.duty = spinup := by
  have hcommand := t.disciplined.command
  rw [← did_command, h] at hcommand
  cases houtcome : t.result.outcome with
  | idle startCommanded =>
      cases startCommanded with
      | true =>
          rw [houtcome] at hcommand
          obtain ⟨htarget, hspinup, -⟩ := Command.start.inj (Option.some.inj hcommand)
          exact ⟨htarget.trans hspinup.symm, hspinup.symm⟩
      | false =>
          rw [houtcome] at hcommand
          cases hcommand
  | starting =>
      rw [houtcome] at hcommand
      cases hcommand
  | driving duty slewed =>
      rw [houtcome] at hcommand
      cases hcommand
  | stopped unavailable =>
      rw [houtcome] at hcommand
      cases hcommand

/-- A motor that is found at rest and not started is left at rest. -/
theorem rest_after_of_idle (hidle : t.readings.runState = .idle) (hstarts : ¬ t.Starts) :
    MotorDriver.runState t.after.driver = .idle := by
  have hwants : t.state.wantsStart t.before.parameters = false := by
    rw [starts_iff, not_and, Bool.not_eq_true] at hstarts
    exact hstarts hidle
  have hcommand : t.result.command = none := by
    rw [result, ControlState.cycle_idle hidle, hwants]
    rfl
  have hsettled : MotorDriver.runState (MotorDriver.settle t.sampled).1 = .idle := by
    rw [← runState_observe t.state.mode]
    exact hidle
  rw [after_driver, hcommand]
  show MotorDriver.runState t.observed = .idle
  rw [observed, observe_of_not_running (by simp [hsettled])]
  exact hsettled

theorem idle_of_rest (hspins : SpinsUpOnStart δ)
    (hrest : MotorDriver.runState t.before.driver = .idle) : t.readings.runState = .idle := by
  rw [readings, runState_observe]
  exact hspins.rest_settle _ (hspins.rest_settle _ hrest)

/-- A turn goes on from the duty of the spin-up: it drives at the target
itself, or one slewed step from that duty towards the target, and the
acceleration flag says which. -/
structure HandsOver (t : Turn δ) (spinup : Single) : Prop where
  armed : t.before.state.duty = spinup
  applied : ∀ duty slewed, t.did.outcome = some (.driving duty slewed) →
    ∃ target, t.state.target? t.before.parameters t.readings.period = some target ∧
      t.did.command = some (.setDuty duty) ∧
      (t.after.state.limits.accel = true ↔
        t.before.parameters.dutyStepMax < (target - spinup).abs) ∧
      duty =
        if t.after.state.limits.accel then
          spinup +
            if target < spinup then -(t.before.parameters.dutySlope * t.elapsed)
            else t.before.parameters.dutySlope * t.elapsed
        else target

theorem handsOver_of_armed {spinup : Single} (harmed : t.before.state.duty = spinup) :
    t.HandsOver spinup where
  armed := harmed
  applied := by
    intro duty slewed houtcome
    have hdriving : t.result.outcome = .driving duty slewed := Option.some.inj houtcome
    obtain ⟨hrun, target, htarget⟩ := ControlState.exists_target_of_driving hdriving
    have hduty : t.state.duty = spinup := t.state_duty.trans harmed
    have hresult : t.state.cycle t.before.parameters t.elapsed t.readings = _ :=
      ControlState.cycle_drive hrun htarget
    rw [result, hresult] at hdriving
    obtain ⟨rfl, -⟩ := Outcome.driving.inj hdriving
    refine ⟨target, htarget, ?_, ?_, ?_⟩
    · rw [did_command, result, hresult]
    · rw [after_state, result, hresult, decide_eq_true_iff, ControlState.Jumps, hduty]
    · rw [after_state, result, hresult, ControlState.nextDuty, hduty]
      simp only [decide_eq_true_eq]

end Turn

/-- While the cycles find the motor spinning up, its duty stays. -/
theorem duty_run_of_starting (inputs : List (Input (MotorDriver.Change δ))) {c : Controller δ}
    (h : ∀ t ∈ c.turns inputs, t.readings.runState = .starting) :
    (c.run inputs).1.state.duty = c.state.duty := by
  refine Controller.run_invariant_while (I := fun c' => c'.state.duty = c.state.duty)
    (P := fun _ => True) ?_ ?_ inputs rfl (fun _ _ => trivial) h
  · intro input c' _ hquiet hduty
    exact (Controller.kept_of_quiet hquiet).duty.trans hduty
  · intro t hstarting hduty
    exact (Turn.duty_after_of_starting hstarting).trans hduty

/-- A motor at rest stays there until it is started. -/
theorem rest_run (hspins : SpinsUpOnStart δ) (inputs : List (Input (MotorDriver.Change δ)))
    {c : Controller δ} (hrest : MotorDriver.runState c.driver = .idle)
    (hstarts : ∀ t ∈ c.turns inputs, ¬ t.Starts) :
    MotorDriver.runState (c.run inputs).1.driver = .idle := by
  refine Controller.run_invariant_while (I := fun c => MotorDriver.runState c.driver = .idle)
    (P := fun _ => True) ?_ ?_ inputs hrest (fun _ _ => trivial) hstarts
  · intro input c _ hquiet h
    cases input with
    | setDuty duty now => exact h
    | setRpm rpm now => exact h
    | cycle now body =>
        have hidle : ¬ c.active = true := by simpa [Controller.Quiet] using hquiet
        rw [Controller.step, if_neg hidle]
        exact h
    | change change => exact hspins.rest_change change _ h
    | shutdown =>
        by_cases hactive : c.active
        · rw [Controller.step, if_pos hactive]
          exact hspins.rest_perform .stop _ not_false h
        · rw [Controller.step, if_neg hactive]
          exact h
  · intro t hnone h
    exact Turn.rest_after_of_idle (Turn.idle_of_rest hspins h) hnone

/-- Before a cycle that finds the motor running, none finds it at rest without
starting it. -/
theorem not_idle_of_running (hspins : SpinsUpOnStart δ)
    {inputs : List (Input (MotorDriver.Change δ))} {c : Controller δ}
    (hstarts : ∀ t ∈ c.turns inputs, ¬ t.Starts) {last : Turn δ}
    (hlast : last.before = (c.run inputs).1) (hrunning : last.readings.runState = .running) :
    ∀ t ∈ c.turns inputs, t.readings.runState ≠ .idle := by
  intro t ht hidle
  have hnone := hstarts t ht
  obtain ⟨past, future, rfl, hbefore, hactive⟩ := Controller.mem_turns_iff.1 ht
  -- from this turn on the motor rests, up to the last one
  have hafter : ((c.run past).1.step (.cycle t.now t.body)).1 = t.after := by
    rw [hbefore, Controller.step, if_pos hactive]
    rfl
  have hfuture : ∀ later ∈ t.after.turns future, ¬ later.Starts := by
    intro later hlater
    apply hstarts
    rw [Controller.turns_append, List.mem_append]
    refine Or.inr ?_
    rw [hbefore]
    simp only [Controller.turns, hactive, if_true, List.mem_cons]
    rw [← hafter, hbefore] at hlater
    exact Or.inr hlater
  have hrest := rest_run hspins future (Turn.rest_after_of_idle hidle hnone) hfuture
  rw [← hafter] at hrest
  have hlastRest : MotorDriver.runState last.before.driver = .idle := by
    rw [hlast, Controller.run_append]
    exact hrest
  rw [Turn.idle_of_rest hspins hlastRest] at hrunning
  cases hrunning

/-- The duty of a start stays the present duty for as long as the cycles find
the motor spinning up.  The first cycle that finds it running goes on from there
and had no others before it, unless another start came first. -/
theorem hand_over {t : Turn δ} {target spinup : Single} {reverse : Bool}
    (hstart : t.did.command = some (.start target spinup reverse))
    (inputs : List (Input (MotorDriver.Change δ))) :
    target = spinup ∧
      ((∀ later ∈ t.after.turns inputs, later.readings.runState = .starting) →
        (t.after.run inputs).1.state.duty = spinup) ∧
      (SpinsUpOnStart δ →
        (∀ later ∈ t.after.turns inputs, later.readings.runState ≠ .running ∧ ¬ later.Starts) →
          ∀ first : Turn δ, first.before = (t.after.run inputs).1 →
            first.readings.runState = .running →
              (∀ later ∈ t.after.turns inputs, later.readings.runState = .starting) ∧
                first.HandsOver spinup) := by
  obtain ⟨htarget, hduty⟩ := Turn.duty_after_of_start hstart
  have hstays : (∀ later ∈ t.after.turns inputs, later.readings.runState = .starting) →
      (t.after.run inputs).1.state.duty = spinup :=
    fun hstarting => (duty_run_of_starting inputs hstarting).trans hduty
  refine ⟨htarget, hstays, fun hspins hbetween first hfirst hrunning => ?_⟩
  have hidle := not_idle_of_running hspins (fun later hlater => (hbetween later hlater).2)
    hfirst hrunning
  have hstarting : ∀ later ∈ t.after.turns inputs, later.readings.runState = .starting := by
    intro later hlater
    cases hrun : later.readings.runState with
    | starting => rfl
    | idle => exact absurd hrun (hidle later hlater)
    | running => exact absurd hrun (hbetween later hlater).1
  refine ⟨hstarting, Turn.handsOver_of_armed ?_⟩
  rw [hfirst]
  exact hstays hstarting

theorem spinsUpOnStart_rotor : SpinsUpOnStart RotorDriver where
  rest_settle := fun _ h => h
  rest_change := fun _ _ h => Rotor.state_advance_idle h
  rest_perform := by
    intro k d hk h
    cases k with
    | start target spinup reverse => exact absurd trivial hk
    | stop => rfl
    | setDuty duty => exact (Rotor.state_setDuty d.rotor duty).trans h
  spinup_settle := by
    intro d h hidle
    rw [show MotorDriver.runState (MotorDriver.settle d).1 = MotorDriver.runState d from rfl,
      h] at hidle
    cases hidle
  spinup_change := by
    intro elapsed d h hidle
    have hmoving : d.rotor.state ≠ .idle := fun hrest => by
      cases (show d.rotor.state = .starting from h).symm.trans hrest
    have hrunning := (Rotor.stalls_of_advance hmoving hidle).1
    cases (show d.rotor.state = .starting from h).symm.trans hrunning
  spinup_perform := by
    intro k d hk h hidle
    cases k with
    | start target spinup reverse =>
        have hstate : (d.rotor.start target spinup reverse).1.state = .starting := by
          unfold Rotor.start
          rw [show d.rotor.state = .starting from h]
          exact h
        cases hstate.symm.trans hidle
    | stop => exact hk rfl
    | setDuty duty =>
        cases (Rotor.state_setDuty d.rotor duty).symm.trans hidle |>.symm.trans h

/-- The turn that starts a rotor on a request for full duty. -/
def startingTurn (d : RotorDriver) : Turn RotorDriver :=
  ⟨((Controller.broughtUp .standard ControlConfig.standard_valid 0 d).run [.setDuty 1 0]).1, 0,
    .zero⟩

/-- A turn that comes some inputs after another one. -/
def laterTurn (t : Turn RotorDriver) (inputs : List (Input Span)) (now : UInt64) :
    Turn RotorDriver :=
  ⟨(t.after.run inputs).1, now, .zero⟩

/-- Two volts on a bus of twelve. -/
def sixth : Single :=
  2 / 12

/-- A spin-up with a switch of the mode and back, and a lapse of time. -/
def busySpinup : List (Input Span) :=
  [.change (.ofMillis 100), .setRpm 600 10000, .cycle 10000 .zero, .setDuty 1 20000,
    .cycle 20000 .zero, .change (.ofMillis 100)]

theorem hand_over_after_busy_spinup :
    (startingTurn restingRotor).did.command = some (.start sixth sixth false) ∧
      ((startingTurn restingRotor).after.turns busySpinup).length = 2 ∧
      (∀ later ∈ (startingTurn restingRotor).after.turns busySpinup,
        later.readings.runState = .starting) ∧
      ((startingTurn restingRotor).after.run busySpinup).1.state.duty = sixth ∧
      SpinsUpOnStart RotorDriver ∧
      (∀ later ∈ (startingTurn restingRotor).after.turns busySpinup,
        later.readings.runState ≠ .running ∧ ¬ later.Starts) ∧
      (laterTurn (startingTurn restingRotor) busySpinup 30000).readings.runState = .running ∧
      (laterTurn (startingTurn restingRotor) busySpinup 30000).after.state.limits.accel = true ∧
      (laterTurn (startingTurn restingRotor) busySpinup 30000).HandsOver sixth := by
  have hstart : (startingTurn restingRotor).did.command = some (.start sixth sixth false) := by
    decide +kernel
  have hstarting : ∀ later ∈ (startingTurn restingRotor).after.turns busySpinup,
      later.readings.runState = .starting := by decide +kernel
  have hbetween : ∀ later ∈ (startingTurn restingRotor).after.turns busySpinup,
      later.readings.runState ≠ .running ∧ ¬ later.Starts := by decide +kernel
  have hrunning : (laterTurn (startingTurn restingRotor) busySpinup 30000).readings.runState =
      .running := by decide +kernel
  obtain ⟨-, hstays, hhands⟩ := hand_over hstart busySpinup
  exact ⟨hstart, by decide +kernel, hstarting, hstays hstarting, spinsUpOnStart_rotor, hbetween,
    hrunning, by decide +kernel, (hhands spinsUpOnStart_rotor hbetween _ rfl hrunning).2⟩

/-- A rotor that stalls at its spin-up speed. -/
def weakRotor : RotorDriver :=
  ⟨"rotor", .atRest { SimulationConfig.standard with stallRpm := 3000 }, none⟩

/-- A spin-up under load, its end, and a stall before the next cycle. -/
def unseenStall : List (Input Span) :=
  [.change (.ofMillis 100), .setDuty 1 10000000, .cycle 10000000 .zero,
    .change (.ofMillis 100), .change (.ofMillis 1), .setDuty 0 20000000, .cycle 20000000 .zero]

/-- Another start, and its spin-up. -/
def secondSpinup : List (Input Span) :=
  [.setDuty 1 30000000, .cycle 30000000 .zero, .change (.ofMillis 200)]

/-- The motor stalls unseen, and the next cycle arms another duty, before any
cycle has found the motor running. -/
theorem rearmed_after_unseen_stall :
    let t := startingTurn weakRotor
    SpinsUpOnStart RotorDriver ∧
      (∃ c, (Controller.init .standard 0 weakRotor).1 = .ok c ∧
        (c.run [.setDuty 1 0]).1 = t.before) ∧
      t.did.command = some (.start t.after.state.duty t.after.state.duty false) ∧
      (∀ later ∈ t.after.turns (unseenStall ++ secondSpinup),
        later.readings.runState ≠ .running) ∧
      (laterTurn t (unseenStall ++ secondSpinup) 30001000).readings.runState = .running ∧
      (t.after.run unseenStall).1.state.duty ≠ t.after.state.duty := by
  intro t
  refine ⟨spinsUpOnStart_rotor, ⟨_, Controller.init_eq_ok_iff.2
    ⟨ControlConfig.standard_valid, weakRotor, rfl, by decide +kernel, rfl⟩, rfl⟩, ?_⟩
  decide +kernel

end MotorSupervisor
