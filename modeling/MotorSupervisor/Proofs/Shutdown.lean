import MotorSupervisor.Driver.Bench
import MotorSupervisor.Proofs.CommandDiscipline

/-!
# The shutdown

The first shutdown stops the motor, whatever it is doing, and it is the last
thing that the controller asks of its driver.  Afterwards no cycle runs;
setters still select a mode and its setpoint, which nobody acts upon.  Dropping
a controller shuts it down, so every life of a controller has a first shutdown.

**Definitions.**
* `untilDropped`: the inputs of a whole life.
* `ControlState.select`, `drift`: what is left of an input after the shutdown.
* `StaysShutDown`: nothing but that happens.

**Results.**
* `staysShutDown_of_inactive`: after the shutdown.
* `stopsMotor_step`: before it, the stops are those of the cycles.
* `shutdown_once`: a whole life, and the number of its stops.
-/

namespace MotorSupervisor

/-- The inputs of a controller up to its end: dropping it shuts it down. -/
def untilDropped {κ : Type} (inputs : List (Input κ)) : List (Input κ) :=
  inputs ++ [.shutdown]

/-- The state after a setter call; other inputs leave it alone. -/
def ControlState.select {κ : Type} (p : Parameters) (s : ControlState) : Input κ → ControlState
  | .setDuty duty _ => { s with mode := .openLoop, dutySetpoint := clampDuty duty }
  | .setRpm rpm _ => { s with mode := .rpmTarget, rpmSetpoint := min rpm p.rpmMax }
  | _ => s

namespace StepResult

/-- The driver is told to stop. -/
def stopsMotor (r : StepResult) : Bool :=
  decide (r.command = some .stop)

/-- A cycle ran and stopped the motor. -/
def isStoppedCycle (r : StepResult) : Bool :=
  match r.outcome with
  | some (.stopped _) => true
  | _ => false

theorem stopsMotor_of_silent {r : StepResult} (h : r.outcome = none ∧ r.command = none) :
    r.stopsMotor = r.isStoppedCycle := by
  rw [stopsMotor, isStoppedCycle, h.1, h.2]
  rfl

end StepResult

variable {δ : Type} [MotorDriver δ]

/-- The driver after an input that commands nothing. -/
def drift (d : δ) : Input (MotorDriver.Change δ) → δ
  | .change change => (MotorDriver.change change d).1
  | _ => d

/-- No cycle runs and the driver is left alone, while setters are still obeyed. -/
structure StaysShutDown (c : Controller δ) (inputs : List (Input (MotorDriver.Change δ))) :
    Prop where
  silent : ∀ r ∈ (c.run inputs).2, r.outcome = none ∧ r.command = none
  driver : (c.run inputs).1.driver = inputs.foldl drift c.driver
  state : (c.run inputs).1.state = inputs.foldl (ControlState.select c.parameters) c.state

theorem step_of_inactive (input : Input (MotorDriver.Change δ)) {c : Controller δ}
    (h : ¬ c.active = true) :
    ((c.step input).2.outcome = none ∧ (c.step input).2.command = none) ∧
      (c.step input).1.driver = drift c.driver input ∧
      (c.step input).1.state = c.state.select c.parameters input := by
  cases input with
  | cycle now body =>
      rw [Controller.step, if_neg h]
      exact ⟨⟨rfl, rfl⟩, rfl, rfl⟩
  | shutdown =>
      rw [Controller.step, if_neg h]
      exact ⟨⟨rfl, rfl⟩, rfl, rfl⟩
  | _ => exact ⟨⟨rfl, rfl⟩, rfl, rfl⟩

theorem staysShutDown_of_inactive (inputs : List (Input (MotorDriver.Change δ)))
    {c : Controller δ} (h : ¬ c.active = true) : StaysShutDown c inputs := by
  induction inputs generalizing c with
  | nil => exact ⟨fun _ hr => absurd hr List.not_mem_nil, rfl, rfl⟩
  | cons input inputs ih =>
      have hinactive : ¬ (c.step input).1.active = true := mt Controller.active_of_step h
      obtain ⟨hsilentStep, hdriverStep, hstateStep⟩ := step_of_inactive input h
      obtain ⟨hsilent, hdriver, hstate⟩ := ih hinactive
      have hparameters : (c.step input).1.parameters = c.parameters :=
        Controller.run_parameters [input] c
      constructor <;> rw [Controller.run_cons]
      case silent => exact List.forall_mem_cons.2 ⟨hsilentStep, hsilent⟩
      case driver => rw [hdriver, hdriverStep, List.foldl_cons]
      case state => rw [hstate, hstateStep, hparameters, List.foldl_cons]

/-- The shutdown of an active controller: one stop, whatever the motor does. -/
structure StopsMotorOnce (c : Controller δ) : Prop where
  command : (c.step .shutdown).2.command = some .stop
  outcome : (c.step .shutdown).2.outcome = none
  driver : (c.step .shutdown).1.driver = (MotorDriver.perform .stop c.driver).1
  state : (c.step .shutdown).1.state = c.state
  inactive : ¬ (c.step .shutdown).1.active = true

theorem stopsMotorOnce_of_active {c : Controller δ} (h : c.active = true) :
    StopsMotorOnce c := by
  constructor <;> rw [Controller.step, if_pos h]
  case inactive => exact Bool.false_ne_true
  all_goals rfl

/-- A controller is active up to the first shutdown. -/
theorem active_run {inputs : List (Input (MotorDriver.Change δ))} {c : Controller δ}
    (h : c.active = true) (hnone : .shutdown ∉ inputs) : (c.run inputs).1.active = true := by
  induction inputs generalizing c with
  | nil => exact h
  | cons input inputs ih =>
      rw [List.mem_cons, not_or] at hnone
      refine ih (c := (c.step input).1) ?_ hnone.2
      cases input with
      | cycle now body =>
          rw [Controller.step, if_pos h]
          exact h
      | shutdown => exact absurd rfl hnone.1
      | _ => exact h

/-- Other than by the shutdown the motor is stopped by a cycle only. -/
theorem stopsMotor_step {input : Input (MotorDriver.Change δ)} (c : Controller δ)
    (h : .shutdown ≠ input) :
    (c.step input).2.stopsMotor = (c.step input).2.isStoppedCycle := by
  cases input with
  | cycle now body =>
      by_cases hactive : c.active
      · have hresult : (c.step (.cycle now body)).2 = (⟨c, now, body⟩ : Turn δ).did := by
          rw [Controller.step, if_pos hactive]
          rfl
        rw [hresult, StepResult.stopsMotor, StepResult.isStoppedCycle, Turn.did_command,
          Turn.did_outcome, (Turn.disciplined _).command]
        cases (⟨c, now, body⟩ : Turn δ).result.outcome with
        | idle startCommanded => cases startCommanded <;> rfl
        | _ => rfl
      · rw [Controller.step, if_neg hactive]
        rfl
  | shutdown => exact absurd rfl h
  | _ => rfl

theorem countP_stopsMotor {inputs : List (Input (MotorDriver.Change δ))} (c : Controller δ)
    (hnone : .shutdown ∉ inputs) :
    (c.run inputs).2.countP StepResult.stopsMotor =
      (c.run inputs).2.countP StepResult.isStoppedCycle := by
  induction inputs generalizing c with
  | nil => rfl
  | cons input inputs ih =>
      rw [List.mem_cons, not_or] at hnone
      rw [Controller.run_cons, List.countP_cons, List.countP_cons, ih _ hnone.2,
        stopsMotor_step c hnone.1]

/-- A controller is shut down once in its life.  The first shutdown stops the
motor; nothing is asked of the driver afterwards, and setters only select.  Of
the stops of a life one is that of the shutdown and the others are those of the
cycles that stopped the motor. -/
theorem shutdown_once {config : ControlConfig} {start : UInt64} {d : δ} {c : Controller δ}
    (hinit : (Controller.init config start d).1 = .ok c)
    (inputs : List (Input (MotorDriver.Change δ))) :
    (∃ past future, untilDropped inputs = past ++ .shutdown :: future ∧
      .shutdown ∉ past ∧ StopsMotorOnce (c.run past).1 ∧
      ∀ early late, future = early ++ late →
        StaysShutDown ((c.run past).1.step .shutdown).1 early) ∧
    (c.run (untilDropped inputs)).2.countP StepResult.stopsMotor =
      1 + (c.run (untilDropped inputs)).2.countP StepResult.isStoppedCycle := by
  have hactive : c.active = true := by
    obtain ⟨_, _, -, -, rfl⟩ := Controller.init_eq_ok_iff.1 hinit
    rfl
  have hmem : (.shutdown : Input (MotorDriver.Change δ)) ∈ untilDropped inputs :=
    List.mem_append_right _ (List.mem_singleton_self _)
  obtain ⟨past, future, hsplit, hnone⟩ := List.eq_append_cons_of_mem hmem
  have hstops := stopsMotorOnce_of_active (active_run hactive hnone)
  refine ⟨⟨past, future, hsplit, hnone, hstops, fun early late _ =>
    staysShutDown_of_inactive early hstops.inactive⟩, ?_⟩
  have hresults : (c.run (untilDropped inputs)).2 =
      (c.run past).2 ++ ((c.run past).1.step .shutdown).2 ::
        (((c.run past).1.step .shutdown).1.run future).2 := by
    rw [hsplit, Controller.results_append]
    rfl
  have hlast : ((c.run past).1.step .shutdown).2.stopsMotor = true := by
    rw [StepResult.stopsMotor, hstops.command]
    rfl
  have hnoCycle : ((c.run past).1.step .shutdown).2.isStoppedCycle = false := by
    rw [StepResult.isStoppedCycle, hstops.outcome]
  have hfuture : (((c.run past).1.step .shutdown).1.run future).2.countP
      StepResult.stopsMotor =
        (((c.run past).1.step .shutdown).1.run future).2.countP StepResult.isStoppedCycle := by
    refine List.countP_congr fun r hr => ?_
    rw [StepResult.stopsMotor_of_silent
      ((staysShutDown_of_inactive future hstops.inactive).silent r hr)]
  rw [hresults, List.countP_append, List.countP_append, List.countP_cons_of_pos hlast,
    List.countP_cons_of_neg (by simp [hnoCycle]), countP_stopsMotor c hnone, hfuture]
  omega

/-- A running motor is stopped by a cycle, then three shutdowns and the drop. -/
def longGoodbye : List (Input BenchDriver) :=
  [.setDuty 1 0, .change { BenchDriver.standard "bench" with runState := .running },
    .cycle 10 .zero, .setDuty 1 20, .cycle 20 .zero, .shutdown, .setDuty 2 30, .cycle 30 .zero,
    .shutdown, .setRpm 4294967295 40, .cycle 40 .zero, .shutdown]

theorem shutdown_once_of_many :
    let c := Controller.broughtUp .standard ControlConfig.standard_valid 0
      (BenchDriver.standard "bench")
    (Controller.init .standard 0 (BenchDriver.standard "bench")).1 = .ok c ∧
      ((c.run (untilDropped longGoodbye)).2.countP StepResult.isStoppedCycle = 1 ∧
        (c.run (untilDropped longGoodbye)).1.state.rpmSetpoint = 20408) ∧
      (∃ past future, untilDropped longGoodbye = past ++ .shutdown :: future ∧
        .shutdown ∉ past ∧ StopsMotorOnce (c.run past).1 ∧
        ∀ early late, future = early ++ late →
          StaysShutDown ((c.run past).1.step .shutdown).1 early) ∧
      (c.run (untilDropped longGoodbye)).2.countP StepResult.stopsMotor =
        1 + (c.run (untilDropped longGoodbye)).2.countP StepResult.isStoppedCycle := by
  intro c
  have hinit : (Controller.init .standard 0 (BenchDriver.standard "bench")).1 = .ok c :=
    Controller.init_eq_ok_iff.2
      ⟨ControlConfig.standard_valid, BenchDriver.standard "bench", rfl, by decide +kernel, rfl⟩
  exact ⟨hinit, by decide +kernel, shutdown_once hinit longGoodbye⟩

end MotorSupervisor
