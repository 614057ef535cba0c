import MotorSupervisor.Proofs.RotorTurn
import MotorSupervisor.Proofs.Setpoint

/-!
# Commands and their order

A control cycle gives the driver at most one command, and its outcome says
which.  Over a rotor that moves between cycles only, the commands come in the
order that the rotor is made for: a start finds it at rest, a duty finds it
running, and from one start to the next it has come to rest, because a cycle
stopped it or because it stalled.

**Definitions.**
* `Outcome.command?`: the command that an outcome stands for.
* `CycleResult.Disciplined`: outcome and command of a cycle agree.
* `ComesToRest`: a stop or a stall of the rotor.

**Results.**
* `disciplined_cycle`, `fits_cycle`: one cycle, whatever the readings.
* `comesToRest_of_step`, `exists_comesToRest`: how a moving rotor comes to rest
  in one step, and in a run.
* `command_discipline`: commands over all cycles and all runs.
-/

namespace MotorSupervisor

/-- The command that an outcome stands for, at the duty and in the direction
that are in force. -/
def Outcome.command? (duty : Single) (reverse : Bool) : Outcome → Option Command
  | .starting => none
  | .idle startCommanded => if startCommanded then some (.start duty duty reverse) else none
  | .driving _ _ => some (.setDuty duty)
  | .stopped _ => some .stop

theorem Outcome.command?_eq_stop_iff {duty : Single} {reverse : Bool} {outcome : Outcome} :
    outcome.command? duty reverse = some .stop ↔ ∃ unavailable, outcome = .stopped unavailable := by
  cases outcome with
  | idle startCommanded => cases startCommanded <;> simp [command?]
  | _ => simp [command?]

/-- The result of a cycle in a mode is consistent. -/
structure CycleResult.Disciplined (result : CycleResult) (mode : Mode) (reverse : Bool) :
    Prop where
  command : result.command = result.outcome.command? result.state.duty reverse
  driving : ∀ duty slewed, result.outcome = .driving duty slewed → duty = result.state.duty
  stopped : ∀ unavailable, result.outcome = .stopped unavailable →
    (unavailable = true ↔ mode = .rpmTarget)

/-- A command suits the motor that it is meant for. -/
def Command.Fits (runState : RunState) (mode : Mode) : Command → Prop
  | .start _ _ _ => runState = .idle
  | .stop => runState = .running
  | .setDuty _ => runState = .running ∧ mode = .openLoop

namespace ControlState

variable (p : Parameters) (dt : Single) (r : Readings) (s : ControlState)

theorem disciplined_cycle : (s.cycle p dt r).Disciplined s.mode p.reverse := by
  cases hrun : r.runState with
  | starting =>
      rw [cycle_starting hrun]
      exact ⟨rfl, nofun, nofun⟩
  | idle =>
      rw [cycle_idle hrun]
      exact ⟨rfl, nofun, nofun⟩
  | running =>
      cases htarget : s.target? p r.period with
      | none =>
          rw [cycle_stop hrun htarget]
          refine ⟨rfl, nofun, fun unavailable h => ?_⟩
          rw [← Outcome.stopped.inj h, decide_eq_true_iff]
      | some target =>
          rw [cycle_drive hrun htarget]
          exact ⟨rfl, fun duty slewed h => (Outcome.driving.inj h).1.symm, nofun⟩

theorem fits_cycle : ∀ k ∈ (s.cycle p dt r).command, k.Fits r.runState s.mode := by
  intro k hk
  cases hrun : r.runState with
  | starting =>
      rw [cycle_starting hrun] at hk
      cases hk
  | idle =>
      rw [cycle_idle hrun] at hk
      cases hwants : s.wantsStart p with
      | true =>
          simp only [hwants, if_true, Option.mem_some_iff] at hk
          exact hk ▸ rfl
      | false => simp [hwants] at hk
  | running =>
      cases htarget : s.target? p r.period with
      | none =>
          rw [cycle_stop hrun htarget] at hk
          obtain rfl := Option.mem_some_iff.1 hk
          rfl
      | some target =>
          rw [cycle_drive hrun htarget] at hk
          obtain rfl := Option.mem_some_iff.1 hk
          exact ⟨rfl, (target?_eq_some_iff.1 htarget).1⟩

end ControlState

theorem Turn.disciplined {δ : Type} [MotorDriver δ] (t : Turn δ) :
    t.result.Disciplined t.state.mode t.before.parameters.reverse :=
  t.state.disciplined_cycle t.before.parameters t.elapsed t.readings

theorem Turn.fits {δ : Type} [MotorDriver δ] {t : Turn δ} {k : Command}
    (h : t.did.command = some k) : k.Fits t.readings.runState t.state.mode :=
  t.state.fits_cycle t.before.parameters t.elapsed t.readings k h

def Command.IsStart : Command → Prop
  | .start _ _ _ => True
  | _ => False

instance : DecidablePred Command.IsStart
  | .start _ _ _ => inferInstanceAs (Decidable True)
  | .stop => inferInstanceAs (Decidable False)
  | .setDuty _ => inferInstanceAs (Decidable False)

def StepResult.Starts (result : StepResult) : Prop :=
  ∃ k ∈ result.command, k.IsStart

instance (result : StepResult) : Decidable result.Starts :=
  inferInstanceAs (Decidable (∃ k ∈ _, _))

theorem StepResult.starts_iff {result : StepResult} :
    result.Starts ↔
      ∃ target spinup reverse, result.command = some (.start target spinup reverse) := by
  constructor
  · rintro ⟨k, hk, hstart⟩
    cases k with
    | start target spinup reverse => exact ⟨target, spinup, reverse, hk⟩
    | stop => cases hstart
    | setDuty duty => cases hstart
  · rintro ⟨target, spinup, reverse, h⟩
    exact ⟨_, h, trivial⟩

/-- Only an active cycle commands a start. -/
theorem turn_of_starts {δ : Type} [MotorDriver δ] {input : Input (MotorDriver.Change δ)}
    {c : Controller δ} (h : (c.step input).2.Starts) :
    ∃ t : Turn δ, t.before = c ∧ t.after = (c.step input).1 ∧ t.did = (c.step input).2 ∧
      c.active = true := by
  obtain ⟨target, spinup, reverse, h⟩ := StepResult.starts_iff.1 h
  cases input with
  | cycle now body =>
      by_cases hactive : c.active
      · rw [Controller.step, if_pos hactive]
        exact ⟨⟨c, now, body⟩, rfl, rfl, rfl, hactive⟩
      · rw [Controller.step, if_neg hactive] at h
        cases h
  | shutdown =>
      by_cases hactive : c.active
      · rw [Controller.step, if_pos hactive] at h
        cases h
      · rw [Controller.step, if_neg hactive] at h
        cases h
  | _ => cases h

/-- In a step the rotor is stopped by a cycle, or it stalls. -/
def ComesToRest (c : Controller RotorDriver) (input : Input Span) : Prop :=
  c.driver.rotor.state ≠ .idle ∧ (c.step input).1.driver.rotor.state = .idle ∧
    ((∃ unavailable, (c.step input).2.outcome = some (.stopped unavailable)) ∨
      ∃ elapsed, input = .change elapsed ∧ c.driver.rotor.state = .running ∧
        c.driver.rotor.speedAfter elapsed < c.driver.rotor.config.stallRpm)

section Rotor

variable {c : Controller RotorDriver} {t : Turn RotorDriver}

theorem rotor_start {target spinup : Single} {reverse : Bool}
    (h : t.did.command = some (.start target spinup reverse)) :
    t.before.driver.rotor.state = .idle ∧
      t.after.driver.rotor =
        { t.before.driver.rotor with
          state := .starting
          duty := Rotor.admissible target
          reverse := reverse
          spinupLeft := t.before.driver.rotor.spinupTime
          spinupTarget := t.before.driver.rotor.noLoadSpeed (Rotor.admissible spinup) } := by
  have hidle : t.before.driver.rotor.state = .idle := by
    rw [← rotor_runState]
    exact Turn.fits h
  refine ⟨hidle, ?_⟩
  rw [rotor_after, h]
  exact Rotor.start_of_idle _ target spinup reverse hidle

/-- A turn after which a moving rotor is at rest has stopped it. -/
theorem stopped_of_turn (hmoving : t.before.driver.rotor.state ≠ .idle)
    (hrest : t.after.driver.rotor.state = .idle) :
    ∃ unavailable, t.did.outcome = some (.stopped unavailable) := by
  have hstop : t.did.command = some .stop := by
    rw [rotor_after] at hrest
    cases hcommand : t.did.command with
    | none =>
        rw [hcommand] at hrest
        exact absurd hrest hmoving
    | some k =>
        rw [hcommand] at hrest
        cases k with
        | start target spinup reverse => exact absurd (rotor_start hcommand).1 hmoving
        | stop => rfl
        | setDuty duty => exact absurd ((Rotor.state_setDuty _ duty).symm.trans hrest) hmoving
  rw [Turn.did_command, t.disciplined.command, Outcome.command?_eq_stop_iff] at hstop
  obtain ⟨unavailable, houtcome⟩ := hstop
  exact ⟨unavailable, by rw [Turn.did_outcome, houtcome]⟩

/-- A step that brings a moving rotor to rest, other than the shutdown. -/
theorem comesToRest_of_step {input : Input Span} (hmoving : c.driver.rotor.state ≠ .idle)
    (hrest : (c.step input).1.driver.rotor.state = .idle)
    (hactive : (c.step input).1.active = true) : ComesToRest c input := by
  refine ⟨hmoving, hrest, ?_⟩
  cases input with
  | setDuty duty now => exact absurd hrest hmoving
  | setRpm rpm now => exact absurd hrest hmoving
  | cycle now body =>
      have hbefore := Controller.active_of_step hactive
      rw [Controller.step, if_pos hbefore] at hrest ⊢
      exact Or.inl (stopped_of_turn (t := ⟨c, now, body⟩) hmoving hrest)
  | change elapsed => exact Or.inr ⟨elapsed, rfl, Rotor.stalls_of_advance hmoving hrest⟩
  | shutdown =>
      -- it stops the rotor too, but no cycle comes after it
      have hbefore := Controller.active_of_step hactive
      rw [Controller.step, if_pos hbefore] at hactive
      cases hactive

/-- In a run that brings a moving rotor to rest there is a step that does. -/
theorem exists_comesToRest {inputs : List (Input Span)}
    (hmoving : c.driver.rotor.state ≠ .idle)
    (hrest : (c.run inputs).1.driver.rotor.state = .idle)
    (hactive : (c.run inputs).1.active = true) :
    ∃ early input late, inputs = early ++ input :: late ∧
      ComesToRest (c.run early).1 input := by
  -- the rotor is moving at the head of the list until the step is found
  induction inputs generalizing c with
  | nil => exact absurd hrest hmoving
  | cons input inputs ih =>
      by_cases hstep : (c.step input).1.driver.rotor.state = .idle
      · exact ⟨[], input, inputs, rfl,
          comesToRest_of_step hmoving hstep (Controller.active_of_run hactive)⟩
      · obtain ⟨early, found, late, rfl, hfound⟩ := ih hstep hrest hactive
        exact ⟨input :: early, found, late, rfl, hfound⟩

theorem rotor_setDuty {duty : Single} (h : t.did.command = some (.setDuty duty)) :
    t.before.driver.rotor.state = .running ∧ t.before.state.mode = .openLoop ∧
      t.after.driver.rotor.duty = Rotor.admissible duty := by
  have hfits := Turn.fits h
  rw [Command.Fits, rotor_runState] at hfits
  obtain ⟨hrun, hmode⟩ := hfits
  refine ⟨hrun, t.setpointsKept_state.1.symm.trans hmode, ?_⟩
  rw [rotor_after, h]
  exact Rotor.duty_setDuty _ duty hrun

end Rotor

/-- The commands of a run over a rotor come in order. -/
structure OrderlyRun (c : Controller RotorDriver) (inputs : List (Input Span)) : Prop where
  start : ∀ t ∈ c.turns inputs, ∀ target spinup reverse,
    t.did.command = some (.start target spinup reverse) →
      t.before.driver.rotor.state = .idle ∧
        t.after.driver.rotor =
          { t.before.driver.rotor with
            state := .starting
            duty := Rotor.admissible target
            reverse := reverse
            spinupLeft := t.before.driver.rotor.spinupTime
            spinupTarget := t.before.driver.rotor.noLoadSpeed (Rotor.admissible spinup) }
  setDuty : ∀ t ∈ c.turns inputs, ∀ duty, t.did.command = some (.setDuty duty) →
    t.before.driver.rotor.state = .running ∧ t.before.state.mode = .openLoop ∧
      t.after.driver.rotor.duty = Rotor.admissible duty
  between : ∀ past first mid second future,
    inputs = past ++ first :: (mid ++ second :: future) →
      ((c.run past).1.step first).2.Starts →
        ((c.run (past ++ first :: mid)).1.step second).2.Starts →
          ∃ early input late, mid = early ++ input :: late ∧
            ComesToRest (c.run (past ++ first :: early)).1 input

/-- From one start to the next the rotor comes to rest. -/
theorem comesToRest_between_starts {c : Controller RotorDriver} {first second : Input Span}
    {mid : List (Input Span)} (hfirst : (c.step first).2.Starts)
    (hsecond : (((c.step first).1.run mid).1.step second).2.Starts) :
    ∃ early input late, mid = early ++ input :: late ∧
      ComesToRest ((c.step first).1.run early).1 input := by
  obtain ⟨t₁, -, hafter₁, hdid₁, -⟩ := turn_of_starts hfirst
  obtain ⟨t₂, hbefore₂, -, hdid₂, hactive⟩ := turn_of_starts hsecond
  rw [← hdid₁] at hfirst
  rw [← hdid₂] at hsecond
  obtain ⟨_, _, _, hstart₁⟩ := StepResult.starts_iff.1 hfirst
  obtain ⟨_, _, _, hstart₂⟩ := StepResult.starts_iff.1 hsecond
  have hmoving : (c.step first).1.driver.rotor.state ≠ .idle := by
    rw [← hafter₁, (rotor_start hstart₁).2]
    nofun
  have hrest : ((c.step first).1.run mid).1.driver.rotor.state = .idle := by
    rw [← hbefore₂]
    exact (rotor_start hstart₂).1
  exact exists_comesToRest hmoving hrest hactive

theorem orderly_run (c : Controller RotorDriver) (inputs : List (Input Span)) :
    OrderlyRun c inputs where
  start := fun _ _ _ _ _ h => rotor_start h
  setDuty := fun _ _ _ h => rotor_setDuty h
  between := by
    intro past first mid second future _ hfirst hsecond
    have hsplit : ∀ rest, (c.run (past ++ first :: rest)).1 =
        (((c.run past).1.step first).1.run rest).1 :=
      fun rest => Controller.run_append past (first :: rest) c
    simp only [hsplit] at hsecond ⊢
    exact comesToRest_between_starts hfirst hsecond

/-- Every cycle gives the driver the one command that its outcome stands for,
and over a rotor the commands of every run come in order. -/
theorem command_discipline :
    (∀ (p : Parameters) (dt : Single) (r : Readings) (s : ControlState),
      (s.cycle p dt r).Disciplined s.mode p.reverse) ∧
    (∀ (δ : Type) [MotorDriver δ] (t : Turn δ),
      t.did.command = (t.state.cycle t.before.parameters t.elapsed t.readings).command ∧
        t.after.driver = (MotorDriver.performAll t.did.command t.observed).1) ∧
    ∀ (c : Controller RotorDriver) (inputs : List (Input Span)), OrderlyRun c inputs :=
  ⟨fun p dt r s => s.disciplined_cycle p dt r, fun _ _ _ => ⟨rfl, rfl⟩, orderly_run⟩

/-- What happens between the two starts of a run: a spin-up and a stop. -/
def spinupAndStop : List (Input Span) :=
  [.change (.ofMillis 600), .setDuty 0 20, .cycle 20 .zero, .setDuty 1 30]

theorem rest_between_two_starts :
    let c := (Controller.broughtUp .standard ControlConfig.standard_valid 0 restingRotor).setDuty
      1 0
    (c.step (.cycle 10 .zero)).2.Starts ∧
      ((c.run (.cycle 10 .zero :: spinupAndStop)).1.step (.cycle 30 .zero)).2.Starts ∧
      ∃ early input late, spinupAndStop = early ++ input :: late ∧
        ComesToRest (c.run (.cycle 10 .zero :: early)).1 input := by
  intro c
  have hfirst : (c.step (.cycle 10 .zero)).2.Starts := by decide +kernel
  have hsecond :
      ((c.run (.cycle 10 .zero :: spinupAndStop)).1.step (.cycle 30 .zero)).2.Starts := by
    decide +kernel
  exact ⟨hfirst, hsecond, (command_discipline.2.2 c _).between [] (.cycle 10 .zero)
    spinupAndStop (.cycle 30 .zero) [] rfl hfirst hsecond⟩

end MotorSupervisor
