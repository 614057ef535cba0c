import Mathlib.Tactic.SplitIfs
import MotorSupervisor.Controller

/-!
# Turns of the control loop

A run of a controller is a list of inputs; what matters for most properties
are its control cycles.  A `Turn` is one cycle about to happen: the controller
before it, the clock reading and the running time.  From a turn one reads what
the control step works on and what it does.

**Results.**
* `init_eq_ok_iff`: what bringing up a controller establishes.
* `mem_turns_iff`: the turns are the cycles that a run comes to.
* `step_of_quiet`, `kept_of_quiet`, `measured_of_quiet`: steps without a turn.
* `forall_turns`: an invariant of all steps holds at every turn of a run, and
  `run_invariant` after it; `forall_turns_while` and `run_invariant_while` for
  one that lasts as long as a condition does.
* `forall_command_iff`: the commands of a run are those of its turns and the
  stop of the shutdown.
-/

namespace MotorSupervisor

variable {δ : Type} [MotorDriver δ]

/-- The run state that a control step sees is that of its first reading. -/
theorem runState_observe (mode : Mode) (d : δ) :
    (MotorDriver.observe mode d).2.1.runState =
      MotorDriver.runState (MotorDriver.settle d).1 := by
  unfold MotorDriver.observe
  dsimp only
  split
  · rename_i hrunning
    exact hrunning.1.symm
  · rfl

/-- A motor that does not run is read once. -/
theorem observe_of_not_running {mode : Mode} {d : δ}
    (h : MotorDriver.runState (MotorDriver.settle d).1 ≠ .running) :
    (MotorDriver.observe mode d).1 = (MotorDriver.settle d).1 := by
  unfold MotorDriver.observe
  dsimp only
  rw [if_neg fun hrunning => h hrunning.1]

/-- One control cycle about to happen. -/
structure Turn (δ : Type) where
  before : Controller δ
  now : UInt64
  body : Span

namespace Turn

/-- Seconds since the previous turn. -/
def elapsed (t : Turn δ) : Single :=
  Clock.toSeconds (Clock.elapsed t.before.lastCycle t.now)

/-- The state once old setpoints are dropped. -/
def held (t : Turn δ) : ControlState :=
  (t.before.state.expire t.before.timeout t.before.lastSetter t.now).1

/-- The driver as the readings of the bus find it. -/
def sampled (t : Turn δ) : δ :=
  (MotorDriver.settle t.before.driver).1

/-- The raw reading of the bus. -/
def supply (t : Turn δ) : Supply :=
  MotorDriver.supply t.sampled

/-- The state that the control step works on. -/
def state (t : Turn δ) : ControlState :=
  t.held.filter t.before.parameters.filterTau t.elapsed t.supply

/-- The driver as the control step leaves it, before its command. -/
def observed (t : Turn δ) : δ :=
  (MotorDriver.observe t.state.mode t.sampled).1

/-- The readings of the motor that the control step uses. -/
def readings (t : Turn δ) : Readings :=
  (MotorDriver.observe t.state.mode t.sampled).2.1

/-- What the control step decides. -/
def result (t : Turn δ) : CycleResult :=
  t.state.cycle t.before.parameters t.elapsed t.readings

/-- The controller after the turn. -/
def after (t : Turn δ) : Controller δ :=
  (t.before.cycle t.now t.body).1

/-- What the turn did. -/
def did (t : Turn δ) : StepResult :=
  (t.before.cycle t.now t.body).2

@[simp] theorem after_state (t : Turn δ) : t.after.state = t.result.state :=
  rfl

@[simp] theorem after_parameters (t : Turn δ) : t.after.parameters = t.before.parameters :=
  rfl

@[simp] theorem after_driver (t : Turn δ) :
    t.after.driver = (MotorDriver.performAll t.result.command t.observed).1 :=
  rfl

@[simp] theorem did_outcome (t : Turn δ) : t.did.outcome = some t.result.outcome :=
  rfl

@[simp] theorem did_command (t : Turn δ) : t.did.command = t.result.command :=
  rfl

@[simp] theorem state_limits (t : Turn δ) : t.state.limits = t.before.state.limits := by
  simp only [state, ControlState.filter, held, ControlState.expire]
  split <;> rfl

@[simp] theorem state_duty (t : Turn δ) : t.state.duty = t.before.state.duty := by
  simp only [state, ControlState.filter, held, ControlState.expire]
  split <;> rfl

@[simp] theorem state_mode (t : Turn δ) : t.state.mode = t.held.mode := by
  simp only [state, ControlState.filter]

@[simp] theorem state_dutySetpoint (t : Turn δ) :
    t.state.dutySetpoint = t.held.dutySetpoint := by
  simp only [state, ControlState.filter]

@[simp] theorem state_rpmSetpoint (t : Turn δ) : t.state.rpmSetpoint = t.held.rpmSetpoint := by
  simp only [state, ControlState.filter]

end Turn

/-- All rules of a valid configuration. -/
theorem ControlConfig.valid_iff {config : ControlConfig} :
    config.Valid ↔
      config.poles ≠ 0 ∧ 0 < config.spinupVoltage ∧ 0 ≤ config.dutyStepMax ∧
        0 < config.dutySlope ∧ 0 ≤ config.filterTau ∧ config.controlPeriodMicros ≠ 0 ∧
        config.setpointTimeoutMillis.toNat ≤ maxTimeoutMillis := by
  unfold Valid violation?
  split_ifs <;> simp_all

/-- The tuning that the loop was built with breaks no rule. -/
theorem ControlConfig.standard_valid : ControlConfig.standard.Valid := by
  decide +kernel

namespace Controller

/-- The turns of a run, in order. -/
def turns : List (Input (MotorDriver.Change δ)) → Controller δ → List (Turn δ)
  | [], _ => []
  | input :: inputs, c =>
      let rest := turns inputs (c.step input).1
      match input with
      | .cycle now body => if c.active then ⟨c, now, body⟩ :: rest else rest
      | _ => rest

/-- The turns of a run are its cycles before the shutdown. -/
theorem mem_turns_iff {inputs : List (Input (MotorDriver.Change δ))} {c : Controller δ}
    {t : Turn δ} :
    t ∈ c.turns inputs ↔
      ∃ past future, inputs = past ++ .cycle t.now t.body :: future ∧
        (c.run past).1 = t.before ∧ t.before.active = true := by
  induction inputs generalizing c with
  | nil => simp [turns]
  | cons input inputs ih =>
      have hrest : t ∈ (c.step input).1.turns inputs ↔
          ∃ past future, input :: inputs = (input :: past) ++ .cycle t.now t.body :: future ∧
            (c.run (input :: past)).1 = t.before ∧ t.before.active = true := by
        rw [ih]
        simp [run]
      have hcons : (∃ past future, input :: inputs = past ++ .cycle t.now t.body :: future ∧
            (c.run past).1 = t.before ∧ t.before.active = true) ↔
          (input = .cycle t.now t.body ∧ c = t.before ∧ t.before.active = true) ∨
            t ∈ (c.step input).1.turns inputs := by
        rw [hrest]
        constructor
        · rintro ⟨past, future, hinputs, hrun, hactive⟩
          cases past with
          | nil => exact Or.inl ⟨(List.cons.inj hinputs).1, hrun, hactive⟩
          | cons first past =>
              obtain rfl := (List.cons.inj hinputs).1
              exact Or.inr ⟨past, future, hinputs, hrun, hactive⟩
        · rintro (⟨rfl, rfl, hactive⟩ | ⟨past, future, hinputs, hrun, hactive⟩)
          · exact ⟨[], inputs, rfl, rfl, hactive⟩
          · exact ⟨input :: past, future, hinputs, hrun, hactive⟩
      rw [hcons]
      cases input with
      | cycle now body =>
          by_cases hactive : c.active
          · have hhead : t = ⟨c, now, body⟩ ↔
                (Input.cycle now body : Input (MotorDriver.Change δ)) = .cycle t.now t.body ∧
                  c = t.before ∧ t.before.active = true := by
              constructor
              · rintro rfl
                exact ⟨rfl, rfl, hactive⟩
              · rcases t with ⟨before, now', body'⟩
                rintro ⟨hinput, rfl, -⟩
                obtain ⟨rfl, rfl⟩ := Input.cycle.inj hinput
                rfl
            rw [← hhead]
            simp [turns, hactive]
          · have hhead : ¬ (c = t.before ∧ t.before.active = true) := by
              rintro ⟨rfl, h⟩
              exact hactive h
            simp [turns, hactive, hhead]
      | _ => simp [turns]

/-- The controller of a driver that is up. -/
def broughtUp (config : ControlConfig) (valid : config.Valid) (now : UInt64) (d : δ) :
    Controller δ :=
  ready config (Parameters.derive config valid.poles_pos (MotorDriver.periodLimit d)) now
    (MotorDriver.settle d).1

/-- The bus voltage of a driver that is up is one that is accepted. -/
def VoltageAccepted (d : δ) : Prop :=
  minInputVoltage ≤ (MotorDriver.supply (MotorDriver.settle d).1).voltage ∧
    (MotorDriver.supply (MotorDriver.settle d).1).voltage ≤ maxInputVoltage

instance (d : δ) : Decidable (VoltageAccepted d) :=
  inferInstanceAs (Decidable (_ ∧ _))

theorem accept_eq_ok_iff
    {config : ControlConfig} {valid : config.Valid} {now : UInt64} {d : δ}
    {c : Controller δ} :
    (accept config valid now d).1 = .ok c ↔
      VoltageAccepted d ∧ broughtUp config valid now d = c := by
  unfold accept
  dsimp only [ready, ControlState.seedFilters]
  by_cases hvoltage : VoltageAccepted d
  · have hvoltage' := hvoltage
    unfold VoltageAccepted at hvoltage'
    rw [if_pos hvoltage']
    simp [hvoltage, broughtUp, ready, ControlState.seedFilters]
  · have hvoltage' := hvoltage
    unfold VoltageAccepted at hvoltage'
    rw [if_neg hvoltage']
    simp [hvoltage]

/-- What bringing up a controller establishes. -/
theorem init_eq_ok_iff
    {config : ControlConfig} {now : UInt64} {d : δ} {c : Controller δ} :
    (init config now d).1 = .ok c ↔
      ∃ (valid : config.Valid) (up : δ), (MotorDriver.bringUp d).1 = .ok up ∧
        VoltageAccepted up ∧ broughtUp config valid now up = c := by
  unfold init
  split
  · rename_i violation hviolation
    constructor
    · intro h
      cases h
    · rintro ⟨valid, -⟩
      rw [ControlConfig.Valid, hviolation] at valid
      cases valid
  · rename_i hvalid
    rcases hup : MotorDriver.bringUp d with ⟨e | up, log⟩
    · simp
    · refine (@accept_eq_ok_iff _ _ config hvalid now up c).trans ?_
      constructor
      · intro h
        exact ⟨hvalid, up, rfl, h⟩
      · rintro ⟨_, up', hup', h⟩
        obtain rfl := Except.ok.inj hup'
        exact h

/-- An input that starts no turn. -/
def Quiet (input : Input (MotorDriver.Change δ)) (c : Controller δ) : Prop :=
  match input with
  | .cycle _ _ => c.active = false
  | _ => True

/-- Without a turn only setters reach the state; driver and activity aside,
everything else leaves the controller as it is. -/
theorem step_of_quiet {input : Input (MotorDriver.Change δ)} {c : Controller δ}
    (h : Quiet input c) :
    (∃ duty now, input = .setDuty duty now ∧ (c.step input).1 = c.setDuty duty now) ∨
      (∃ rpm now, input = .setRpm rpm now ∧ (c.step input).1 = c.setRpm rpm now) ∨
        ∃ driver active, (c.step input).1 = { c with driver := driver, active := active } := by
  cases input with
  | setDuty duty now => exact Or.inl ⟨duty, now, rfl, rfl⟩
  | setRpm rpm now => exact Or.inr (Or.inl ⟨rpm, now, rfl, rfl⟩)
  | cycle now body =>
      have hidle : ¬ c.active = true := by simpa [Quiet] using h
      exact Or.inr (Or.inr ⟨c.driver, c.active, by rw [step, if_neg hidle]⟩)
  | change change => exact Or.inr (Or.inr ⟨_, c.active, rfl⟩)
  | shutdown =>
      by_cases hactive : c.active
      · exact Or.inr (Or.inr ⟨_, false, by rw [step, if_pos hactive]; rfl⟩)
      · exact Or.inr (Or.inr ⟨c.driver, c.active, by rw [step, if_neg hactive]⟩)

/-- What no setter touches. -/
structure Kept (c c' : Controller δ) : Prop where
  parameters : c'.parameters = c.parameters
  timeout : c'.timeout = c.timeout
  limits : c'.state.limits = c.state.limits
  duty : c'.state.duty = c.state.duty
  supply : c'.state.supply = c.state.supply

theorem kept_of_quiet {input : Input (MotorDriver.Change δ)} {c : Controller δ}
    (h : Quiet input c) : c.Kept (c.step input).1 := by
  obtain ⟨_, _, -, hstep⟩ | ⟨_, _, -, hstep⟩ | ⟨_, _, hstep⟩ := step_of_quiet h <;>
  · rw [hstep]
    exact ⟨rfl, rfl, rfl, rfl, rfl⟩

/-- Without a turn nothing is measured. -/
theorem measured_of_quiet {input : Input (MotorDriver.Change δ)} {c : Controller δ}
    (h : Quiet input c) :
    (c.step input).1.lastCycle = c.lastCycle ∧ (c.step input).1.stats = c.stats := by
  obtain ⟨_, _, -, hstep⟩ | ⟨_, _, -, hstep⟩ | ⟨_, _, hstep⟩ := step_of_quiet h <;>
  · rw [hstep]
    exact ⟨rfl, rfl⟩

/-- A first input either is a turn or starts none. -/
theorem turns_cons (input : Input (MotorDriver.Change δ))
    (inputs : List (Input (MotorDriver.Change δ))) (c : Controller δ) :
    (Quiet input c ∧ c.turns (input :: inputs) = (c.step input).1.turns inputs) ∨
      ∃ t : Turn δ, t.before = c ∧ t.after = (c.step input).1 ∧ t.did = (c.step input).2 ∧
        c.turns (input :: inputs) = t :: (c.step input).1.turns inputs := by
  cases input with
  | cycle now body =>
      by_cases hactive : c.active
      · exact Or.inr ⟨⟨c, now, body⟩, rfl, by simp [step, hactive, Turn.after],
          by simp [step, hactive, Turn.did], by simp [turns, hactive]⟩
      · exact Or.inl ⟨by simpa [Quiet] using hactive, by simp [turns, hactive]⟩
  | _ => exact Or.inl ⟨trivial, rfl⟩

/-- An invariant that holds as long as inputs and turns meet a condition. -/
theorem forall_turns_while {I : Controller δ → Prop}
    {P : Input (MotorDriver.Change δ) → Prop} {H : Turn δ → Prop}
    (hquiet : ∀ input c, P input → Quiet input c → I c → I (c.step input).1)
    (hturn : ∀ t : Turn δ, H t → I t.before → I t.after)
    (inputs : List (Input (MotorDriver.Change δ))) {c : Controller δ} (h : I c)
    (hinputs : ∀ input ∈ inputs, P input) (hturns : ∀ t ∈ c.turns inputs, H t) :
    ∀ t ∈ c.turns inputs, I t.before := by
  induction inputs generalizing c with
  | nil => simp [turns]
  | cons input inputs ih =>
      rw [List.forall_mem_cons] at hinputs
      rcases turns_cons input inputs c with ⟨hq, hcons⟩ | ⟨t, rfl, hafter, -, hcons⟩
      · rw [hcons] at hturns ⊢
        exact ih (hquiet input c hinputs.1 hq h) hinputs.2 hturns
      · rw [hcons, List.forall_mem_cons] at hturns ⊢
        exact ⟨h, ih (hafter ▸ hturn t hturns.1 h) hinputs.2 hturns.2⟩

/-- An invariant of all steps holds at every turn of a run. -/
theorem forall_turns {I : Controller δ → Prop}
    (hquiet : ∀ input c, Quiet input c → I c → I (c.step input).1)
    (hturn : ∀ t : Turn δ, I t.before → I t.after)
    (inputs : List (Input (MotorDriver.Change δ))) {c : Controller δ} (h : I c) :
    ∀ t ∈ c.turns inputs, I t.before :=
  forall_turns_while (P := fun _ => True) (H := fun _ => True)
    (fun input c _ => hquiet input c) (fun t _ => hturn t) inputs h
    (fun _ _ => trivial) (fun _ _ => trivial)

/-- An invariant that holds as long as inputs and turns meet a condition holds
after a run that meets it. -/
theorem run_invariant_while {I : Controller δ → Prop}
    {P : Input (MotorDriver.Change δ) → Prop} {H : Turn δ → Prop}
    (hquiet : ∀ input c, P input → Quiet input c → I c → I (c.step input).1)
    (hturn : ∀ t : Turn δ, H t → I t.before → I t.after)
    (inputs : List (Input (MotorDriver.Change δ))) {c : Controller δ} (h : I c)
    (hinputs : ∀ input ∈ inputs, P input) (hturns : ∀ t ∈ c.turns inputs, H t) :
    I (c.run inputs).1 := by
  induction inputs generalizing c with
  | nil => exact h
  | cons input inputs ih =>
      rw [List.forall_mem_cons] at hinputs
      rcases turns_cons input inputs c with ⟨hq, hcons⟩ | ⟨t, rfl, hafter, -, hcons⟩
      · rw [hcons] at hturns
        exact ih (hquiet input c hinputs.1 hq h) hinputs.2 hturns
      · rw [hcons, List.forall_mem_cons] at hturns
        exact ih (hafter ▸ hturn t hturns.1 h) hinputs.2 hturns.2

/-- An invariant of all steps holds after every run. -/
theorem run_invariant {I : Controller δ → Prop}
    (hquiet : ∀ input c, Quiet input c → I c → I (c.step input).1)
    (hturn : ∀ t : Turn δ, I t.before → I t.after)
    (inputs : List (Input (MotorDriver.Change δ))) {c : Controller δ} (h : I c) :
    I (c.run inputs).1 :=
  run_invariant_while (P := fun _ => True) (H := fun _ => True)
    (fun input c _ => hquiet input c) (fun t _ => hturn t) inputs h
    (fun _ _ => trivial) (fun _ _ => trivial)

theorem run_cons (input : Input (MotorDriver.Change δ))
    (inputs : List (Input (MotorDriver.Change δ))) (c : Controller δ) :
    c.run (input :: inputs) =
      (((c.step input).1.run inputs).1, (c.step input).2 :: ((c.step input).1.run inputs).2) :=
  rfl

theorem run_append (past future : List (Input (MotorDriver.Change δ))) (c : Controller δ) :
    (c.run (past ++ future)).1 = ((c.run past).1.run future).1 := by
  induction past generalizing c with
  | nil => rfl
  | cons input past ih => exact ih (c.step input).1

theorem results_append (past future : List (Input (MotorDriver.Change δ)))
    (c : Controller δ) :
    (c.run (past ++ future)).2 = (c.run past).2 ++ ((c.run past).1.run future).2 := by
  induction past generalizing c with
  | nil => rfl
  | cons input past ih => exact congrArg ((c.step input).2 :: ·) (ih (c.step input).1)

/-- A controller that is active after a step was so before. -/
theorem active_of_step {input : Input (MotorDriver.Change δ)} {c : Controller δ}
    (h : (c.step input).1.active = true) : c.active = true := by
  by_cases hactive : c.active = true
  · exact hactive
  · cases input with
    | cycle now body => rwa [step, if_neg hactive] at h
    | shutdown => rwa [step, if_neg hactive] at h
    | _ => exact h

theorem active_of_run {inputs : List (Input (MotorDriver.Change δ))} {c : Controller δ}
    (h : (c.run inputs).1.active = true) : c.active = true := by
  induction inputs generalizing c with
  | nil => exact h
  | cons input inputs ih => exact active_of_step (ih h)

theorem turns_append (past future : List (Input (MotorDriver.Change δ))) (c : Controller δ) :
    c.turns (past ++ future) = c.turns past ++ (c.run past).1.turns future := by
  induction past generalizing c with
  | nil => rfl
  | cons input past ih =>
      cases input with
      | cycle now body =>
          rw [run_cons, List.cons_append, turns, turns, ih]
          split <;> rfl
      | _ => exact ih _

/-- The parameters are those of the start. -/
theorem run_parameters (inputs : List (Input (MotorDriver.Change δ))) (c : Controller δ) :
    (c.run inputs).1.parameters = c.parameters := by
  refine run_invariant (I := fun c' => c'.parameters = c.parameters) ?_ ?_ inputs rfl
  · intro input c' hquiet h
    exact (kept_of_quiet hquiet).parameters.trans h
  · intro t h
    exact h

theorem turns_parameters (inputs : List (Input (MotorDriver.Change δ))) (c : Controller δ) :
    ∀ t ∈ c.turns inputs, t.before.parameters = c.parameters := by
  intro t ht
  obtain ⟨past, -, -, hbefore, -⟩ := mem_turns_iff.1 ht
  rw [← hbefore, run_parameters]

/-- The commands of a run are those of its turns and the stop of the
shutdown. -/
theorem forall_command_iff {P : Command → Prop} (hstop : P .stop)
    (inputs : List (Input (MotorDriver.Change δ))) (c : Controller δ) :
    (∀ r ∈ (c.run inputs).2, ∀ k ∈ r.command, P k) ↔
      ∀ t ∈ c.turns inputs, ∀ k ∈ t.result.command, P k := by
  induction inputs generalizing c with
  | nil => simp [run, turns]
  | cons input inputs ih =>
      rw [run_cons, List.forall_mem_cons, ih]
      cases input with
      | cycle now body =>
          simp only [turns]
          by_cases hactive : c.active
          · rw [if_pos hactive, List.forall_mem_cons]
            simp only [step, if_pos hactive]
            rfl
          · rw [if_neg hactive]
            simp [step, hactive, StepResult.silent]
      | shutdown =>
          by_cases hactive : c.active
          · simp [turns, step, hactive, shutdown, hstop]
          · simp [turns, step, hactive, StepResult.silent]
      | _ => simp [turns, step, StepResult.silent]

end Controller
end MotorSupervisor
