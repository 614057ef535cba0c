import MotorSupervisor.Proofs.SetpointTimeout

/-!
# The setpoint that is not in force

A setter keeps the setpoint of the other mode, and the timeout asks for either
of them before it drops both.  A stale setpoint is therefore read, and it can
turn the sign of a zero: a setpoint of `-0` that is dropped becomes `+0`.
Nothing of this reaches the motor.

The proof runs two controllers side by side whose states are `Alike`: they
agree on everything but the inactive setpoint, and in open loop their duty
setpoints are equal or both zero.  Every step keeps them alike and does the
same on both sides.

A control state is one that some run comes to, and its duty setpoint was clamped
when it was set.  A negative duty setpoint in force, which no setter makes, would
be let alone or dropped by a timeout according to the stale one.

**Definitions.**
* `ControlState.AgreeOnActive`: states that differ in the inactive setpoint.
* `ControlState.Reached`: the states that a controller can be in.
* `ControlState.Alike`, `ControlState.Droppable`: the relation between two runs, and
  what it asks of the duty setpoint.
* `Controller.observations`: what is seen of a run.

**Results.**
* `Alike.expire`, `Alike.cycle`: the relation through the parts of a turn.
* `step_alike`: the relation through one step, whatever the input.
* `Reached.inUnit`: the duty setpoint of a state that a controller can be in.
* `observations_alike`: two runs from states that are alike look the same.
* `inactive_setpoint_unseen`: two runs that differ in the inactive setpoint
  cannot be told apart.
-/

namespace MotorSupervisor

open Binary

/-- Two duty setpoints with the same effect. -/
def SameSetpoint (x y : Single) : Prop :=
  y = x ∨ (x.IsZero ∧ y.IsZero)

namespace SameSetpoint

variable {x y : Single}

theorem lt_iff (h : SameSetpoint x y) (z : Single) : z < y ↔ z < x := by
  obtain rfl | ⟨hx, hy⟩ := h
  · rfl
  · rw [hx.lt_iff_neg, hy.lt_iff_neg]

theorem le_iff (h : SameSetpoint x y) (z : Single) : z ≤ y ↔ z ≤ x := by
  obtain rfl | ⟨hx, hy⟩ := h
  · rfl
  · rw [hx.le_iff_nonpos, hy.le_iff_nonpos]

theorem eq_of_pos (h : SameSetpoint x y) (hpos : 0 < x) : y = x :=
  h.resolve_right fun hzero => hzero.1.not_pos hpos

theorem nonneg (h : SameSetpoint x y) (hx : 0 ≤ x) : 0 ≤ y := by
  obtain rfl | ⟨-, hy⟩ := h
  · exact hx
  · exact hy.1

end SameSetpoint

namespace ControlState

/-- The states agree on everything but the inactive setpoint. -/
def AgreeOnActive (s s' : ControlState) : Prop :=
  (s.mode = .openLoop → s' = { s with rpmSetpoint := s'.rpmSetpoint }) ∧
    (s.mode = .rpmTarget → s' = { s with dutySetpoint := s'.dutySetpoint })

/-- The states differ in nothing that has an effect. -/
structure Alike (s s' : ControlState) : Prop where
  mode : s'.mode = s.mode
  limits : s'.limits = s.limits
  duty : s'.duty = s.duty
  supply : s'.supply = s.supply
  dutySetpoint : s.mode = .openLoop → SameSetpoint s.dutySetpoint s'.dutySetpoint
  rpmSetpoint : s.mode = .rpmTarget → s'.rpmSetpoint = s.rpmSetpoint

/-- A duty setpoint that is in force while a timeout can drop it is a number and
not negative; every duty from `0` to `1` is. -/
def Droppable (timeout : UInt64) (s : ControlState) : Prop :=
  timeout = 0 ∨ s.mode = .rpmTarget ∨ 0 ≤ s.dutySetpoint

variable {p : Parameters} {dt target : Single} {period : UInt32}
  {s s' : ControlState} {timeout lastSetter now : UInt64}

theorem droppable_of_inUnit (h : s.dutySetpoint.InUnit) : s.Droppable timeout :=
  Or.inr (Or.inr h.1)

theorem AgreeOnActive.alike (h : s.AgreeOnActive s') : s.Alike s' := by
  obtain ⟨hopen, hrpm⟩ := h
  cases hmode : s.mode with
  | openLoop =>
      rw [hopen hmode]
      exact ⟨rfl, rfl, rfl, rfl, fun _ => Or.inl rfl, by simp [hmode]⟩
  | rpmTarget =>
      rw [hrpm hmode]
      exact ⟨rfl, rfl, rfl, rfl, by simp [hmode], fun _ => rfl⟩

/-- A timeout cannot tell the states apart: it leaves both alone, or it leaves
neither of them a setpoint. -/
theorem Alike.expire (h : s.Alike s') (hdrop : s.Droppable timeout) :
    (s.expire timeout lastSetter now).1.Alike (s'.expire timeout lastSetter now).1 := by
  by_cases hlapsed : Lapsed timeout lastSetter now
  · -- only one side may have dropped its setpoints, the other held none
    obtain ⟨hmode, hlimits, hduty, hsupply⟩ := expire_keeps timeout lastSetter now s
    obtain ⟨hmode', hlimits', hduty', hsupply'⟩ := expire_keeps timeout lastSetter now s'
    constructor
    case mode => rw [hmode', hmode, h.mode]
    case limits => rw [hlimits', hlimits, h.limits]
    case duty => rw [hduty', hduty, h.duty]
    case supply => rw [hsupply', hsupply, h.supply]
    case dutySetpoint =>
      intro hopen
      rw [hmode] at hopen
      have hnonneg : 0 ≤ s.dutySetpoint := by
        obtain hnone | hrpm | hnonneg := hdrop
        · exact absurd hnone hlapsed.1
        · rw [hrpm] at hopen
          cases hopen
        · exact hnonneg
      exact Or.inr ⟨isZero_of_lapsed hlapsed hnonneg,
        isZero_of_lapsed hlapsed ((h.dutySetpoint hopen).nonneg hnonneg)⟩
    case rpmSetpoint =>
      intro _
      rw [(expire_of_lapsed hlapsed).2, (expire_of_lapsed hlapsed).2]
  · rw [expire_of_not_lapsed hlapsed, expire_of_not_lapsed hlapsed]
    exact h

theorem Alike.filter (h : s.Alike s') (tau : Single) (reading : Supply) :
    (s.filter tau dt reading).Alike (s'.filter tau dt reading) where
  mode := h.mode
  limits := h.limits
  duty := h.duty
  supply := by
    unfold ControlState.filter
    rw [h.supply]
  dutySetpoint := h.dutySetpoint
  rpmSetpoint := h.rpmSetpoint

theorem Alike.capped_iff (h : s.Alike s') (hmode : s.mode = .openLoop) :
    s'.Capped p period ↔ s.Capped p period := by
  unfold Capped
  rw [(h.dutySetpoint hmode).lt_iff]

theorem Alike.target? (h : s.Alike s') : s'.target? p period = s.target? p period := by
  refine Option.ext fun target => ?_
  rw [target?_eq_some_iff, target?_eq_some_iff, h.mode]
  refine and_congr_right fun hmode => and_congr_right fun _ => and_congr_right fun _ => ?_
  have hsame := h.dutySetpoint hmode
  rw [h.capped_iff hmode, hsame.lt_iff]
  -- a cap is the same on both sides, and a setpoint is driven only if positive
  refine or_congr_right (and_congr_right fun _ => and_congr_right fun hpos => ?_)
  rw [hsame.eq_of_pos hpos]

theorem Alike.spinupDuty (h : s.Alike s') : s'.spinupDuty p = s.spinupDuty p := by
  unfold ControlState.spinupDuty
  rw [h.supply]

theorem Alike.wantsStart (h : s.Alike s') : s'.wantsStart p = s.wantsStart p := by
  unfold ControlState.wantsStart
  rw [h.mode]
  cases hmode : s.mode with
  | openLoop =>
      dsimp only
      rw [h.spinupDuty, decide_eq_decide, (h.dutySetpoint hmode).le_iff]
  | rpmTarget =>
      dsimp only
      rw [h.rpmSetpoint hmode]

theorem Alike.jumps_iff (h : s.Alike s') : s'.Jumps p target ↔ s.Jumps p target := by
  unfold Jumps
  rw [h.duty]

theorem Alike.nextDuty (h : s.Alike s') : s'.nextDuty p dt target = s.nextDuty p dt target := by
  simp only [ControlState.nextDuty, h.jumps_iff, h.duty]

/-- The control step does the same to both states, and keeps them alike. -/
theorem Alike.cycle (h : s.Alike s') (p : Parameters) (dt : Single) (r : Readings) :
    (s'.cycle p dt r).outcome = (s.cycle p dt r).outcome ∧
      (s'.cycle p dt r).command = (s.cycle p dt r).command ∧
      (s.cycle p dt r).state.Alike (s'.cycle p dt r).state := by
  cases hrun : r.runState with
  | starting =>
      rw [cycle_starting hrun, cycle_starting hrun]
      exact ⟨rfl, rfl, h⟩
  | idle =>
      rw [cycle_idle hrun, cycle_idle hrun, h.wantsStart, h.spinupDuty]
      exact ⟨rfl, rfl, h.mode, rfl, rfl, h.supply, h.dutySetpoint, h.rpmSetpoint⟩
  | running =>
      cases htarget : s.target? p r.period with
      | none =>
          rw [cycle_stop hrun htarget, cycle_stop hrun (h.target?.trans htarget), h.mode]
          exact ⟨rfl, rfl, h.mode, rfl, rfl, h.supply, fun _ => Or.inl rfl, fun _ => rfl⟩
      | some target =>
          have hmode := (target?_eq_some_iff.1 htarget).1
          rw [cycle_drive hrun htarget, cycle_drive hrun (h.target?.trans htarget)]
          simp only [h.nextDuty, h.jumps_iff, h.capped_iff hmode, true_and]
          exact ⟨h.mode, rfl, rfl, h.supply, h.dutySetpoint, h.rpmSetpoint⟩

end ControlState

section Run

variable {δ : Type} [MotorDriver δ]

def Turn.withState (t : Turn δ) (s : ControlState) : Turn δ :=
  { t with before := { t.before with state := s } }

theorem turn_alike {t : Turn δ} {s : ControlState} (h : t.before.state.Alike s)
    (hdrop : t.before.state.Droppable t.before.timeout) :
    (t.withState s).did.outcome = t.did.outcome ∧ (t.withState s).did.command = t.did.command ∧
      ∃ s', (t.withState s).after = { t.after with state := s' } ∧ t.after.state.Alike s' := by
  have hstate : t.state.Alike (t.withState s).state := (h.expire hdrop).filter _ _
  -- of the state, the readings of the driver depend on the mode alone
  have hobserve : MotorDriver.observe (t.withState s).state.mode (t.withState s).sampled =
      MotorDriver.observe t.state.mode t.sampled := by
    rw [hstate.mode]
    rfl
  have hreadings : (t.withState s).readings = t.readings := by
    unfold Turn.readings
    rw [hobserve]
  have hobserved : (t.withState s).observed = t.observed := by
    unfold Turn.observed
    rw [hobserve]
  obtain ⟨houtcome, hcommand, halike⟩ :=
    hstate.cycle t.before.parameters t.elapsed t.readings
  have hresult : (t.withState s).result =
      (t.withState s).state.cycle t.before.parameters t.elapsed t.readings := by
    rw [← hreadings]
    rfl
  rw [← hresult] at houtcome hcommand halike
  refine ⟨by rw [Turn.did_outcome, houtcome]; rfl, by rw [Turn.did_command, hcommand]; rfl,
    (t.withState s).after.state, ?_, halike⟩
  have hdriver : (t.withState s).after.driver = t.after.driver := by
    rw [Turn.after_driver, Turn.after_driver, hobserved, hcommand]
    rfl
  show { t.after with
    state := (t.withState s).after.state
    driver := (t.withState s).after.driver } = _
  rw [hdriver]

/-- Every step does the same from both states, and keeps them alike. -/
theorem step_alike (input : Input (MotorDriver.Change δ)) {c : Controller δ} {s : ControlState}
    (h : c.state.Alike s) (hdrop : c.state.Droppable c.timeout) :
    (({ c with state := s } : Controller δ).step input).2.outcome = (c.step input).2.outcome ∧
      (({ c with state := s } : Controller δ).step input).2.command = (c.step input).2.command ∧
      ∃ s', (({ c with state := s } : Controller δ).step input).1 =
        { (c.step input).1 with state := s' } ∧ (c.step input).1.state.Alike s' := by
  cases input with
  | setDuty duty now =>
      exact ⟨rfl, rfl, _, rfl, rfl, h.limits, h.duty, h.supply, fun _ => Or.inl rfl, nofun⟩
  | setRpm rpm now =>
      exact ⟨rfl, rfl, _, rfl, rfl, h.limits, h.duty, h.supply, nofun, fun _ => rfl⟩
  | cycle now body =>
      by_cases hactive : c.active
      · simp only [Controller.step, if_pos hactive]
        exact turn_alike (t := ⟨c, now, body⟩) h hdrop
      · rw [Controller.step, Controller.step, if_neg hactive, if_neg hactive]
        exact ⟨rfl, rfl, s, rfl, h⟩
  | change change => exact ⟨rfl, rfl, s, rfl, h⟩
  | shutdown =>
      by_cases hactive : c.active
      · rw [Controller.step, Controller.step, if_pos hactive, if_pos hactive]
        exact ⟨rfl, rfl, s, rfl, h⟩
      · rw [Controller.step, Controller.step, if_neg hactive, if_neg hactive]
        exact ⟨rfl, rfl, s, rfl, h⟩

/-- Only a state that no setter has made could stop being droppable. -/
theorem droppable_step (input : Input (MotorDriver.Change δ)) {c : Controller δ}
    (h : c.state.Droppable c.timeout) :
    (c.step input).1.state.Droppable (c.step input).1.timeout := by
  obtain ⟨hquiet, -⟩ | ⟨t, rfl, hafter, -, -⟩ := Controller.turns_cons input [] c
  · obtain ⟨duty, now, -, hstep⟩ | ⟨rpm, now, -, hstep⟩ | ⟨driver, active, hstep⟩ :=
      Controller.step_of_quiet hquiet
    · rw [hstep]
      exact ControlState.droppable_of_inUnit (clampDuty_spec duty).1
    · rw [hstep]
      exact Or.inr (Or.inl rfl)
    · rw [hstep]
      exact h
  · rw [← hafter]
    obtain ⟨hmode, hset⟩ := t.setpointsKept_after
    obtain hnone | hrpm | hnonneg := h
    · exact Or.inl hnone
    · exact Or.inr (Or.inl (hmode.trans hrpm))
    · refine Or.inr (Or.inr ?_)
      obtain ⟨hduty, -⟩ | ⟨hduty, -⟩ := hset
      · rwa [hduty]
      · rw [hduty]
        exact isZero_zero.1

/-- What can be seen of a step: what it did, and the state that it led to
apart from the setpoints. -/
structure Observation where
  outcome : Option Outcome
  command : Option Command
  mode : Mode
  limits : Limits
  duty : Single
  supply : Supply
deriving DecidableEq

def Observation.of (c : Controller δ) (result : StepResult) : Observation where
  outcome := result.outcome
  command := result.command
  mode := c.state.mode
  limits := c.state.limits
  duty := c.state.duty
  supply := c.state.supply

/-- What is seen of a run, step by step. -/
def Controller.observations :
    List (Input (MotorDriver.Change δ)) → Controller δ → List Observation
  | [], _ => []
  | input :: inputs, c =>
      .of (c.step input).1 (c.step input).2 :: observations inputs (c.step input).1

theorem observations_alike (inputs : List (Input (MotorDriver.Change δ))) {c : Controller δ}
    {s : ControlState} (h : c.state.Alike s) (hdrop : c.state.Droppable c.timeout) :
    ({ c with state := s } : Controller δ).observations inputs = c.observations inputs := by
  induction inputs generalizing c s with
  | nil => rfl
  | cons input inputs ih =>
      obtain ⟨houtcome, hcommand, s', hstep, halike⟩ := step_alike input h hdrop
      have hhead : Observation.of (({ c with state := s } : Controller δ).step input).1
          (({ c with state := s } : Controller δ).step input).2 =
            Observation.of (c.step input).1 (c.step input).2 := by
        unfold Observation.of
        rw [houtcome, hcommand, hstep]
        dsimp only
        rw [halike.mode, halike.limits, halike.duty, halike.supply]
      rw [Controller.observations, Controller.observations, hhead, hstep,
        ih halike (droppable_step input hdrop)]

/-- A state that a controller can be in: after bringing one up, some run comes to
it. -/
def ControlState.Reached (δ : Type) [MotorDriver δ] (s : ControlState) : Prop :=
  ∃ (config : ControlConfig) (start : UInt64) (d : δ) (c : Controller δ)
    (past : List (Input (MotorDriver.Change δ))),
    (Controller.init config start d).1 = .ok c ∧ (c.run past).1.state = s

/-- The setter has clamped the duty setpoint, and nothing else makes one. -/
theorem ControlState.Reached.inUnit {s : ControlState} (h : s.Reached δ) :
    s.dutySetpoint.InUnit := by
  obtain ⟨config, start, d, c, past, hinit, rfl⟩ := h
  obtain ⟨valid, up, -, -, rfl⟩ := Controller.init_eq_ok_iff.1 hinit
  exact inUnit_run past inUnit_zero

/-- Two runs whose states differ in the inactive setpoint at the start cannot be
told apart: same commands in the same order, and after every step the same
outcome, mode, limits, duty and filtered readings.  One of the states is one that a
controller can be in; parameters, driver, timeout and clock readings are any. -/
theorem inactive_setpoint_unseen {c : Controller δ} {s : ControlState}
    (hreached : c.state.Reached δ) (hagree : c.state.AgreeOnActive s)
    (inputs : List (Input (MotorDriver.Change δ))) :
    ({ c with state := s } : Controller δ).observations inputs = c.observations inputs :=
  observations_alike inputs hagree.alike (ControlState.droppable_of_inUnit hreached.inUnit)

end Run

/-- A timeout, then a start in either mode. -/
def bothModes : List (Input BenchDriver) :=
  [.cycle 500001 .zero, .setDuty 1 500001, .cycle 500002 .zero,
    .change (BenchDriver.standard "bench"), .setRpm 3000 500003, .cycle 500004 .zero]

/-- A stale speed setpoint, which the timeout drops, goes unseen. -/
theorem stale_speed_unseen :
    let c := Controller.broughtUp timed timed_valid 0 (BenchDriver.standard "bench")
    let s := { c.state with rpmSetpoint := 3000 }
    c.state.Reached BenchDriver ∧ c.state.AgreeOnActive s ∧
      Lapsed c.timeout c.lastSetter 500001 ∧ c.state.holdsSetpoint = false ∧
      s.holdsSetpoint = true ∧
      ({ c with state := s } : Controller BenchDriver).observations bothModes =
        c.observations bothModes ∧
      (c.observations bothModes).map (fun o => o.command.isSome) =
        [false, false, true, false, false, true] := by
  intro c s
  have hinit : (Controller.init timed 0 (BenchDriver.standard "bench")).1 = .ok c :=
    Controller.init_eq_ok_iff.2
      ⟨timed_valid, BenchDriver.standard "bench", rfl, by decide +kernel, rfl⟩
  have hreached : c.state.Reached BenchDriver := ⟨timed, 0, _, c, [], hinit, rfl⟩
  have hagree : c.state.AgreeOnActive s := ⟨fun _ => rfl, nofun⟩
  exact ⟨hreached, hagree, by decide +kernel, by decide +kernel, by decide +kernel,
    inactive_setpoint_unseen hreached hagree bothModes, by decide +kernel⟩

end MotorSupervisor
