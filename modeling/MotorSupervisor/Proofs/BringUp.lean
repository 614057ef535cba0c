import MotorSupervisor.Proofs.FilteredVoltage

/-!
# Bringing a controller up

A controller comes up in a fixed order of checks: the configuration, the driver, the
first reading of the bus voltage.  The first check that fails decides the error, and
each check only happens after the ones before it have passed.  A valid configuration
has a pole, so deriving the parameters does not fail.

No command is given to the driver on the way.  Commands are the only thing that is
done with `MotorDriver.perform`, so this is said by exchanging it: bringing up comes
to the same whatever the driver does on a command.

**Definitions.**
* `MotorDriver.withPerform`: the same driver with other commands.
* `Controller.firstReading`: the raw reading of the bus that decides.
* `Supply.HasVoltage`: a voltage from four to forty.
* `Controller.InitCase`: the ways in which bringing up ends.
* `Controller.ComesUp`: the outcome of bringing up, for every configuration and
  every driver.

**Results.**
* `voltageAccepted_iff`: the check of the voltage in rationals.
* `initCase`: the four ends of bringing up.
* `command_eq_none_of_passive`: nothing but a cycle or the shutdown gives a command.
* `comes_up`: the outcome.
-/

namespace MotorSupervisor

open Binary

/-- The same driver, but for what it does on commands. -/
@[reducible] def MotorDriver.withPerform {δ : Type} (behaviour : MotorDriver δ)
    (perform : Command → δ → δ × List Event) : MotorDriver δ :=
  { behaviour with perform := perform }

/-- The voltage is a number from four to forty. -/
def Supply.HasVoltage (s : Supply) : Prop :=
  s.voltage.isFinite ∧ 4 ≤ s.voltage.toRat ∧ s.voltage.toRat ≤ 40

/-- A setter call or a change of the driver; neither a cycle nor the shutdown. -/
def Input.IsPassive {κ : Type} : Input κ → Prop
  | .cycle _ _ => False
  | .shutdown => False
  | _ => True

namespace ControlConfig

variable {config : ControlConfig}

theorem Valid.violation?_eq (valid : config.Valid) : config.violation? = none :=
  valid

theorem not_valid_of_violation {violation : Violation} (h : config.violation? = some violation) :
    ¬ config.Valid := by
  rw [Valid, h]
  exact Option.some_ne_none violation

end ControlConfig

namespace Controller

variable {δ : Type} [MotorDriver δ] {config : ControlConfig} {now : UInt64} {d up : δ}

/-- The first reading of the bus of a driver that is up. -/
def firstReading (up : δ) : Supply :=
  MotorDriver.supply (MotorDriver.settle up).1

theorem voltageAccepted_iff : VoltageAccepted up ↔ (firstReading up).HasVoltage := by
  obtain ⟨hmax, hmax'⟩ := maxInputVoltage_spec
  have hmin : minInputVoltage.isFinite ∧ minInputVoltage.toRat = 4 := by decide +kernel
  constructor
  · rintro ⟨hlow, hhigh⟩
    obtain ⟨hvoltage, hbounds⟩ := accepted_bounds hlow hhigh
    exact ⟨hvoltage.finite, hbounds⟩
  · rintro ⟨hfinite, hlow, hhigh⟩
    constructor
    · exact (le_iff_toRat hmin.1 hfinite).2 (hmin.2.trans_le hlow)
    · exact (le_iff_toRat hfinite hmax.finite).2 (hhigh.trans_eq hmax'.symm)

/-- A refused configuration is answered before the driver is called. -/
theorem init_of_violation {violation : Violation} (h : config.violation? = some violation) :
    init config now d = (.error (.config (.invalid violation)), []) := by
  unfold init
  split
  · rename_i violation' h'
    obtain rfl : violation' = violation := Option.some.inj (h'.symm.trans h)
    rfl
  · rename_i h'
    rw [h'] at h
    cases h

theorem accept_of_not_hasVoltage {valid : config.Valid} (h : ¬ (firstReading up).HasVoltage) :
    (accept config valid now up).1 = .error (.inputVoltage (firstReading up).voltage) := by
  rw [← voltageAccepted_iff] at h
  unfold VoltageAccepted at h
  unfold accept
  dsimp only [ready, ControlState.seedFilters]
  rw [if_neg h]
  rfl

theorem init_of_valid (valid : config.Valid) :
    (init config now d).1 =
      match (MotorDriver.bringUp d).1 with
      | .error e => .error (.driver e)
      | .ok up => (accept config valid now up).1 := by
  unfold init
  split
  · rename_i violation h
    exact absurd valid (ControlConfig.not_valid_of_violation h)
  · rcases MotorDriver.bringUp d with ⟨e | up, log⟩ <;> rfl

/-- The four ways in which bringing up ends, each with what leads to it. -/
inductive InitCase (config : ControlConfig) (now : UInt64) (d : δ) : Prop
  | badConfig (violation : Violation) (hviolation : config.violation? = some violation)
      (hanswer : (init config now d).1 = .error (.config (.invalid violation)))
  | badDriver (valid : config.Valid) (e : DriverError)
      (hdriver : (MotorDriver.bringUp d).1 = .error e)
      (hanswer : (init config now d).1 = .error (.driver e))
  | badVoltage (valid : config.Valid) (up : δ) (hdriver : (MotorDriver.bringUp d).1 = .ok up)
      (hvoltage : ¬ (firstReading up).HasVoltage)
      (hanswer : (init config now d).1 = .error (.inputVoltage (firstReading up).voltage))
  | success (valid : config.Valid) (up : δ) (hdriver : (MotorDriver.bringUp d).1 = .ok up)
      (hvoltage : (firstReading up).HasVoltage)
      (hanswer : (init config now d).1 = .ok (broughtUp config valid now up))

theorem initCase (config : ControlConfig) (now : UInt64) (d : δ) : InitCase config now d := by
  cases hviolation : config.violation? with
  | some violation => exact .badConfig violation hviolation (by rw [init_of_violation hviolation])
  | none =>
      have valid : config.Valid := hviolation
      have hinit := @init_of_valid δ _ config now d valid
      cases hdriver : (MotorDriver.bringUp d).1 with
      | error e =>
          rw [hdriver] at hinit
          exact .badDriver valid e hdriver hinit
      | ok up =>
          rw [hdriver] at hinit
          by_cases hvoltage : (firstReading up).HasVoltage
          · exact .success valid up hdriver hvoltage
              (init_eq_ok_iff.2 ⟨valid, up, hdriver, voltageAccepted_iff.2 hvoltage, rfl⟩)
          · exact .badVoltage valid up hdriver hvoltage
              (hinit.trans (accept_of_not_hasVoltage hvoltage))

/-- Nothing but a cycle or the shutdown gives the driver a command. -/
theorem command_eq_none_of_passive {inputs : List (Input (MotorDriver.Change δ))}
    (h : ∀ input ∈ inputs, input.IsPassive) (c : Controller δ) :
    ∀ r ∈ (c.run inputs).2, r.command = none := by
  induction inputs generalizing c with
  | nil => simp [run]
  | cons input inputs ih =>
      rw [List.forall_mem_cons] at h
      rw [run_cons, List.forall_mem_cons]
      refine ⟨?_, ih h.2 _⟩
      cases input with
      | cycle now body => exact absurd h.1 id
      | shutdown => exact absurd h.1 id
      | _ => rfl

/-- What bringing up a controller comes to. -/
structure ComesUp (config : ControlConfig) (now : UInt64) (d : δ) : Prop where
  /-- A broken rule is the first thing that is reported. -/
  refusesConfig : ∀ e, (init config now d).1 = .error (.config e) ↔
    ∃ violation, config.violation? = some violation ∧ .invalid violation = e
  /-- The driver is not called then: the answer is the same whatever it does. -/
  leavesDriver : ∀ violation, config.violation? = some violation →
    ∀ behaviour : MotorDriver δ,
      @init δ behaviour config now d = (.error (.config (.invalid violation)), [])
  /-- A valid configuration has parameters on every driver. -/
  derives : config.Valid → ∀ limit, ∃ p, Parameters.derive? config limit = .ok p
  /-- A driver that does not come up is the next thing. -/
  reportsDriver : ∀ e, (init config now d).1 = .error (.driver e) ↔
    config.Valid ∧ (MotorDriver.bringUp d).1 = .error e
  /-- The last thing is the voltage of the first reading. -/
  refusesVoltage : ∀ voltage, (init config now d).1 = .error (.inputVoltage voltage) ↔
    config.Valid ∧ ∃ up, (MotorDriver.bringUp d).1 = .ok up ∧
      ¬ (firstReading up).HasVoltage ∧ (firstReading up).voltage = voltage
  /-- Nothing else stands in the way. -/
  succeeds : (∃ c, (init config now d).1 = .ok c) ↔
    config.Valid ∧ ∃ up, (MotorDriver.bringUp d).1 = .ok up ∧ (firstReading up).HasVoltage
  /-- The controller starts in open loop, without setpoints or limits, and with the
  filters at the first reading. -/
  starts : ∀ c, (init config now d).1 = .ok c →
    ∃ up, (MotorDriver.bringUp d).1 = .ok up ∧ c.driver = (MotorDriver.settle up).1 ∧
      Parameters.derive? config (MotorDriver.periodLimit up) = .ok c.parameters ∧
      c.state.mode = .openLoop ∧ c.state.dutySetpoint = 0 ∧ c.state.rpmSetpoint = 0 ∧
      c.state.limits = .none ∧ c.state.supply = firstReading up
  /-- No command is given on the way, on success or on failure. -/
  commandsNothing : ∀ perform : Command → δ → δ × List Event,
    @init δ (MotorDriver.withPerform ‹_› perform) config now d = init config now d
  /-- No command is given before the first cycle, short of a shutdown. -/
  awaitsCycle : ∀ c, (init config now d).1 = .ok c →
    ∀ inputs : List (Input (MotorDriver.Change δ)), (∀ input ∈ inputs, input.IsPassive) →
      ∀ r ∈ (c.run inputs).2, r.command = none

theorem derive?_of_valid (valid : config.Valid) (limit : UInt32) :
    Parameters.derive? config limit = .ok (Parameters.derive config valid.poles_pos limit) :=
  dif_pos valid.poles_pos

end Controller

open Controller in
/-- Bringing up a controller, for every configuration and every driver. -/
theorem comes_up {δ : Type} [MotorDriver δ] (config : ControlConfig) (now : UInt64) (d : δ) :
    ComesUp config now d := by
  constructor
  case refusesConfig =>
    intro e
    cases initCase config now d with
    | badConfig violation hviolation hanswer => simp [hanswer, hviolation]
    | badDriver valid e' hdriver hanswer => simp [hanswer, valid.violation?_eq]
    | badVoltage valid up hdriver hvoltage hanswer => simp [hanswer, valid.violation?_eq]
    | success valid up hdriver hvoltage hanswer => simp [hanswer, valid.violation?_eq]
  case leavesDriver =>
    intro violation h behaviour
    exact init_of_violation h
  case derives => exact fun valid limit => ⟨_, derive?_of_valid valid limit⟩
  case reportsDriver =>
    intro e
    cases initCase config now d with
    | badConfig violation hviolation hanswer =>
        simp [hanswer, ControlConfig.not_valid_of_violation hviolation]
    | badDriver valid e' hdriver hanswer => simp [hanswer, valid, hdriver]
    | badVoltage valid up hdriver hvoltage hanswer => simp [hanswer, hdriver]
    | success valid up hdriver hvoltage hanswer => simp [hanswer, hdriver]
  case refusesVoltage =>
    intro voltage
    cases initCase config now d with
    | badConfig violation hviolation hanswer =>
        simp [hanswer, ControlConfig.not_valid_of_violation hviolation]
    | badDriver valid e' hdriver hanswer => simp [hanswer, hdriver]
    | badVoltage valid up hdriver hvoltage hanswer => simp [hanswer, valid, hdriver, hvoltage]
    | success valid up hdriver hvoltage hanswer => simp [hanswer, hdriver, hvoltage]
  case succeeds =>
    cases initCase config now d with
    | badConfig violation hviolation hanswer =>
        simp [hanswer, ControlConfig.not_valid_of_violation hviolation]
    | badDriver valid e' hdriver hanswer => simp [hanswer, hdriver]
    | badVoltage valid up hdriver hvoltage hanswer => simp [hanswer, hdriver, hvoltage]
    | success valid up hdriver hvoltage hanswer => simp [hanswer, valid, hdriver, hvoltage]
  case starts =>
    intro c hinit
    obtain ⟨valid, up, hup, -, rfl⟩ := init_eq_ok_iff.1 hinit
    exact ⟨up, hup, rfl, derive?_of_valid valid _, rfl, rfl, rfl, rfl, rfl⟩
  -- `init` does not read that field of the driver, so both sides unfold to the same
  case commandsNothing => exact fun _ => rfl
  case awaitsCycle => exact fun c _ inputs hpassive => command_eq_none_of_passive hpassive c

end MotorSupervisor
