import MotorSupervisor.Program
import MotorSupervisor.Proofs.RegistryMap
import MotorSupervisor.Proofs.Run

/-!
# Bringing the program up

The program comes up in three stages: it needs a configuration, a driver of
the selected name, and a controller on that driver.  Each stage has one lemma
that says when it succeeds and with what.

**Definitions.**
* `Program.Launch.session?`: the session of a program that came up.
* `Program.selectedDriver`: the name of the driver that is used.
* `SimulationConfig.IdleVoltageAccepted`: the bus of the motor at rest.

**Results.**
* `Config.valid_iff`: the rules of a configuration.
* `configOf_eq_ok_iff`, `create_eq_ok_iff`, `init_simulated_eq_ok_iff`: the three
  stages.
* `session?_eq_some_iff`: the whole of them.
-/

namespace MotorSupervisor

theorem Config.poleViolation?_eq_none_iff {c : Config} :
    c.poleViolation? = none ↔
      (c.driver.name = DriverConfig.simulation → c.control.poles = c.simulation.poles) := by
  unfold poleViolation?
  split
  · rename_i h
    exact iff_of_false nofun fun hagree => h.2 (hagree h.1)
  · rename_i h
    exact iff_of_true rfl fun hname =>
      Decidable.byContradiction fun hpoles => h ⟨hname, hpoles⟩

/-- A configuration is valid if its tables are and the pole counts agree, as far
as the simulated motor is the configured one. -/
theorem Config.valid_iff {c : Config} :
    c.Valid ↔
      c.shared.violation? = none ∧ c.control.Valid ∧ c.simulation.Valid ∧
        (c.driver.name = DriverConfig.simulation → c.control.poles = c.simulation.poles) := by
  rw [← poleViolation?_eq_none_iff]
  unfold Valid violation? ControlConfig.Valid SimulationConfig.Valid
  cases c.shared.violation? <;> cases c.control.violation? <;>
    cases c.simulation.violation? <;> simp

theorem Config.standard_valid : Config.standard.Valid := by
  decide +kernel

theorem Config.loadValid_eq_ok_iff {source : Source} {config : Config} :
    Config.loadValid source = .ok config ↔ Config.load source = .ok config ∧ config.Valid := by
  unfold loadValid
  cases hload : load source with
  | error e => simp
  | ok loaded =>
      dsimp only
      unfold Source.checked Valid
      cases hviolation : loaded.violation? with
      | none =>
          constructor
          · intro h
            obtain rfl := Except.ok.inj h
            exact ⟨rfl, hviolation⟩
          · rintro ⟨h, -⟩
            exact h
      | some violation =>
          constructor
          · intro h
            cases h
          · rintro ⟨h, hvalid⟩
            obtain rfl := Except.ok.inj h
            rw [hviolation] at hvalid
            cases hvalid

/-- The bus voltage of the motor at rest is one that is accepted. -/
def SimulationConfig.IdleVoltageAccepted (c : SimulationConfig) : Prop :=
  minInputVoltage ≤ (Rotor.atRest c).supply.voltage ∧
    (Rotor.atRest c).supply.voltage ≤ maxInputVoltage

instance (c : SimulationConfig) : Decidable c.IdleVoltageAccepted :=
  inferInstanceAs (Decidable (_ ∧ _))

/-- The simulated driver once it is up. -/
def SimulatedDriver.ready (c : SimulationConfig) : SimulatedDriver :=
  ⟨c, .atRest c, some .zero⟩

theorem bringUp_simulated_eq_ok_iff {c : SimulationConfig} {up : SimulatedDriver} :
    (MotorDriver.bringUp (SimulatedDriver.ofConfig c)).1 = .ok up ↔
      c.Valid ∧ SimulatedDriver.ready c = up := by
  show ((SimulatedDriver.ofConfig c).bringUp).1 = .ok up ↔ _
  unfold SimulatedDriver.bringUp SimulationConfig.Valid SimulatedDriver.ofConfig
  cases c.violation? with
  | none =>
      constructor
      · intro h
        exact ⟨rfl, Except.ok.inj h⟩
      · rintro ⟨-, rfl⟩
        rfl
  | some violation =>
      constructor
      · intro h
        cases h
      · rintro ⟨h, -⟩
        cases h

/-- A controller comes up on the simulated motor if both tables are valid and the
bus voltage at rest is accepted. -/
theorem init_simulated_eq_ok_iff {config : ControlConfig} {simulation : SimulationConfig}
    {start : UInt64} {c : Controller SimulatedDriver} :
    (Controller.init config start (SimulatedDriver.ofConfig simulation)).1 = .ok c ↔
      ∃ valid : config.Valid, simulation.Valid ∧ simulation.IdleVoltageAccepted ∧
        Controller.broughtUp config valid start (SimulatedDriver.ready simulation) = c := by
  rw [Controller.init_eq_ok_iff]
  constructor
  · rintro ⟨valid, up, hup, hvoltage, rfl⟩
    obtain ⟨hsimulation, rfl⟩ := bringUp_simulated_eq_ok_iff.1 hup
    exact ⟨valid, hsimulation, hvoltage, rfl⟩
  · rintro ⟨valid, hsimulation, hvoltage, rfl⟩
    exact ⟨valid, _, bringUp_simulated_eq_ok_iff.2 ⟨hsimulation, rfl⟩, hvoltage, rfl⟩

namespace Program

/-- The session of a program that came up. -/
def Launch.session? : Launch → Option Session
  | .failed => none
  | .overlong session => some session
  | .running session => some session

/-- The driver of a run: that of the options, or else the configured one. -/
def selectedDriver (options : Options) (config : Config) : String :=
  options.driver.getD config.driver.name

/-- The configuration is the built-in one for want of any file, or a valid one of
a file. -/
theorem configOf_eq_ok_iff {options : Options} {source : Source} {config : Config} :
    configOf options source = .ok config ↔
      (options.config = none ∧ source = .missing ∧ config = .standard) ∨
        (Config.load source = .ok config ∧ config.Valid) := by
  rw [← Config.loadValid_eq_ok_iff]
  cases hpath : options.config with
  | some path => simp [configOf, hpath]
  | none =>
      cases source with
      | missing =>
          have hmissing : Config.loadValid .missing = .error .fileNotFound := rfl
          simp only [configOf, hpath, hmissing]
          simp [eq_comm]
      | _ => simp [configOf, hpath]

theorem valid_of_configOf {options : Options} {source : Source} {config : Config}
    (h : configOf options source = .ok config) : config.Valid := by
  obtain ⟨-, -, rfl⟩ | ⟨-, hvalid⟩ := configOf_eq_ok_iff.1 h
  · exact Config.standard_valid
  · exact hvalid

theorem create_eq_ok_iff {name : String} {config : Config} {d : SimulatedDriver} :
    registry.create name config = .ok d ↔
      name = DriverConfig.simulation ∧ SimulatedDriver.ofConfig config.simulation = d := by
  have hfactory : registry.factory? name =
      if name = DriverConfig.simulation then some (Registry.simulatedFactory id) else none :=
    Registry.lookup_cons_eq_ite name DriverConfig.simulation _ []
  rw [Registry.create, hfactory]
  by_cases h : name = DriverConfig.simulation
  · rw [if_pos h]
    simp [h, Registry.simulatedFactory]
  · rw [if_neg h]
    simp [h]

/-- A controller that is up always makes a session, whatever the options ask of
it first. -/
theorem exists_session?_operate (options : Options) (c : Controller SimulatedDriver) :
    ∃ s, (operate options c).1.session? = some s ∧
      s.controller.parameters = c.parameters ∧ s.controller.driver = c.driver := by
  unfold operate
  have hsetter : ∀ input event, setpointInput options = some (input, event) →
      (c.step input).1.parameters = c.parameters ∧ (c.step input).1.driver = c.driver := by
    intro input event h
    unfold setpointInput at h
    split at h
    · cases h
      exact ⟨rfl, rfl⟩
    · cases h
      exact ⟨rfl, rfl⟩
    · cases h
  cases hinput : setpointInput options with
  | none => cases deadlineOf options.duration <;> exact ⟨_, rfl, rfl, rfl⟩
  | some setter =>
      obtain ⟨hparameters, hdriver⟩ := hsetter setter.1 setter.2 hinput
      cases deadlineOf options.duration <;> exact ⟨_, rfl, hparameters, hdriver⟩

/-- A program comes up when the selected driver exists and the controller comes
up on it. -/
theorem session?_eq_some_iff {options : Options} {config : Config} {s : Session} :
    (launch options (.ok config)).1.session? = some s ↔
      selectedDriver options config = DriverConfig.simulation ∧
        ∃ c, (Controller.init config.control 0 (.ofConfig config.simulation)).1 = .ok c ∧
          (operate options c).1.session? = some s := by
  have hlaunch : (launch options (.ok config)).1 = (start options config).1 := rfl
  rw [hlaunch, start, selectedDriver]
  dsimp only
  cases hcreate : registry.create (options.driver.getD config.driver.name) config with
  | error e =>
      have hname : options.driver.getD config.driver.name ≠ DriverConfig.simulation := by
        intro hname
        rw [create_eq_ok_iff.2 ⟨hname, rfl⟩] at hcreate
        cases hcreate
      simp [Launch.session?, hname]
  | ok d =>
      obtain ⟨hname, rfl⟩ := create_eq_ok_iff.1 hcreate
      rcases hinit : Controller.init config.control 0
        (SimulatedDriver.ofConfig config.simulation) with ⟨e | c, log⟩
      · simp [Launch.session?, hinit]
      · simp [hname, hinit]

end Program
end MotorSupervisor
