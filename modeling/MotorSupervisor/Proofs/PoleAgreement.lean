import Mathlib.Control.Monad.Basic
import MotorSupervisor.Proofs.Launch

/-!
# Pole counts of the controller and of the motor

The controller computes speeds with one pole count, the simulated motor turns
with another, and a configuration that names the simulated driver is valid only
if they agree.  The driver of a run is the one that the options name, however,
and nobody compares the counts again.  So they agree in every run but one kind:
a valid configuration of another driver, overridden by the options.

**Definitions.**
* `ComesUp`: the program is up for some arguments and a configuration file.
* `SlipsPast`: the configuration is never asked whether the counts agree.

**Results.**
* `ComesUp.poles_ne_iff`: which running programs have different counts.
* `poles_agree_iff`: which arguments and files lead to one.
* `override_slips_past`: there are such arguments and files.
-/

namespace MotorSupervisor
namespace Program

/-- The arguments are understood, the file that they lead to holds the
configuration, and the controller comes up. -/
structure ComesUp (arguments : List String) (source : Source) (options : Options)
    (config : Config) (s : Session) : Prop where
  requested : Request.ofArguments arguments = .ok (.run options)
  configured : configOf options source = .ok config
  up : (launch options (.ok config)).1.session? = some s

/-- A configuration of another driver is run on the simulated one.  Apart from
the different pole counts, which are not compared, nothing is wrong with it. -/
structure SlipsPast (options : Options) (source : Source) (config : Config) : Prop where
  loaded : Config.load source = .ok config
  shared : config.shared.violation? = none
  control : config.control.Valid
  simulation : config.simulation.Valid
  voltage : config.simulation.IdleVoltageAccepted
  named : config.driver.name ≠ DriverConfig.simulation
  overridden : options.driver = some DriverConfig.simulation
  differ : config.control.poles ≠ config.simulation.poles

variable {arguments : List String} {source : Source} {options : Options}
  {config : Config} {s : Session}

namespace ComesUp

theorem selected (h : ComesUp arguments source options config s) :
    selectedDriver options config = DriverConfig.simulation :=
  (session?_eq_some_iff.1 h.up).1

/-- A running program is a controller on the simulated motor, each with the
pole count of its table. -/
theorem controller_eq (h : ComesUp arguments source options config s) :
    config.simulation.IdleVoltageAccepted ∧
      s.controller.parameters.poles.count = config.control.poles ∧
      s.controller.driver.rotor.config.poles = config.simulation.poles := by
  obtain ⟨-, c, hinit, hoperate⟩ := session?_eq_some_iff.1 h.up
  obtain ⟨valid, -, hvoltage, rfl⟩ := init_simulated_eq_ok_iff.1 hinit
  obtain ⟨s', hs', hparameters, hdriver⟩ :=
    exists_session?_operate options
      (Controller.broughtUp config.control valid 0 (.ready config.simulation))
  obtain rfl : s' = s := Option.some.inj (hs'.symm.trans hoperate)
  refine ⟨hvoltage, ?_, ?_⟩
  · rw [hparameters]
    rfl
  · rw [hdriver]
    rfl

/-- The counts of a running program differ if its configuration slipped past
their comparison. -/
theorem poles_ne_iff (h : ComesUp arguments source options config s) :
    config.control.poles ≠ config.simulation.poles ↔ SlipsPast options source config := by
  constructor
  · intro hdiffer
    obtain ⟨hshared, hcontrol, hsimulation, hagree⟩ :=
      Config.valid_iff.1 (valid_of_configOf h.configured)
    have hnamed : config.driver.name ≠ DriverConfig.simulation :=
      fun hname => hdiffer (hagree hname)
    exact
      { loaded := by
          -- the built-in configuration names the simulated driver
          obtain ⟨-, -, rfl⟩ | ⟨hloaded, -⟩ := configOf_eq_ok_iff.1 h.configured
          · exact absurd rfl hnamed
          · exact hloaded
        shared := hshared
        control := hcontrol
        simulation := hsimulation
        voltage := h.controller_eq.1
        named := hnamed
        overridden := by
          have hselected := h.selected
          unfold selectedDriver at hselected
          cases hdriver : options.driver with
          | none => exact absurd (by simpa [hdriver] using hselected) hnamed
          | some name => simpa [hdriver] using hselected
        differ := hdiffer }
  · exact SlipsPast.differ

end ComesUp

/-- Nothing else stops a configuration that slips past the comparison. -/
theorem SlipsPast.exists_comesUp (h : SlipsPast options source config)
    (hrequested : Request.ofArguments arguments = .ok (.run options)) :
    ∃ s, ComesUp arguments source options config s := by
  have hvalid : config.Valid :=
    Config.valid_iff.2
      ⟨h.shared, h.control, h.simulation, fun hname => absurd hname h.named⟩
  have hinit : (Controller.init config.control 0
      (SimulatedDriver.ofConfig config.simulation)).1 = .ok _ :=
    init_simulated_eq_ok_iff.2 ⟨h.control, h.simulation, h.voltage, rfl⟩
  obtain ⟨s, hs, -⟩ := exists_session?_operate options
    (Controller.broughtUp config.control h.control 0 (.ready config.simulation))
  have hselected : selectedDriver options config = DriverConfig.simulation := by
    rw [selectedDriver, h.overridden]
    rfl
  exact ⟨s, hrequested, configOf_eq_ok_iff.2 (.inr ⟨h.loaded, hvalid⟩),
    session?_eq_some_iff.2 ⟨hselected, _, hinit, hs⟩⟩

/-- A program that comes up runs the simulated driver, with the configured pole
counts; and they agree unless the arguments override another driver of a
configuration whose counts differ. -/
theorem poles_agree_iff (arguments : List String) (source : Source) :
    (∀ options config s, ComesUp arguments source options config s →
      selectedDriver options config = DriverConfig.simulation ∧
        s.controller.parameters.poles.count = config.control.poles ∧
        s.controller.driver.rotor.config.poles = config.simulation.poles) ∧
      ((∀ options config s, ComesUp arguments source options config s →
          config.control.poles = config.simulation.poles) ↔
        ¬ ∃ options config, Request.ofArguments arguments = .ok (.run options) ∧
          SlipsPast options source config) := by
  refine ⟨fun options config s h => ⟨h.selected, h.controller_eq.2⟩, ?_⟩
  constructor
  · rintro hagree ⟨options, config, hrequested, hslips⟩
    obtain ⟨s, hs⟩ := hslips.exists_comesUp hrequested
    exact hslips.differ (hagree options config s hs)
  · intro hnone options config s hs
    refine Decidable.byContradiction fun hdiffer => hnone ?_
    exact ⟨options, config, hs.requested, hs.poles_ne_iff.1 hdiffer⟩

/-- A file for a bench with a motor of twelve poles. -/
def benchFile : String :=
  "[driver]\nname=\"bench\"\n[control]\npoles=12\ncontrol_period_us=3600000000\n"

def benchConfig : Config where
  shared := .standard
  driver := ⟨"bench"⟩
  control := { ControlConfig.standard with poles := 12, controlPeriodMicros := 3600000000 }
  simulation := .standard

/-- A short run of that file on the simulated motor. -/
def simulatedBench : Options where
  config := some "given.toml"
  driver := some DriverConfig.simulation
  duty := none
  rpm := none
  duration := 0.01
  statusIntervalMillis := 60000
  verbose := false
  json := false

def simulatedBenchArguments : List String :=
  ["--config", "given.toml", "-d", "simulation", "--duration", "0.01",
    "--status-interval-ms", "60000"]

/-- The override lets a controller for twelve poles run a motor of fourteen. -/
theorem override_slips_past :
    ∃ s, ComesUp simulatedBenchArguments (.file benchFile.toUTF8) simulatedBench
        benchConfig s ∧
      selectedDriver simulatedBench benchConfig = DriverConfig.simulation ∧
      s.controller.parameters.poles.count = 12 ∧
      s.controller.driver.rotor.config.poles = 14 := by
  have hslips : SlipsPast simulatedBench (.file benchFile.toUTF8) benchConfig :=
    { loaded := by decide +kernel
      shared := by decide +kernel
      control := by decide +kernel
      simulation := by decide +kernel
      voltage := by decide +kernel
      named := by decide
      overridden := rfl
      differ := by decide }
  have hrequested : Request.ofArguments simulatedBenchArguments =
      .ok (.run simulatedBench) := by
    decide +kernel
  obtain ⟨s, hs⟩ := hslips.exists_comesUp hrequested
  exact ⟨s, hs, hs.selected, hs.controller_eq.2⟩

end Program
end MotorSupervisor
