import MotorSupervisor.Proofs.BringUp
import MotorSupervisor.Proofs.RegistryMap
import MotorSupervisor.Proofs.Session

/-!
# The start-up decision

Whether the program comes up is decided in stages: a configuration is selected, read
and checked, a driver is looked up, and a controller is brought up on it, which checks
the tables again and then the bus voltage.  The checks of a configuration cover those
of its tables, so that the later stages add the name of the driver and the voltage, and
nothing else.  The setpoints of the options are not looked at before.

**Definitions.**
* `Program.Selects`: the configuration that the options and the files lead to.
* `Program.Startable`: everything that a program needs to come up.
* `Program.LaunchCase`: the ways in which starting ends.
* `Program.FailsToStart`: a start that ends in one fatal message.
* `Program.Decides`: the whole decision.

**Results.**
* `init_simulated`: a controller on the simulated motor, for valid tables.
* `launch_of_error`, `launch_of_unknown`, `launch_of_registered`: the ends of starting,
  each with its log.
* `run_of_failsToStart`, `run_fst_of_startable`: how a run ends.
* `decides`: the decision, for every duration that can be measured.
-/

namespace MotorSupervisor

/-- The message of a program that gives up. -/
def Event.isFatal : Event → Bool
  | .programFailed _ => true
  | _ => false

/-- The message of a setter call. -/
def Event.selectsSetpoint : Event → Bool
  | .dutySelected _ => true
  | .rpmSelected _ => true
  | _ => false

/-- Fatal messages are shown at every level. -/
theorem LogLevel.shows_of_isFatal (kept : LogLevel) {e : Event} (h : e.isFatal = true) :
    kept.shows e.level = true := by
  cases e with
  | programFailed reason => cases kept <;> rfl
  | _ => cases h

namespace Controller

variable {δ : Type} [MotorDriver δ] {config : ControlConfig} {now : UInt64} {d : δ}

/-- With a valid configuration the driver comes next, and then the voltage. -/
theorem init_eq_of_valid (valid : config.Valid) :
    init config now d =
      match MotorDriver.bringUp d with
      | (.error e, log) => (.error (.driver e), log)
      | (.ok up, log) =>
          ((accept config valid now up).1, log ++ (accept config valid now up).2) := by
  unfold init
  split
  · rename_i violation h
    exact absurd valid (ControlConfig.not_valid_of_violation h)
  · rfl

theorem accept_eq (valid : config.Valid) :
    accept config valid now d =
      if VoltageAccepted d then
        (.ok (broughtUp config valid now d),
          [.driverReady (MotorDriver.name d),
              (broughtUp config valid now d).parameters.announcement] ++
            (MotorDriver.settle d).2 ++ [.loopStarted (broughtUp config valid now d).period])
      else
        (.error (.inputVoltage (firstReading d).voltage),
          [.driverReady (MotorDriver.name d),
              (broughtUp config valid now d).parameters.announcement] ++
            (MotorDriver.settle d).2 ++ [.voltageRefused (firstReading d).voltage]) := by
  unfold accept
  dsimp only [ready, ControlState.seedFilters]
  by_cases hvoltage : VoltageAccepted d
  · have hread := hvoltage
    unfold VoltageAccepted at hread
    rw [if_pos hvoltage, if_pos hread]
    rfl
  · have hread := hvoltage
    unfold VoltageAccepted at hread
    rw [if_neg hvoltage, if_neg hread]
    rfl

end Controller

/-- The simulated driver does not refuse what the check of its table accepts. -/
theorem bringUp_simulated_of_valid {c : SimulationConfig} (h : c.Valid) :
    MotorDriver.bringUp (SimulatedDriver.ofConfig c) =
      (.ok (SimulatedDriver.ready c), [.simulationReady c]) := by
  show (SimulatedDriver.ofConfig c).bringUp = _
  have hnone : (SimulatedDriver.ofConfig c).config.violation? = none := h
  unfold SimulatedDriver.bringUp
  rw [hnone]
  rfl

/-- The bus voltage at rest decides, once the tables are valid. -/
theorem SimulationConfig.idleVoltageAccepted_iff {c : SimulationConfig} :
    c.IdleVoltageAccepted ↔ (Rotor.atRest c).supply.HasVoltage :=
  @Controller.voltageAccepted_iff _ _ (SimulatedDriver.ready c)

/-- What is logged of a controller that is up to its first reading of the bus. -/
def bringUpLog (config : ControlConfig) (valid : config.Valid) (c : SimulationConfig) :
    List Event :=
  [.simulationReady c, .driverReady DriverConfig.simulation,
    (Parameters.derive config valid.poles_pos c.minCommutationPeriod).announcement]

/-- A controller on the simulated motor, for valid tables. -/
theorem init_simulated {config : ControlConfig} {c : SimulationConfig} (now : UInt64)
    (valid : config.Valid) (h : c.Valid) :
    Controller.init config now (SimulatedDriver.ofConfig c) =
      if c.IdleVoltageAccepted then
        (.ok (Controller.broughtUp config valid now (.ready c)),
          bringUpLog config valid c ++
            [.loopStarted (.ofMicros config.controlPeriodMicros.toNat)])
      else
        (.error (.inputVoltage (Rotor.atRest c).supply.voltage),
          bringUpLog config valid c ++ [.voltageRefused (Rotor.atRest c).supply.voltage]) := by
  rw [Controller.init_eq_of_valid valid, bringUp_simulated_of_valid h]
  dsimp only
  rw [Controller.accept_eq valid]
  by_cases hvoltage : c.IdleVoltageAccepted
  · have haccepted : Controller.VoltageAccepted (SimulatedDriver.ready c) := hvoltage
    rw [if_pos hvoltage, if_pos haccepted]
    rfl
  · have hrefused : ¬ Controller.VoltageAccepted (SimulatedDriver.ready c) := hvoltage
    rw [if_neg hvoltage, if_neg hrefused]
    rfl

theorem Config.Valid.tables {config : Config} (h : config.Valid) :
    config.control.Valid ∧ config.simulation.Valid :=
  ⟨(Config.valid_iff.1 h).2.1, (Config.valid_iff.1 h).2.2.1⟩

namespace Program

variable {options : Options} {source : Source} {config : Config}

/-- The message that a configuration was accepted. -/
def acceptance (options : Options) (config : Config) : Event :=
  .configAccepted config.shared.serviceName (selectedDriver options config)
    config.control.controlPeriodMicros

theorem contains_iff {name : String} :
    registry.contains name = true ↔ name = DriverConfig.simulation := by
  rw [registry.contains_iff_created name .standard]
  constructor
  · rintro ⟨driver, hdriver⟩
    exact (create_eq_ok_iff.1 hdriver).1
  · intro hname
    exact ⟨_, create_eq_ok_iff.2 ⟨hname, rfl⟩⟩

theorem launch_of_error (e : ConfigError) :
    launch options (.error e) =
      (.failed, [.programStarted version] ++ [.programFailed e.message]) :=
  rfl

theorem launch_of_unknown (h : ¬ registry.contains (selectedDriver options config) = true) :
    launch options (.ok config) =
      (.failed, [.programStarted version, acceptance options config,
          .knownDrivers registry.names] ++
        [.programFailed (DriverError.notFound (selectedDriver options config)).message]) := by
  have hcreate : registry.create (selectedDriver options config) config =
      .error (.notFound (selectedDriver options config)) :=
    registry.create_of_not_contains _ h config
  unfold selectedDriver at hcreate
  unfold launch start
  dsimp only
  rw [hcreate]
  rfl

/-- With a registered driver the controller comes next. -/
theorem launch_of_registered (hvalid : config.Valid)
    (h : registry.contains (selectedDriver options config) = true) :
    launch options (.ok config) =
      if config.simulation.IdleVoltageAccepted then
        let c := Controller.broughtUp config.control hvalid.tables.1 0
          (SimulatedDriver.ready config.simulation)
        ((operate options c).1, [.programStarted version, acceptance options config] ++
          bringUpLog config.control hvalid.tables.1 config.simulation ++
          [.loopStarted c.period] ++ (operate options c).2)
      else
        (.failed, [.programStarted version, acceptance options config] ++
          bringUpLog config.control hvalid.tables.1 config.simulation ++
          [.voltageRefused (Rotor.atRest config.simulation).supply.voltage] ++
          [.programFailed
            (InitError.inputVoltage (Rotor.atRest config.simulation).supply.voltage).message]) := by
  have hcreate : registry.create (selectedDriver options config) config =
      .ok (.ofConfig config.simulation) := create_eq_ok_iff.2 ⟨contains_iff.1 h, rfl⟩
  unfold selectedDriver at hcreate
  unfold launch start
  dsimp only
  rw [hcreate]
  dsimp only
  rw [init_simulated 0 hvalid.tables.1 hvalid.tables.2]
  by_cases hvoltage : config.simulation.IdleVoltageAccepted
  · rw [if_pos hvoltage, if_pos hvoltage]
    rfl
  · rw [if_neg hvoltage, if_neg hvoltage]
    rfl

/-- The configuration that the options and the files lead to: that of the file, or the
built-in one if the default file is missing. -/
def Selects (options : Options) (source : Source) (config : Config) : Prop :=
  match options.config, source with
  | none, .missing => config = .standard
  | _, _ => Config.load source = .ok config

/-- Everything that a program needs to come up. -/
structure Startable (options : Options) (source : Source) (config : Config) : Prop where
  selected : Selects options source config
  valid : config.Valid
  registered : registry.contains (selectedDriver options config) = true
  voltage : (Rotor.atRest config.simulation).supply.HasVoltage

theorem configOf_eq_ok_iff_selects :
    configOf options source = .ok config ↔ Selects options source config ∧ config.Valid := by
  rw [configOf_eq_ok_iff]
  unfold Selects
  split
  · rename_i hpath
    constructor
    · rintro (⟨-, -, rfl⟩ | ⟨hload, -⟩)
      · exact ⟨rfl, Config.standard_valid⟩
      · cases hload
    · rintro ⟨rfl, -⟩
      exact Or.inl ⟨hpath, rfl, rfl⟩
  · rename_i hother
    constructor
    · rintro (⟨hpath, hmissing, -⟩ | h)
      · exact absurd hmissing (hother hpath)
      · exact h
    · exact Or.inr

/-- The ways in which starting ends. -/
inductive LaunchCase (options : Options) (source : Source) : Prop
  | error (e : ConfigError) (hconfig : configOf options source = .error e)
  | unknown (config : Config) (hconfig : configOf options source = .ok config)
      (hname : ¬ registry.contains (selectedDriver options config) = true)
  | refused (config : Config) (hconfig : configOf options source = .ok config)
      (hname : registry.contains (selectedDriver options config) = true)
      (hvoltage : ¬ config.simulation.IdleVoltageAccepted)
  | accepted (config : Config) (hstart : Startable options source config)

theorem launchCase (options : Options) (source : Source) : LaunchCase options source := by
  cases hconfig : configOf options source with
  | error e => exact .error e hconfig
  | ok config =>
      by_cases hname : registry.contains (selectedDriver options config) = true
      · by_cases hvoltage : config.simulation.IdleVoltageAccepted
        · obtain ⟨hselected, hvalid⟩ := configOf_eq_ok_iff_selects.1 hconfig
          exact .accepted config
            ⟨hselected, hvalid, hname, SimulationConfig.idleVoltageAccepted_iff.1 hvoltage⟩
        · exact .refused config hconfig hname hvoltage
      · exact .unknown config hconfig hname

/-- A start that ends in one fatal message, before the setpoints are looked at. -/
structure FailsToStart (options : Options) (source : Source) : Prop where
  failed : (launch options (configOf options source)).1 = .failed
  reports : ∃ log reason, (launch options (configOf options source)).2 =
      log ++ [.programFailed reason] ∧
    ∀ e ∈ log, e.isFatal = false ∧ e.selectsSetpoint = false
  anySetpoint : ∀ duty rpm,
    launch { options with duty := duty, rpm := rpm } (configOf options source) =
      launch options (configOf options source)

theorem failsToStart_of_not_startable (h : ¬ ∃ config, Startable options source config) :
    FailsToStart options source := by
  cases launchCase options source with
  | error e hconfig =>
      constructor <;> rw [hconfig]
      case failed => rfl
      case reports =>
        refine ⟨_, _, congrArg Prod.snd (launch_of_error e), ?_⟩
        simp [Event.isFatal, Event.selectsSetpoint]
      case anySetpoint => exact fun _ _ => rfl
  | unknown config hconfig hname =>
      constructor <;> rw [hconfig]
      case failed => rw [launch_of_unknown hname]
      case reports =>
        rw [launch_of_unknown hname]
        exact ⟨_, _, rfl, by simp [Event.isFatal, Event.selectsSetpoint, acceptance]⟩
      case anySetpoint =>
        intro duty rpm
        have hname' : ¬ registry.contains
          (selectedDriver { options with duty := duty, rpm := rpm } config) = true := hname
        rw [launch_of_unknown hname, launch_of_unknown hname']
        rfl
  | refused config hconfig hname hvoltage =>
      have hvalid := valid_of_configOf hconfig
      constructor <;> rw [hconfig]
      case failed => rw [launch_of_registered hvalid hname, if_neg hvoltage]
      case reports =>
        rw [launch_of_registered hvalid hname, if_neg hvoltage]
        refine ⟨_, _, rfl, ?_⟩
        simp [Event.isFatal, Event.selectsSetpoint, acceptance, bringUpLog,
          Parameters.announcement]
      case anySetpoint =>
        intro duty rpm
        have hname' : registry.contains
          (selectedDriver { options with duty := duty, rpm := rpm } config) = true := hname
        rw [launch_of_registered hvalid hname, if_neg hvoltage,
          launch_of_registered hvalid hname', if_neg hvoltage]
        rfl
  | accepted config hstart => exact absurd ⟨config, hstart⟩ h

theorem run_of_failed {log : List Event}
    (h : launch options (configOf options source) = (.failed, log)) :
    run options source = (.exit failedExit,
      log.filter fun e => (logLevel options (configOf options source)).shows e.level) := by
  unfold run
  dsimp only
  rw [h]

/-- A program that fails to start exits with one fatal message in its log, and in the
same way whatever setpoint is asked for. -/
theorem run_of_failsToStart (h : FailsToStart options source) :
    (run options source).1 = .exit failedExit ∧
      (run options source).2.countP Event.isFatal = 1 ∧
      ∀ duty rpm, run { options with duty := duty, rpm := rpm } source = run options source := by
  obtain ⟨log, reason, hlog, hquiet⟩ := h.reports
  have hlaunch : launch options (configOf options source) =
      (.failed, log ++ [.programFailed reason]) := Prod.ext h.failed hlog
  have hrun := run_of_failed hlaunch
  refine ⟨by rw [hrun], ?_, fun duty rpm => ?_⟩
  · have hshown : (logLevel options (configOf options source)).shows
        (Event.programFailed reason).level = true := LogLevel.shows_of_isFatal _ rfl
    have hrest : (log.filter fun e =>
        (logLevel options (configOf options source)).shows e.level).countP Event.isFatal = 0 := by
      refine List.countP_eq_zero.2 fun e he => ?_
      rw [(hquiet e (List.mem_filter.1 he).1).1]
      exact Bool.false_ne_true
    rw [hrun, List.filter_append, List.countP_append, hrest]
    simp [hshown, Event.isFatal]
  · have hlaunch' : launch { options with duty := duty, rpm := rpm }
        (configOf { options with duty := duty, rpm := rpm } source) =
          (.failed, log ++ [.programFailed reason]) := (h.anySetpoint duty rpm).trans hlaunch
    exact (run_of_failed hlaunch').trans hrun.symm

/-- How a run ends that came up is decided by the requested duration. -/
theorem run_fst_of_startable (h : Startable options source config) :
    (run options source).1 =
      match deadlineOf options.duration with
      | .error () => .exit overlongExit
      | .ok none => .interruption
      | .ok (some _) => .exit 0 := by
  have hconfig : configOf options source = .ok config :=
    configOf_eq_ok_iff_selects.2 ⟨h.selected, h.valid⟩
  have hlaunch := @launch_of_registered options config h.valid h.registered
  rw [if_pos (SimulationConfig.idleVoltageAccepted_iff.2 h.voltage)] at hlaunch
  dsimp only at hlaunch
  rw [operate_eq] at hlaunch
  unfold run
  dsimp only
  rw [hconfig, hlaunch]
  rcases deadlineOf options.duration with ⟨⟨⟩⟩ | _ | deadline
  · rfl
  · rfl
  · obtain ⟨⟨last, more⟩, hcomplete⟩ : ∃ ending,
        (Session.opened options (.broughtUp config.control h.valid.tables.1 0
          (.ready config.simulation)) (some deadline)).complete? = some ending := ⟨_, rfl⟩
    dsimp only
    rw [hcomplete]

/-- The whole decision whether a program comes up. -/
structure Decides (options : Options) (source : Source) : Prop where
  succeeds : (run options source).1 = .exit 0 ↔ ∃ config, Startable options source config
  fails : (run options source).1 = .exit 1 ↔ ¬ ∃ config, Startable options source config
  /-- The checks of the driver and of the controller find nothing that is not found
  in a configuration before. -/
  checked : ∀ config : Config, config.Valid → ∀ now,
    (∃ up, (MotorDriver.bringUp (SimulatedDriver.ofConfig config.simulation)).1 = .ok up) ∧
      ∀ e, (Controller.init config.control now
          (SimulatedDriver.ofConfig config.simulation)).1 = .error e →
        e = .inputVoltage (Rotor.atRest config.simulation).supply.voltage
  reports : (run options source).1 = .exit 1 →
    (run options source).2.countP Event.isFatal = 1
  /-- A program that fails has not looked at the setpoints. -/
  sets : (run options source).1 = .exit 1 →
    (∀ e ∈ (launch options (configOf options source)).2, e.selectsSetpoint = false) ∧
      ∀ duty rpm, run { options with duty := duty, rpm := rpm } source = run options source

/-- The start-up decision, for every duration that can be measured. -/
theorem decides {options : Options} (hpos : 0 < options.duration)
    (hlt : options.duration < durationLimit) (source : Source) : Decides options source := by
  have hsuccess : ∀ config, Startable options source config →
      (run options source).1 = .exit 0 := by
    intro config hstart
    obtain ⟨deadline, hdeadline⟩ := exists_deadlineOf_iff.2 ⟨hpos, hlt⟩
    rw [run_fst_of_startable hstart, hdeadline]
  have hfailure : (¬ ∃ config, Startable options source config) →
      (run options source).1 = .exit 1 := fun hnone =>
    (run_of_failsToStart (failsToStart_of_not_startable hnone)).1
  have hends : (run options source).1 = .exit 1 → FailsToStart options source := by
    intro hexit
    refine failsToStart_of_not_startable ?_
    rintro ⟨config, hstart⟩
    cases (hsuccess config hstart).symm.trans hexit
  constructor
  case succeeds =>
    constructor
    · intro hexit
      by_contra hnone
      cases (hfailure hnone).symm.trans hexit
    · rintro ⟨config, hstart⟩
      exact hsuccess config hstart
  case fails =>
    constructor
    · rintro hexit ⟨config, hstart⟩
      cases (hsuccess config hstart).symm.trans hexit
    · exact hfailure
  case checked =>
    intro config hvalid now
    obtain ⟨hcontrol, hsimulation⟩ := hvalid.tables
    refine ⟨⟨_, congrArg Prod.fst (bringUp_simulated_of_valid hsimulation)⟩, fun e he => ?_⟩
    rw [init_simulated now hcontrol hsimulation] at he
    split at he
    · cases he
    · exact (Except.error.inj he).symm
  case reports => exact fun hexit => (run_of_failsToStart (hends hexit)).2.1
  case sets =>
    intro hexit
    refine ⟨?_, (run_of_failsToStart (hends hexit)).2.2⟩
    obtain ⟨log, reason, hlog, hquiet⟩ := (hends hexit).reports
    rw [hlog]
    intro e he
    rcases List.mem_append.1 he with he | he
    · exact (hquiet e he).2
    · rw [List.mem_singleton.1 he]
      rfl

/-- A short run of a configured motor, with a duty to start it. -/
def shortRun : Options where
  config := none
  driver := none
  duty := some 0.5
  rpm := none
  duration := 0.02
  statusIntervalMillis := 500
  verbose := false
  json := false

def shortRunArguments : List String :=
  ["--duty", "0.5", "--duration", "0.02"]

/-- The highest accepted bus voltage. -/
def fullVoltageFile : String :=
  "[simulation]\nbus_voltage = 40\n"

/-- Half a volt above it, which breaks no rule of a configuration. -/
def overVoltageFile : String :=
  "[simulation]\nbus_voltage = 40.5\n"

/-- The built-in configuration on another bus. -/
def onBus (voltage : Single) : Config :=
  { Config.standard with simulation := { SimulationConfig.standard with busVoltage := voltage } }

/-- The program starts on forty volts, and half a volt more is fatal. -/
theorem decides_at_highest_voltage :
    Request.ofArguments shortRunArguments = .ok (.run shortRun) ∧
      (0 < shortRun.duration ∧ shortRun.duration < durationLimit) ∧
      (run shortRun (.file fullVoltageFile.toUTF8)).1 = .exit 0 ∧
      (run shortRun (.file overVoltageFile.toUTF8)).1 = .exit 1 ∧
      (run shortRun (.file overVoltageFile.toUTF8)).2.countP Event.isFatal = 1 := by
  have hpos : 0 < shortRun.duration := by decide +kernel
  have hlt : shortRun.duration < durationLimit := by decide +kernel
  have hfull := decides hpos hlt (.file fullVoltageFile.toUTF8)
  have hover := decides hpos hlt (.file overVoltageFile.toUTF8)
  have hloadFull : Config.load (.file fullVoltageFile.toUTF8) = .ok (onBus 40) := by
    decide +kernel
  have hloadOver : Config.load (.file overVoltageFile.toUTF8) = .ok (onBus 40.5) := by
    decide +kernel
  have hstart : Startable shortRun (.file fullVoltageFile.toUTF8) (onBus 40) :=
    { selected := hloadFull
      valid := by decide +kernel
      registered := by decide +kernel
      voltage := SimulationConfig.idleVoltageAccepted_iff.1 (by decide +kernel) }
  have hnone : ¬ ∃ config, Startable shortRun (.file overVoltageFile.toUTF8) config := by
    rintro ⟨config, hselected, -, -, hvoltage⟩
    obtain rfl := Except.ok.inj (hloadOver.symm.trans hselected)
    exact absurd (SimulationConfig.idleVoltageAccepted_iff.2 hvoltage) (by decide +kernel)
  have hexit := hover.fails.2 hnone
  exact ⟨by decide +kernel, ⟨hpos, hlt⟩, hfull.succeeds.2 ⟨_, hstart⟩, hexit,
    hover.reports hexit⟩

end Program
end MotorSupervisor
