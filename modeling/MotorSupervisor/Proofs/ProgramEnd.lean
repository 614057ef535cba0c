import MotorSupervisor.Proofs.StartUp

/-!
# How the program ends

A program that came up ends by itself or is interrupted, and in both cases it stops
the motor before it exits.  The requested duration is converted only after the
controller is up and the setter is called, however, and a duration that cannot be
measured breaks the program off right there.  The motor is then stopped by nothing but
the clean-up of what was left behind, and the exit code is none of the program's own.

**Definitions.**
* `Program.IsUp`: the program has brought up a controller.
* `Program.EndsInOrder`: the program ends as it should.
* `Program.BreaksOff`: the program ends where the duration is converted.

**Results.**
* `IsUp.launch_fst`: what follows on a controller that is up.
* `breaksOff_of_overlong`: a duration that is too long.
* `ends_in_order_iff`: every other program ends in order.
* `endless_run_breaks_off`: an infinite duration.
-/

namespace MotorSupervisor
namespace Program

/-- The program has brought up a controller on the selected driver. -/
structure IsUp (options : Options) (source : Source) (config : Config)
    (c : Controller SimulatedDriver) : Prop where
  configured : configOf options source = .ok config
  registered : registry.contains (selectedDriver options config) = true
  up : (Controller.init config.control 0 (SimulatedDriver.ofConfig config.simulation)).1 = .ok c

/-- The program exits with a code of its own.  Once a controller is up, its motor is
stopped at the end, whether the program is interrupted after any number of looks at
the clock or has come to its deadline. -/
structure EndsInOrder (options : Options) (source : Source) : Prop where
  exits : ∀ code, (run options source).1 = .exit code → code = 0 ∨ code = 1
  stops : ∀ config c, IsUp options source config c →
    ∃ s, (launch options (configOf options source)).1 = .running s ∧
      (∀ polls, Session.StopsAt c (s.runPolls polls).1) ∧
      ∀ last log, s.complete? = some (last, log) →
        Session.StopsAt c last ∧ .durationElapsed ∈ log

/-- The program ends with the controller still active, after the setter call.  The
motor is stopped if what the program has built is cleaned up. -/
structure BreaksOff (options : Options) (source : Source) (c : Controller SimulatedDriver) :
    Prop where
  exits : (run options source).1 = .exit overlongExit
  leavesActive : ∃ s, (launch options (configOf options source)).1 = .overlong s ∧
    s.controller = (Session.opened options c none).controller ∧
    s.controller.active = true ∧ Session.StopsAt c s.breakOff.1

variable {options : Options} {source : Source} {config : Config}
  {c : Controller SimulatedDriver}

theorem Startable.isUp (h : Startable options source config) :
    IsUp options source config
      (.broughtUp config.control h.valid.tables.1 0 (.ready config.simulation)) where
  configured := configOf_eq_ok_iff_selects.2 ⟨h.selected, h.valid⟩
  registered := h.registered
  up := by
    rw [init_simulated 0 h.valid.tables.1 h.valid.tables.2,
      if_pos (SimulationConfig.idleVoltageAccepted_iff.2 h.voltage)]

namespace IsUp

theorem startable (h : IsUp options source config c) : Startable options source config := by
  obtain ⟨hselected, hvalid⟩ := configOf_eq_ok_iff_selects.1 h.configured
  obtain ⟨-, -, hvoltage, -⟩ := init_simulated_eq_ok_iff.1 h.up
  exact ⟨hselected, hvalid, h.registered, SimulationConfig.idleVoltageAccepted_iff.1 hvoltage⟩

theorem active (h : IsUp options source config c) : c.active = true := by
  obtain ⟨-, -, -, rfl⟩ := init_simulated_eq_ok_iff.1 h.up
  rfl

/-- What follows on a controller that is up. -/
theorem launch_fst (h : IsUp options source config c) :
    (launch options (configOf options source)).1 = (operate options c).1 := by
  obtain ⟨valid, -, hvoltage, rfl⟩ := init_simulated_eq_ok_iff.1 h.up
  rw [h.configured, launch_of_registered h.startable.valid h.registered, if_pos hvoltage]

end IsUp

/-- A duration that is too long is noticed when the controller is up. -/
theorem breaksOff_of_overlong (h : IsUp options source config c)
    (hlong : deadlineOf options.duration = .error ()) : BreaksOff options source c := by
  have hlife : c.Life (Session.opened options c none).controller :=
    Session.life_opened options c none
  constructor
  case exits => rw [run_fst_of_startable h.startable, hlong]
  case leavesActive =>
    refine ⟨Session.opened options c none, ?_, rfl, hlife.active h.active,
      Session.stopsAt_breakOff hlife h.active⟩
    rw [h.launch_fst, operate_eq, hlong]

theorem BreaksOff.not_endsInOrder (h : BreaksOff options source c) :
    ¬ EndsInOrder options source := by
  intro hends
  obtain hzero | hone := hends.exits overlongExit h.exits
  · cases hzero
  · cases hone

/-- The program ends in order unless it comes up with a requested duration of
`2 ^ 64` seconds or more, infinity included; and then it breaks off. -/
theorem ends_in_order_iff (options : Options) (source : Source) :
    (EndsInOrder options source ↔
      ¬ ∃ config, Startable options source config ∧
        0 < options.duration ∧ ¬ options.duration < durationLimit) ∧
      ∀ config c, IsUp options source config c → 0 < options.duration →
        ¬ options.duration < durationLimit → BreaksOff options source c := by
  refine ⟨⟨?_, ?_⟩, fun config c h hpos hlong =>
    breaksOff_of_overlong h (deadlineOf_eq_error_iff.2 ⟨hpos, hlong⟩)⟩
  · rintro hends ⟨config, hstart, hlong⟩
    have hbreaks := breaksOff_of_overlong hstart.isUp (deadlineOf_eq_error_iff.2 hlong)
    exact hbreaks.not_endsInOrder hends
  · intro hmeasured
    have hdeadline : ∀ config, Startable options source config →
        deadlineOf options.duration ≠ .error () := fun config hstart hlong =>
      hmeasured ⟨config, hstart, deadlineOf_eq_error_iff.1 hlong⟩
    constructor
    case exits =>
      intro code hexit
      -- The duration counts only if the program comes up.
      by_cases hstart : ∃ config, Startable options source config
      · obtain ⟨config, hstart⟩ := hstart
        rw [run_fst_of_startable hstart] at hexit
        rcases hended : deadlineOf options.duration with ⟨⟨⟩⟩ | _ | deadline
        · exact absurd hended (hdeadline config hstart)
        · rw [hended] at hexit
          cases hexit
        · rw [hended] at hexit
          cases hexit
          exact Or.inl rfl
      · rw [(run_of_failsToStart (failsToStart_of_not_startable hstart)).1] at hexit
        cases hexit
        exact Or.inr rfl
    case stops =>
      intro config c hup
      rcases hended : deadlineOf options.duration with ⟨⟨⟩⟩ | deadline
      · exact absurd hended (hdeadline config hup.startable)
      · have hlife : c.Life (Session.opened options c deadline).controller :=
          Session.life_opened options c deadline
        refine ⟨Session.opened options c deadline, ?_,
          fun polls => Session.stopsAt_runPolls polls hlife hup.active, fun last log hlast =>
            ⟨Session.stopsAt_complete? hlife hup.active hlast,
              Session.durationElapsed_mem_complete? hlast⟩⟩
        rw [hup.launch_fst, operate_eq, hended]

/-- A run without end that is to turn the motor. -/
def endlessRun : Options where
  config := some "given.toml"
  driver := none
  duty := none
  rpm := some 1000
  duration := .infinity false
  statusIntervalMillis := 500
  verbose := false
  json := false

def endlessRunArguments : List String :=
  ["-c", "given.toml", "--duration=inf", "--rpm", "1000"]

/-- Long cycles and a long spin-up. -/
def slowFile : String :=
  "[control]\ncontrol_period_us = 3600000000\n[simulation]\nspinup_time_ms = 1000000000\n"

/-- An infinite duration is understood, and then the program breaks off. -/
theorem endless_run_breaks_off :
    Request.ofArguments endlessRunArguments = .ok (.run endlessRun) ∧
      (run endlessRun (.file slowFile.toUTF8)).1 = .exit 101 ∧
      ¬ EndsInOrder endlessRun (.file slowFile.toUTF8) := by
  have hload : Config.load (.file slowFile.toUTF8) =
      .ok { Config.standard with
        control := { ControlConfig.standard with controlPeriodMicros := 3600000000 }
        simulation := { SimulationConfig.standard with spinupTimeMillis := 1000000000 } } := by
    decide +kernel
  have hstart : Startable endlessRun (.file slowFile.toUTF8) _ :=
    { selected := hload
      valid := by decide +kernel
      registered := by decide +kernel
      voltage := SimulationConfig.idleVoltageAccepted_iff.1 (by decide +kernel) }
  have hlong : deadlineOf endlessRun.duration = .error () :=
    deadlineOf_eq_error_iff.2 (by decide +kernel)
  have hbreaks := breaksOff_of_overlong hstart.isUp hlong
  exact ⟨by decide +kernel, hbreaks.exits, hbreaks.not_endsInOrder⟩

end Program
end MotorSupervisor
