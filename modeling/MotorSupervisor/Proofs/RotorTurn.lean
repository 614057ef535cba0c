import MotorSupervisor.Driver.Simulated
import MotorSupervisor.Proofs.ControlStep
import MotorSupervisor.Proofs.Run

/-!
# A rotor under control

A bare rotor moves only when it is told to, so a turn finds it as the latest
input left it: readings do not change it, and the run state that the control
step sees is that of the rotor.

**Results.**
* `start_of_idle`, `state_setDuty`: what a command does to a rotor.
* `state_advance_idle`, `state_advance_starting`, `stalls_of_advance`: time
  alone begins no spin-up, and brings a rotor to rest only by a stall.
* `rotor_after`, `rotor_runState`: a turn as the rotor sees it.
-/

namespace MotorSupervisor
namespace Rotor

variable (r : Rotor)

theorem start_of_idle (target spinup : Single) (reverse : Bool) (h : r.state = .idle) :
    (r.start target spinup reverse).1 =
      { r with
        state := .starting
        duty := admissible target
        reverse := reverse
        spinupLeft := r.spinupTime
        spinupTarget := r.noLoadSpeed (admissible spinup) } := by
  unfold start
  rw [h]

theorem state_setDuty (duty : Single) : (r.setDuty duty).state = r.state := by
  unfold setDuty
  split
  · rfl
  · rfl

theorem duty_setDuty (duty : Single) (h : r.state = .running) :
    (r.setDuty duty).duty = admissible duty := by
  unfold setDuty
  rw [h]

variable {r} {elapsed : Span}

theorem state_advance_idle (h : r.state = .idle) : (r.advance elapsed).1.state = .idle := by
  unfold advance
  rw [h]

/-- Time alone does not begin a spin-up. -/
theorem state_advance_starting (h : (r.advance elapsed).1.state = .starting) :
    r.state = .starting := by
  unfold advance at h
  cases hstate : r.state with
  | starting => rfl
  | idle => simp [hstate] at h
  | running =>
      simp only [hstate, advanceRunning, stop] at h
      split at h
      · cases h
      · simp at h

/-- Time alone brings a rotor to rest only by a stall. -/
theorem stalls_of_advance (hmoving : r.state ≠ .idle) (h : (r.advance elapsed).1.state = .idle) :
    r.state = .running ∧ r.speedAfter elapsed < r.config.stallRpm := by
  unfold advance at h
  cases hstate : r.state with
  | starting =>
      simp only [hstate, advanceSpinup] at h
      split at h
      · cases h
      · simp at h
  | idle => exact absurd hstate hmoving
  | running =>
      simp only [hstate, advanceRunning] at h
      split at h
      · exact ⟨rfl, ‹_›⟩
      · simp at h

end Rotor

/-- A bare rotor at rest. -/
def restingRotor : RotorDriver :=
  ⟨"rotor", .atRest .standard, none⟩

section Turn

variable (t : Turn RotorDriver)

@[simp] theorem rotor_observed : t.observed = t.before.driver := by
  simp only [Turn.observed, MotorDriver.observe]
  split <;> rfl

@[simp] theorem rotor_runState : t.readings.runState = t.before.driver.rotor.state := by
  simp only [Turn.readings, MotorDriver.observe]
  split
  · rename_i hrun
    exact hrun.1.symm
  · rfl

theorem rotor_after :
    t.after.driver.rotor =
      match t.did.command with
      | some command => (t.before.driver.rotor.perform command).1
      | none => t.before.driver.rotor := by
  rw [Turn.after_driver, rotor_observed, Turn.did_command]
  cases t.result.command <;> rfl

end Turn
end MotorSupervisor
