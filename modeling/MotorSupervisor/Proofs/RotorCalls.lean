import MotorSupervisor.Proofs.Binary.Unit
import MotorSupervisor.Proofs.RotorTurn

/-!
# Calls on a rotor

Between being set up and being read, a rotor is commanded and time passes, in
any order.  Each kind of command is taken in one run state only, and a stall
is a stop that nobody commanded.

**Definitions.**
* `Rotor.after`: a rotor after a list of calls.
* `Rotor.lastDuty?`: the latest duty that the rotor took from a command.
* `Rotor.Orderly`: what holds of a rotor after any calls.

**Results.**
* `start_of_not_idle`, `setDuty_of_not_running`: commands without effect.
* `advance_of_idle`, `advance_of_starting`, `advance_of_running`: what time
  does in each run state.
* `settled_call`, `dutyTaken_call`: what one call preserves.
* `orderly_after`: after any calls the rotor is orderly.
-/

namespace MotorSupervisor

open Binary

/-- What can happen to a rotor. -/
inductive RotorCall
  | command (command : Command)
  | advance (elapsed : Span)
deriving DecidableEq

namespace Rotor

/-- The rotor after a call. -/
def call : RotorCall → Rotor → Rotor
  | .command command, r => (r.perform command).1
  | .advance elapsed, r => (r.advance elapsed).1

/-- The rotor after calls in their order. -/
def after (r : Rotor) : List RotorCall → Rotor
  | [] => r
  | c :: calls => (r.call c).after calls

theorem after_append (r : Rotor) (calls more : List RotorCall) :
    r.after (calls ++ more) = (r.after calls).after more := by
  induction calls generalizing r with
  | nil => rfl
  | cons c calls ih => exact ih (r.call c)

/-- What every call preserves holds after all of them. -/
theorem after_invariant {I : Rotor → Prop} {calls : List RotorCall}
    (hcall : ∀ c ∈ calls, ∀ r, I r → I (r.call c)) {r : Rotor} (h : I r) :
    I (r.after calls) := by
  induction calls generalizing r with
  | nil => exact h
  | cons c calls ih =>
      exact ih (fun c' hc' => hcall c' (List.mem_cons_of_mem _ hc'))
        (hcall c List.mem_cons_self r h)

section Calls

variable {r : Rotor} {elapsed : Span} {c : RotorCall}

theorem start_of_not_idle (target spinup : Single) (reverse : Bool) (h : r.state ≠ .idle) :
    (r.start target spinup reverse).1 = r := by
  cases hstate : r.state with
  | idle => exact absurd hstate h
  | starting => simp only [start, hstate]
  | running => simp only [start, hstate]

theorem setDuty_of_not_running (duty : Single) (h : r.state ≠ .running) :
    r.setDuty duty = r := by
  cases hstate : r.state with
  | idle => simp only [setDuty, hstate]
  | starting => simp only [setDuty, hstate]
  | running => exact absurd hstate h

theorem setDuty_of_running (duty : Single) (h : r.state = .running) :
    r.setDuty duty = { r with duty := admissible duty } := by
  simp only [setDuty, h]

theorem advance_of_idle (h : r.state = .idle) : (r.advance elapsed).1 = { r with speed := 0 } := by
  simp only [advance, h]

theorem advance_of_starting (h : r.state = .starting) :
    (r.advance elapsed).1 =
      if r.spinupLeft - elapsed = .zero ∨ r.spinupTime = .zero then
        { r with
          spinupLeft := r.spinupLeft - elapsed
          speed := r.spinupTarget
          state := .running }
      else
        { r with
          spinupLeft := r.spinupLeft - elapsed
          speed := r.spinupTarget *
            (1 - (r.spinupLeft - elapsed).toSeconds / r.spinupTime.toSeconds) } := by
  simp only [advance, h, advanceSpinup]
  split <;> rfl

theorem advance_of_running (h : r.state = .running) :
    (r.advance elapsed).1 =
      if r.speedAfter elapsed < r.config.stallRpm then
        { r with state := .idle, speed := 0, duty := 0 }
      else { r with speed := r.speedAfter elapsed } := by
  simp only [advance, h, advanceRunning]
  split <;> rfl

theorem config_call (c : RotorCall) (r : Rotor) : (r.call c).config = r.config := by
  match c with
  | .command (.start target spinup reverse) =>
      show (r.start target spinup reverse).1.config = r.config
      by_cases h : r.state = .idle
      · rw [start_of_idle r target spinup reverse h]
      · rw [start_of_not_idle target spinup reverse h]
  | .command .stop => rfl
  | .command (.setDuty duty) =>
      show (r.setDuty duty).config = r.config
      by_cases h : r.state = .running
      · rw [setDuty_of_running duty h]
      · rw [setDuty_of_not_running duty h]
  | .advance elapsed =>
      show (r.advance elapsed).1.config = r.config
      cases h : r.state with
      | idle => rw [advance_of_idle h]
      | starting =>
          rw [advance_of_starting h]
          split <;> rfl
      | running =>
          rw [advance_of_running h]
          split <;> rfl

@[simp] theorem config_after (r : Rotor) (calls : List RotorCall) :
    (r.after calls).config = r.config :=
  after_invariant (I := fun s => s.config = r.config)
    (fun c _ s hs => (config_call c s).trans hs) rfl

end Calls

/-- Nothing of a run is left at rest, and no spin-up lasts longer than set. -/
structure Settled (r : Rotor) : Prop where
  speed : r.state = .idle → r.speed = 0
  duty : r.state = .idle → r.duty = 0
  left : r.spinupLeft ≤ r.spinupTime

theorem settled_atRest (config : SimulationConfig) : (atRest config).Settled where
  speed := fun _ => rfl
  duty := fun _ => rfl
  left := Nat.zero_le _

theorem settled_call (c : RotorCall) {r : Rotor} (h : r.Settled) : (r.call c).Settled := by
  match c with
  | .command (.start target spinup reverse) =>
      show (r.start target spinup reverse).1.Settled
      by_cases hidle : r.state = .idle
      · rw [start_of_idle r target spinup reverse hidle]
        exact ⟨nofun, nofun, Nat.le_refl _⟩
      · rwa [start_of_not_idle target spinup reverse hidle]
  | .command .stop => exact ⟨fun _ => rfl, fun _ => rfl, h.left⟩
  | .command (.setDuty duty) =>
      show (r.setDuty duty).Settled
      by_cases hrunning : r.state = .running
      · rw [setDuty_of_running duty hrunning]
        refine ⟨fun hidle => ?_, fun hidle => ?_, h.left⟩ <;> cases hrunning.symm.trans hidle
      · rwa [setDuty_of_not_running duty hrunning]
  | .advance elapsed =>
      show (r.advance elapsed).1.Settled
      cases hstate : r.state with
      | idle =>
          rw [advance_of_idle hstate]
          exact ⟨fun _ => rfl, h.duty, h.left⟩
      | starting =>
          have hleft : r.spinupLeft - elapsed ≤ r.spinupTime := (Nat.sub_le _ _).trans h.left
          rw [advance_of_starting hstate]
          split
          · exact ⟨nofun, nofun, hleft⟩
          · refine ⟨fun hidle => ?_, fun hidle => ?_, hleft⟩ <;> cases hstate.symm.trans hidle
      | running =>
          rw [advance_of_running hstate]
          split
          · exact ⟨fun _ => rfl, fun _ => rfl, h.left⟩
          · refine ⟨fun hidle => ?_, fun hidle => ?_, h.left⟩ <;>
              cases hstate.symm.trans hidle

theorem settled_after (config : SimulationConfig) (calls : List RotorCall) :
    ((atRest config).after calls).Settled :=
  after_invariant (fun c _ _ h => settled_call c h) (settled_atRest config)

section Duty

/-- The duty that the rotor takes from a call. -/
def takenDuty? : RotorCall → Rotor → Option Single
  | .command (.start target _ _), r => if r.state = .idle then some target else none
  | .command (.setDuty duty), r => if r.state = .running then some duty else none
  | _, _ => none

/-- The latest duty that the rotor took from a command, `last` before any. -/
def lastDuty? (last : Option Single) (r : Rotor) : List RotorCall → Option Single
  | [] => last
  | c :: calls => (r.call c).lastDuty? ((r.takenDuty? c).or last) calls

/-- The applied duty is one, unless the rotor was last given something that is
not a number. -/
def DutyTaken (last : Option Single) (r : Rotor) : Prop :=
  r.duty.InUnit ∨ last = some .nan

theorem inUnit_admissible {duty : Single} (h : duty.isNaN = false) :
    (admissible duty).InUnit :=
  inUnit_clamp h

theorem dutyTaken_of_admissible (r : Rotor) {duty : Single} {last : Option Single}
    (h : r.duty = admissible duty) : r.DutyTaken ((some duty).or last) := by
  cases hnan : duty.isNaN with
  | true => exact Or.inr (congrArg some (eq_nan hnan))
  | false =>
      rw [DutyTaken, h]
      exact Or.inl (inUnit_admissible hnan)

theorem dutyTaken_call (c : RotorCall) {r : Rotor} {last : Option Single}
    (h : r.DutyTaken last) : (r.call c).DutyTaken ((r.takenDuty? c).or last) := by
  match c with
  | .command (.start target spinup reverse) =>
      show (r.start target spinup reverse).1.DutyTaken _
      by_cases hidle : r.state = .idle
      · rw [start_of_idle r target spinup reverse hidle, takenDuty?, if_pos hidle]
        exact dutyTaken_of_admissible _ rfl
      · rwa [start_of_not_idle target spinup reverse hidle, takenDuty?, if_neg hidle]
  | .command .stop => exact Or.inl inUnit_zero
  | .command (.setDuty duty) =>
      show (r.setDuty duty).DutyTaken _
      by_cases hrunning : r.state = .running
      · rw [setDuty_of_running duty hrunning, takenDuty?, if_pos hrunning]
        exact dutyTaken_of_admissible _ rfl
      · rwa [setDuty_of_not_running duty hrunning, takenDuty?, if_neg hrunning]
  | .advance elapsed =>
      show (r.advance elapsed).1.DutyTaken last
      cases hstate : r.state with
      | idle => rwa [advance_of_idle hstate]
      | starting =>
          rw [advance_of_starting hstate]
          split <;> exact h
      | running =>
          rw [advance_of_running hstate]
          split
          · exact Or.inl inUnit_zero
          · exact h

theorem dutyTaken_after (calls : List RotorCall) {r : Rotor} {last : Option Single}
    (h : r.DutyTaken last) : (r.after calls).DutyTaken (r.lastDuty? last calls) := by
  induction calls generalizing r last with
  | nil => exact h
  | cons c calls ih => exact ih (dutyTaken_call c h)

end Duty

/-- Nothing turns and nothing is drawn. -/
structure Resting (r : Rotor) : Prop where
  speed : r.speed = 0
  duty : r.duty = 0
  period : r.period = 0
  current : r.current = 0

theorem Settled.resting {r : Rotor} (h : r.Settled) (hidle : r.state = .idle) : r.Resting where
  speed := h.speed hidle
  duty := h.duty hidle
  period := by
    unfold period
    rw [h.speed hidle, if_pos isZero_zero.1]
  current := by
    unfold current
    rw [hidle]

/-- Rest is complete, spin-ups end, commands out of turn change nothing, and a
running rotor stalls exactly when it is too slow. -/
structure Orderly (r : Rotor) : Prop where
  rest : r.state = .idle → r.Resting
  left : r.spinupLeft ≤ .ofMillis r.config.spinupTimeMillis.toNat
  start_ignored : r.state ≠ .idle →
    ∀ target spinup reverse, (r.start target spinup reverse).1 = r
  setDuty_ignored : r.state ≠ .running → ∀ duty, r.setDuty duty = r
  lands : r.state = .running → ∀ elapsed,
    ((r.advance elapsed).1.state = .idle ∧ (r.advance elapsed).1.Resting) ∨
      ((r.advance elapsed).1.state = .running ∧
        ¬ (r.advance elapsed).1.speed < r.config.stallRpm)

theorem Settled.orderly {r : Rotor} (h : r.Settled) : r.Orderly where
  rest := h.resting
  left := h.left
  start_ignored := fun hmoving target spinup reverse =>
    start_of_not_idle target spinup reverse hmoving
  setDuty_ignored := fun hstate duty => setDuty_of_not_running duty hstate
  lands := by
    intro hrunning elapsed
    have hsettled : (r.advance elapsed).1.Settled := settled_call (.advance elapsed) h
    by_cases hstalls : r.speedAfter elapsed < r.config.stallRpm
    · have hidle : (r.advance elapsed).1.state = .idle := by
        rw [advance_of_running hrunning, if_pos hstalls]
      exact Or.inl ⟨hidle, hsettled.resting hidle⟩
    · right
      rw [advance_of_running hrunning, if_neg hstalls]
      exact ⟨hrunning, hstalls⟩

/-- After any calls a rotor is orderly, and its duty is one unless the latest
command that it took had no number for a duty. -/
theorem orderly_after (config : SimulationConfig) (calls : List RotorCall) :
    ((atRest config).after calls).config = config ∧ ((atRest config).after calls).Orderly ∧
      (((atRest config).after calls).duty.InUnit ∨
        (atRest config).lastDuty? none calls = some .nan) :=
  ⟨config_after _ _, (settled_after config calls).orderly,
    dutyTaken_after calls (Or.inl inUnit_zero)⟩

end Rotor
end MotorSupervisor
