import MotorSupervisor.Proofs.Clock
import MotorSupervisor.Proofs.StartGate
import MotorSupervisor.Proofs.ZeroSetpoint

/-!
# The setpoint timeout

A timeout of some milliseconds drops both setpoints in the first cycle whose
clock reading is more than that past the latest setter call.  The controller
decides this in 64-bit words; the statements here are about natural numbers.

* An accepted timeout fits a word of clock ticks, so its length is exact.
* The difference of two readings is the truncated one, so a clock that reads
  earlier than the latest setter call drops nothing.
* A drop is reported with the plain difference of the two words, which is the
  right one because a drop only happens after the latest setter call.

The check precedes the control step of the same cycle.  So a drop shows in what
the cycle does: the motor is neither started nor driven by a setpoint any more,
and none is left afterwards.

**Definitions.**
* `Overdue`: the decision in natural numbers.
* `Turn.WorksOn`: the state that the control step of a turn works on.
* `Turn.ChecksTimeout`: the check and its effect on the turn.

**Results.**
* `lapsed_iff`: the decision of the controller is that in natural numbers.
* `run_lastSetter`: the reading that the controller remembers.
* `timeouts_logged`: where reports of a timeout come from.
* `setpoints_after`: what the setpoints are after a turn that stops nothing.
* `timeout_exact`: the check is exact at every cycle of every run.
-/

namespace MotorSupervisor

open Binary

theorem toNat_timeoutTicks {millis : UInt64} (h : millis.toNat ≤ maxTimeoutMillis) :
    (timeoutTicks millis).toNat = 10000 * millis.toNat := by
  have hfits : millis.toNat * 10000 ≤ UInt64.size - 1 :=
    (Nat.mul_le_mul_right _ h).trans (Nat.div_mul_le_self _ _)
  have hmin : Nat.min (millis.toNat * Clock.ticksPerMilli) (UInt64.size - 1) =
      millis.toNat * 10000 := Nat.min_eq_left hfits
  have hlt : millis.toNat * 10000 < UInt64.size := Nat.lt_of_le_pred (by decide) hfits
  rw [timeoutTicks, hmin, UInt64.toNat_ofNat_of_lt' hlt, Nat.mul_comm]

/-- A clock reading is more than a timeout past the latest setter call. -/
def Overdue (millis : Nat) (latest now : UInt64) : Prop :=
  0 < millis ∧ latest.toNat + 10000 * millis < now.toNat

instance (millis : Nat) (latest now : UInt64) : Decidable (Overdue millis latest now) :=
  inferInstanceAs (Decidable (_ ∧ _))

theorem lapsed_iff {millis latest now : UInt64} (h : millis.toNat ≤ maxTimeoutMillis) :
    Lapsed (timeoutTicks millis) latest now ↔ Overdue millis.toNat latest now := by
  unfold Lapsed Overdue
  rw [← UInt64.pos_iff_ne_zero, UInt64.lt_iff_toNat_lt, UInt64.lt_iff_toNat_lt,
    Clock.toNat_elapsed, toNat_timeoutTicks h, UInt64.toNat_zero]
  omega

/-- The clock reading of the latest setter call among some inputs; an earlier
one if there is none. -/
def latestSetter {κ : Type} (earlier : UInt64) : List (Input κ) → UInt64
  | [] => earlier
  | .setDuty _ now :: inputs => latestSetter now inputs
  | .setRpm _ now :: inputs => latestSetter now inputs
  | _ :: inputs => latestSetter earlier inputs

def Event.isTimeout : Event → Bool
  | .setpointTimeout _ => true
  | _ => false

theorem ControlState.cycle_reports_no_timeout (p : Parameters) (dt : Single) (r : Readings)
    (s : ControlState) : (s.cycle p dt r).log.filter Event.isTimeout = [] := by
  cases hrun : r.runState with
  | starting =>
      rw [cycle_starting hrun]
      rfl
  | idle =>
      rw [cycle_idle hrun]
      dsimp only
      split <;> rfl
  | running =>
      cases htarget : s.target? p r.period with
      | none =>
          rw [cycle_stop hrun htarget]
          dsimp only
          split <;> rfl
      | some target =>
          rw [cycle_drive hrun htarget]
          rfl

section Run

variable {δ : Type} [MotorDriver δ]

theorem run_timeout (inputs : List (Input (MotorDriver.Change δ))) (c : Controller δ) :
    (c.run inputs).1.timeout = c.timeout := by
  refine Controller.run_invariant (I := fun c' => c'.timeout = c.timeout) ?_ ?_ inputs rfl
  · intro input c' hquiet h
    exact (Controller.kept_of_quiet hquiet).timeout.trans h
  · intro t h
    exact h

theorem run_lastSetter (inputs : List (Input (MotorDriver.Change δ))) (c : Controller δ) :
    (c.run inputs).1.lastSetter = latestSetter c.lastSetter inputs := by
  induction inputs generalizing c with
  | nil => rfl
  | cons input inputs ih =>
      rw [Controller.run_cons, ih]
      cases input with
      | cycle now body =>
          simp only [Controller.step]
          split <;> rfl
      | shutdown =>
          simp only [Controller.step]
          split <;> rfl
      | _ => rfl

namespace Turn

variable (t : Turn δ)

/-- What the driver reports in the course of a turn. -/
def driverLog : List Event :=
  (MotorDriver.settle t.before.driver).2 ++ (MotorDriver.observe t.state.mode t.sampled).2.2 ++
    (MotorDriver.performAll t.result.command t.observed).2

/-- Neither the control step nor the timing of the loop reports a timeout. -/
theorem timeouts_logged :
    t.did.log.filter Event.isTimeout =
      (t.before.state.expire t.before.timeout t.before.lastSetter t.now).2 ++
        t.driverLog.filter Event.isTimeout := by
  have hlog : t.did.log =
      (t.before.state.expire t.before.timeout t.before.lastSetter t.now).2 ++
        (MotorDriver.settle t.before.driver).2 ++
        (MotorDriver.observe t.state.mode t.sampled).2.2 ++ t.result.log ++
        (MotorDriver.performAll t.result.command t.observed).2 ++
        Controller.timingEvents t.body t.before.period
          (t.before.stats.record t.body t.before.period t.elapsed).2
          (t.before.stats.record t.body t.before.period t.elapsed).1 := rfl
  have hexpire : (t.before.state.expire t.before.timeout t.before.lastSetter t.now).2.filter
      Event.isTimeout =
        (t.before.state.expire t.before.timeout t.before.lastSetter t.now).2 := by
    unfold ControlState.expire
    split <;> rfl
  have hresult : t.result.log.filter Event.isTimeout = [] :=
    ControlState.cycle_reports_no_timeout _ _ _ _
  have htiming : ∀ overrun stats,
      (Controller.timingEvents t.body t.before.period overrun stats).filter
        Event.isTimeout = [] := by
    intro overrun stats
    unfold Controller.timingEvents
    split <;> split <;> rfl
  rw [hlog, driverLog]
  simp only [List.filter_append, hexpire, hresult, htiming, List.append_nil, List.append_assoc,
    List.nil_append]

/-- The turn does what the control step makes of a state, and leaves behind what
it makes of it. -/
structure WorksOn (t : Turn δ) (s : ControlState) : Prop where
  outcome :
    t.did.outcome = some (s.cycle t.before.parameters t.elapsed t.readings).outcome
  command : t.did.command = (s.cycle t.before.parameters t.elapsed t.readings).command
  state : t.after.state = (s.cycle t.before.parameters t.elapsed t.readings).state

theorem worksOn_state : t.WorksOn t.state :=
  ⟨t.did_outcome, t.did_command, t.after_state⟩

/-- A turn that does not stop the motor leaves the setpoints that it works on. -/
theorem setpoints_after (h : t.did.command ≠ some .stop) :
    t.after.state.dutySetpoint = t.state.dutySetpoint ∧
      t.after.state.rpmSetpoint = t.state.rpmSetpoint := by
  rw [did_command] at h
  rw [after_state]
  exact ControlState.setpoints_of_not_stop h

/-- The check of a timeout of some milliseconds is exact in a turn, when the
latest setter call was at the given reading. -/
structure ChecksTimeout (t : Turn δ) (millis : Nat) (latest : UInt64) : Prop where
  /-- The state that the check leaves is the one that the control step works on. -/
  worksOn : t.WorksOn t.state
  mode : t.state.mode = t.before.state.mode ∧ t.after.state.mode = t.before.state.mode
  /-- In time the check changes nothing. -/
  kept : ¬ Overdue millis latest t.now → t.held = t.before.state
  /-- In time nothing but a stop drops a setpoint. -/
  standing : ¬ Overdue millis latest t.now → t.did.command ≠ some .stop →
    t.after.state.dutySetpoint = t.before.state.dutySetpoint ∧
      t.after.state.rpmSetpoint = t.before.state.rpmSetpoint
  /-- Too late, the control step finds no setpoint. -/
  dropped : Overdue millis latest t.now →
    t.state.dutySetpoint.IsZero ∧ t.state.rpmSetpoint = 0
  /-- Too late, no setpoint is left. -/
  gone : Overdue millis latest t.now →
    t.after.state.dutySetpoint.IsZero ∧ t.after.state.rpmSetpoint = 0
  /-- Too late, the motor is driven towards no setpoint; if it is driven at all, then
  towards a negative speed cap. -/
  undriven : Overdue millis latest t.now → ∀ duty slewed,
    t.did.outcome = some (.driving duty slewed) →
      ControlState.RampNegative t.before.parameters.periodLimit t.readings.period
  /-- Too late, no setpoint starts the motor; if it is started at all, then because
  the threshold is not above zero. -/
  unstarted : Overdue millis latest t.now → t.Starts →
    (t.state.mode = .openLoop → t.state.spinupDuty t.before.parameters ≤ 0) ∧
      (t.state.mode = .rpmTarget → t.before.parameters.rpmMin = 0)
  /-- A drop of something is reported, once, and nothing else but the driver reports
  one. -/
  reported : t.did.log.filter Event.isTimeout =
    (if Overdue millis latest t.now ∧
        (¬ t.before.state.dutySetpoint.IsZero ∨ t.before.state.rpmSetpoint ≠ 0) then
      [.setpointTimeout (Clock.toSeconds (t.now - latest))] else []) ++
      t.driverLog.filter Event.isTimeout
  /-- The reported difference is that of the natural numbers. -/
  difference : Overdue millis latest t.now → (t.now - latest).toNat + latest.toNat = t.now.toNat

variable {t}

theorem checksTimeout_of_lapsed_iff {millis : Nat} (hunit : t.before.state.dutySetpoint.InUnit)
    (hlapsed : Lapsed t.before.timeout t.before.lastSetter t.now ↔
      Overdue millis t.before.lastSetter t.now) :
    t.ChecksTimeout millis t.before.lastSetter := by
  have hholds : t.before.state.holdsSetpoint = true ↔
      ¬ t.before.state.dutySetpoint.IsZero ∨ t.before.state.rpmSetpoint ≠ 0 := by
    rw [← not_iff_not, Bool.not_eq_true, ControlState.holdsSetpoint_eq_false_iff,
      hunit.isZero_iff_not_pos, not_or, not_not, not_not]
  have hkept : ¬ Overdue millis t.before.lastSetter t.now → t.held = t.before.state := by
    intro h
    rw [held, ControlState.expire_of_not_lapsed (mt hlapsed.1 h)]
  have hdropped : Overdue millis t.before.lastSetter t.now →
      t.state.dutySetpoint.IsZero ∧ t.state.rpmSetpoint = 0 := by
    intro h
    rw [state_dutySetpoint, state_rpmSetpoint]
    exact ⟨ControlState.isZero_of_lapsed (hlapsed.2 h) hunit.1,
      (ControlState.expire_of_lapsed (hlapsed.2 h)).2⟩
  constructor
  case worksOn => exact t.worksOn_state
  case mode => exact ⟨t.setpointsKept_state.1, t.setpointsKept_after.1⟩
  case kept => exact hkept
  case standing =>
    intro h hgoing
    obtain ⟨hduty, hrpm⟩ := t.setpoints_after hgoing
    rw [hduty, hrpm, state_dutySetpoint, state_rpmSetpoint, hkept h]
    exact ⟨rfl, rfl⟩
  case dropped => exact hdropped
  case gone =>
    intro h
    obtain ⟨hduty, hrpm⟩ := hdropped h
    exact t.setpointsKept_result.isZero hduty hrpm
  case undriven =>
    intro h duty slewed hdriving
    exact rampNegative_of_driving (hdropped h).1 hdriving
  case unstarted =>
    intro h hstarts
    obtain ⟨hduty, hrpm⟩ := hdropped h
    exact threshold_of_starts hduty hrpm hstarts
  case reported =>
    rw [timeouts_logged]
    split
    · rename_i h
      rw [ControlState.expire_of_holds (hlapsed.2 h.1) (hholds.2 h.2)]
    · rename_i h
      rw [← hholds, ← hlapsed, not_and, Bool.not_eq_true] at h
      by_cases hlate : Lapsed t.before.timeout t.before.lastSetter t.now
      · -- too late, but with nothing to drop
        rw [ControlState.expire_of_not_holds (h hlate)]
      · rw [ControlState.expire_of_not_lapsed hlate]
  case difference =>
    rintro ⟨-, hlate⟩
    have hle : t.before.lastSetter ≤ t.now := UInt64.le_iff_toNat_le.2 (by omega)
    rw [UInt64.toNat_sub_of_le _ _ hle]
    omega

end Turn

/-- At every cycle of every run the timeout of the configuration is checked
exactly, against the latest setter call or the start. -/
theorem timeout_exact {config : ControlConfig} {start : UInt64} {d : δ} {c : Controller δ}
    (hinit : (Controller.init config start d).1 = .ok c)
    (past : List (Input (MotorDriver.Change δ))) (now : UInt64) (body : Span) :
    Turn.ChecksTimeout ⟨(c.run past).1, now, body⟩ config.setpointTimeoutMillis.toNat
      (latestSetter start past) := by
  obtain ⟨valid, up, -, -, rfl⟩ := Controller.init_eq_ok_iff.1 hinit
  obtain ⟨-, -, -, -, -, -, hmillis⟩ := ControlConfig.valid_iff.1 valid
  have hlatest : ((Controller.broughtUp config valid start up).run past).1.lastSetter =
      latestSetter start past := run_lastSetter past _
  have htimeout : ((Controller.broughtUp config valid start up).run past).1.timeout =
      timeoutTicks config.setpointTimeoutMillis := run_timeout past _
  rw [← hlatest]
  apply Turn.checksTimeout_of_lapsed_iff
  · exact inUnit_run past inUnit_zero
  · rw [htimeout, hlatest]
    exact lapsed_iff hmillis

end Run

/-- The usual tuning with a timeout of fifty milliseconds. -/
def timed : ControlConfig :=
  { ControlConfig.standard with setpointTimeoutMillis := 50 }

theorem timed_valid : timed.Valid := by
  decide +kernel

/-- A setpoint drives a running motor for half a million ticks, and one tick later
the motor is stopped. -/
theorem timeout_exact_to_the_tick :
    let d := { BenchDriver.standard "bench" with startsAs := .running }
    let c := Controller.broughtUp timed timed_valid 0 d
    let turn (now : UInt64) : Turn BenchDriver :=
      ⟨(c.run [.setDuty 1 7, .cycle 7 .zero]).1, now, .zero⟩
    (Controller.init timed 0 d).1 = .ok c ∧
      (∀ now, (turn now).ChecksTimeout 50 7) ∧
      (¬ Overdue 50 7 500007 ∧ (turn 500007).after.state.dutySetpoint = 1 ∧
        (turn 500007).did.outcome = some (.driving (turn 500007).after.state.duty true)) ∧
      Overdue 50 7 500008 ∧ (turn 500008).after.state.dutySetpoint = 0 ∧
        (turn 500008).did.outcome = some (.stopped false) := by
  intro d c turn
  have hinit : (Controller.init timed 0 d).1 = .ok c :=
    Controller.init_eq_ok_iff.2 ⟨timed_valid, d, rfl, by decide +kernel, rfl⟩
  exact ⟨hinit, fun now => timeout_exact hinit [.setDuty 1 7, .cycle 7 .zero] now .zero,
    ⟨by decide, by decide +kernel, by decide +kernel⟩, by decide, by decide +kernel,
    by decide +kernel⟩

end MotorSupervisor
