import MotorSupervisor.Control.Cycle

/-!
# The control step, case by case

A control step falls into one of four cases: the driver spins the motor up,
the motor is at rest, the motor is driven towards a target, or it is stopped.
Each case is one equation for the whole result.  Later proofs use these
equations and never open the definitions below them.

**Definitions.**
* `ControlState.Capped`: the ramp caps the duty setpoint.
* `ControlState.Jumps`: a target is too far away for one direct step.
* `ControlState.nextDuty`: the duty on the way to a target.

**Results.**
* `target?_eq_some_iff`: when a running motor has a target, and which.
* `cycle_starting`, `cycle_idle`, `cycle_drive`, `cycle_stop`: the four cases.
* `exists_target_of_driving`: which cycles drive the motor.
* `cycle_keeps`, `setpoints_of_not_stop`, `state_of_stop`: what every cycle leaves
  alone, what one without a stop does, and what a stop resets.
-/

namespace MotorSupervisor
namespace ControlState

variable (p : Parameters) (dt target : Single) (period : UInt32) (s : ControlState)

/-- The ramp is below the duty setpoint, at a period below the limit. -/
def Capped : Prop :=
  period < p.periodLimit ∧ ramp p.periodLimit period < s.dutySetpoint

instance : Decidable (s.Capped p period) :=
  inferInstanceAs (Decidable (_ ∧ _))

/-- The target is farther away than the step limit. -/
def Jumps : Prop :=
  p.dutyStepMax < (target - s.duty).abs

instance : Decidable (s.Jumps p target) :=
  inferInstanceAs (Decidable (_ < _))

/-- The duty after one step towards a target. -/
def nextDuty : Single :=
  if s.Jumps p target then
    s.duty + if target < s.duty then -(p.dutySlope * dt) else p.dutySlope * dt
  else target

/-- Towards what a running motor is driven, if it is driven at all. -/
def target? : Option Single :=
  (s.demand p period).2.target?

variable {p dt target period s}

theorem target?_eq_some_iff :
    s.target? p period = some target ↔
      s.mode = .openLoop ∧ period ≠ 0 ∧ target.isFinite = true ∧
        ((s.Capped p period ∧ target = ramp p.periodLimit period) ∨
          (¬ s.Capped p period ∧ 0 < s.dutySetpoint ∧ target = s.dutySetpoint)) := by
  have htarget : ∀ duty : Single,
      (Demand.drive duty).target? = some target ↔ target.isFinite = true ∧ target = duty := by
    intro duty
    unfold Demand.target?
    dsimp only
    split
    · constructor
      · intro h
        obtain rfl := Option.some.inj h
        exact ⟨‹_›, rfl⟩
      · rintro ⟨-, rfl⟩
        rfl
    · constructor
      · intro h
        cases h
      · rintro ⟨hfin, rfl⟩
        contradiction
  unfold target? demand
  cases hmode : s.mode with
  | rpmTarget => simp [targetSpeed, Demand.target?]
  | openLoop =>
      by_cases hzero : period = 0
      · simp [openLoop, hzero, Demand.target?]
      · by_cases hcap : s.Capped p period
        · have hcap' := hcap
          unfold Capped at hcap'
          simp [openLoop, hzero, hcap', htarget, hcap]
        · have hcap' := hcap
          unfold Capped at hcap'
          by_cases hpos : 0 < s.dutySetpoint
          · simp [openLoop, hzero, hcap', htarget, hcap, hpos]
          · simp [openLoop, hzero, hcap', hcap, hpos, Demand.target?]

/-- A demand changes nothing but the speed limit flag, which only a moving
motor in open loop touches. -/
theorem demand_fst :
    (s.demand p period).1 =
      if s.mode = .openLoop ∧ period ≠ 0 then
        { s with limits := ⟨decide (s.Capped p period), s.limits.accel⟩ }
      else s := by
  unfold demand
  split
  · rename_i hmode
    by_cases hzero : period = 0
    · simp [openLoop, hzero]
    · by_cases hcap : s.Capped p period
      · have hcap' := hcap
        unfold Capped at hcap'
        simp [openLoop, hmode, hzero, hcap', hcap, Limits.insert]
      · have hcap' := hcap
        unfold Capped at hcap'
        simp [openLoop, hmode, hzero, hcap', hcap, Limits.remove]
  · rename_i hmode
    simp [targetSpeed, hmode]

theorem demand_reset : (s.demand p period).1.reset = s.reset := by
  rw [demand_fst]
  split <;> rfl

theorem slew_eq :
    s.slew p dt target =
      ({ s with
          duty := s.nextDuty p dt target
          limits := ⟨s.limits.rpm, decide (s.Jumps p target)⟩ }, decide (s.Jumps p target)) := by
  by_cases hjump : s.Jumps p target
  · have hjump' := hjump
    unfold Jumps at hjump'
    simp [slew, nextDuty, hjump, hjump', Limits.insert]
  · have hjump' := hjump
    unfold Jumps at hjump'
    simp [slew, nextDuty, hjump, hjump', Limits.remove]

variable {r : Readings}

/-- While the driver spins the motor up, nothing is touched. -/
theorem cycle_starting (hrun : r.runState = .starting) :
    s.cycle p dt r = { state := s, outcome := .starting, command := none, log := [] } := by
  simp [cycle, hrun, restingCycle]

/-- At rest the spin-up duty is armed. -/
theorem cycle_idle (hrun : r.runState = .idle) :
    s.cycle p dt r =
      { state := { s with duty := s.spinupDuty p, limits := .none }
        outcome := .idle (s.wantsStart p)
        command :=
          if s.wantsStart p then
            some (.start (s.spinupDuty p) (s.spinupDuty p) p.reverse)
          else none
        log :=
          if s.wantsStart p then
            [.startingMotor (s.spinupDuty p) s.mode p.reverse]
          else [] } := by
  cases hwants : s.wantsStart p <;> simp [cycle, hrun, restingCycle, idleCycle, hwants]

/-- A running motor with a target is driven towards it. -/
theorem cycle_drive (hrun : r.runState = .running) (htarget : s.target? p r.period = some target) :
    s.cycle p dt r =
      { state :=
          { s with
            duty := s.nextDuty p dt target
            limits := ⟨decide (s.Capped p r.period), decide (s.Jumps p target)⟩ }
        outcome := .driving (s.nextDuty p dt target) (decide (s.Jumps p target))
        command := some (.setDuty (s.nextDuty p dt target))
        log := [] } := by
  obtain ⟨hmode, hperiod, -⟩ := target?_eq_some_iff.1 htarget
  unfold target? at htarget
  have hdemanded : (s.demand p r.period).1 =
      { s with limits := ⟨decide (s.Capped p r.period), s.limits.accel⟩ } := by
    rw [demand_fst, if_pos ⟨hmode, hperiod⟩]
  unfold cycle runningCycle
  simp only [hrun, htarget, hdemanded, slew_eq]
  rfl

/-- A running motor without a target is stopped. -/
theorem cycle_stop (hrun : r.runState = .running) (htarget : s.target? p r.period = none) :
    s.cycle p dt r =
      { state := s.reset
        outcome := .stopped (decide (s.mode = .rpmTarget))
        command := some .stop
        log := [if s.mode = .rpmTarget then .speedControlMissing else .noDutyTarget] } := by
  have hunavailable : (s.demand p r.period).2 = .unavailable ↔ s.mode = .rpmTarget := by
    unfold demand
    cases s.mode with
    | rpmTarget => simp [targetSpeed]
    | openLoop =>
        simp only [openLoop]
        split
        · simp
        · split
          · simp
          · split <;> simp
  unfold target? at htarget
  unfold cycle runningCycle
  simp only [hrun, htarget, demand_reset, hunavailable]
  simp

/-- Only a running motor with a target is driven. -/
theorem exists_target_of_driving {duty : Single} {slewed : Bool}
    (h : (s.cycle p dt r).outcome = .driving duty slewed) :
    r.runState = .running ∧ ∃ target, s.target? p r.period = some target := by
  cases hrun : r.runState with
  | starting =>
      rw [cycle_starting hrun] at h
      cases h
  | idle =>
      rw [cycle_idle hrun] at h
      cases h
  | running =>
      cases htarget : s.target? p r.period with
      | none =>
          rw [cycle_stop hrun htarget] at h
          cases h
      | some target => exact ⟨rfl, target, rfl⟩

/-- A stop always comes with a reset. -/
theorem state_of_stop (h : (s.cycle p dt r).command = some .stop) :
    (s.cycle p dt r).state = s.reset := by
  cases hrun : r.runState with
  | starting =>
      rw [cycle_starting hrun] at h
      cases h
  | idle =>
      rw [cycle_idle hrun] at h
      cases hwants : s.wantsStart p <;> simp [hwants] at h
  | running =>
      cases htarget : s.target? p r.period with
      | none => rw [cycle_stop hrun htarget]
      | some target =>
          rw [cycle_drive hrun htarget] at h
          cases h

/-- Only a stop changes a setpoint. -/
theorem setpoints_of_not_stop (h : (s.cycle p dt r).command ≠ some .stop) :
    (s.cycle p dt r).state.dutySetpoint = s.dutySetpoint ∧
      (s.cycle p dt r).state.rpmSetpoint = s.rpmSetpoint := by
  cases hrun : r.runState with
  | starting =>
      rw [cycle_starting hrun]
      exact ⟨rfl, rfl⟩
  | idle =>
      rw [cycle_idle hrun]
      exact ⟨rfl, rfl⟩
  | running =>
      cases htarget : s.target? p r.period with
      | none =>
          rw [cycle_stop hrun htarget] at h
          exact absurd rfl h
      | some target =>
          rw [cycle_drive hrun htarget]
          exact ⟨rfl, rfl⟩

/-- A cycle selects no mode, measures nothing, and keeps the setpoints or drops
both of them. -/
theorem cycle_keeps :
    (s.cycle p dt r).state.mode = s.mode ∧ (s.cycle p dt r).state.supply = s.supply ∧
      (((s.cycle p dt r).state.dutySetpoint = s.dutySetpoint ∧
          (s.cycle p dt r).state.rpmSetpoint = s.rpmSetpoint) ∨
        ((s.cycle p dt r).state.dutySetpoint = 0 ∧ (s.cycle p dt r).state.rpmSetpoint = 0)) := by
  cases hrun : r.runState with
  | starting =>
      rw [cycle_starting hrun]
      exact ⟨rfl, rfl, Or.inl ⟨rfl, rfl⟩⟩
  | idle =>
      rw [cycle_idle hrun]
      exact ⟨rfl, rfl, Or.inl ⟨rfl, rfl⟩⟩
  | running =>
      cases htarget : s.target? p r.period with
      | none =>
          rw [cycle_stop hrun htarget]
          exact ⟨rfl, rfl, Or.inr ⟨rfl, rfl⟩⟩
      | some target =>
          rw [cycle_drive hrun htarget]
          exact ⟨rfl, rfl, Or.inl ⟨rfl, rfl⟩⟩

end ControlState
end MotorSupervisor
