import MotorSupervisor.Driver.Bench
import MotorSupervisor.Proofs.Ramp
import MotorSupervisor.Proofs.Setpoint

/-!
# Duties that a driver is given

A driver takes duties from `0` to `1`.  The controller computes a duty in
three ways: as the spin-up voltage over the filtered bus voltage, as a target
(setpoint or speed cap) that is near enough, and as one slewed step from the
present duty.  Each of the three can leave the interval, and for each of them
the module says exactly when it does.

**Definitions.**
* `Command.Admissible`: all duties of a command lie in the unit interval.
* `Turn.StartFault`, `Turn.CapFault`, `Turn.SlewFault`: the three ways out.
* `Nominal`: the invariant, on the signs of parameters and filtered voltage.

**Results.**
* `nominal_init`, `nominal_turn`, `nominal_step`: the invariant holds.
* `admissible_iff_no_fault`: a run without faults gives admissible commands
  only, and conversely.
-/

namespace MotorSupervisor

open Binary

/-- All duties lie in the unit interval. -/
def Command.Admissible : Command → Prop
  | .start target spinup _ => target.InUnit ∧ spinup.InUnit
  | .stop => True
  | .setDuty duty => duty.InUnit

instance : DecidablePred Command.Admissible
  | .start target spinup _ => inferInstanceAs (Decidable (target.InUnit ∧ spinup.InUnit))
  | .stop => inferInstanceAs (Decidable True)
  | .setDuty duty => inferInstanceAs (Decidable duty.InUnit)

section Measurements

variable {tau dt previous sample : Single}

/-- A measured time is never negative. -/
theorem not_neg_toSeconds (ticks : UInt64) : ¬ Clock.toSeconds ticks < 0 := by
  apply not_neg_toFormat
  apply not_neg_div (not_neg_ofNat _)
  decide +kernel

theorem isNaN_div {x y : Single} (hy : y.isNaN = true) : (x / y).isNaN = true := by
  show (div x y).isNaN = true
  cases y with
  | nan => cases x <;> rfl
  | infinity t => cases hy
  | finite t other => cases hy

/-- The filter keeps its sign. -/
theorem not_neg_lowPass (htau : ¬ tau < 0) (hdt : ¬ dt < 0) (hprevious : ¬ previous < 0)
    (hsample : ¬ sample < 0) : ¬ lowPass tau dt previous sample < 0 := by
  unfold lowPass
  dsimp only
  split
  · exact hsample
  · rename_i hweight
    cases hnan : (dt + tau).isNaN with
    | true => exact (not_neg_iff _).2 (Or.inl (isNaN_div hnan))
    | false =>
        refine not_neg_div (not_neg_add (not_neg_mul hdt hsample) (not_neg_mul htau hprevious)) ?_
        rw [le_iff] at hweight
        rw [lt_iff]
        simp only [hnan, isNaN_zero, true_and] at hweight ⊢
        omega

end Measurements

/-- What the controller relies on: positive spin-up voltage, a filter that
does not change signs, and a setpoint that is a duty. -/
structure Nominal {δ : Type} (c : Controller δ) : Prop where
  spinup : 0 < c.parameters.spinupVoltage
  tau : ¬ c.parameters.filterTau < 0
  setpoint : c.state.dutySetpoint.InUnit
  voltage : ¬ c.state.supply.voltage < 0

section Invariant

variable {δ : Type} [MotorDriver δ]

/-- The reading of the bus is one that would be accepted at the start. -/
def Turn.VoltageInRange (t : Turn δ) : Prop :=
  minInputVoltage ≤ t.supply.voltage ∧ t.supply.voltage ≤ maxInputVoltage

instance (t : Turn δ) : Decidable t.VoltageInRange :=
  inferInstanceAs (Decidable (_ ∧ _))

theorem not_neg_of_minInputVoltage_le {x : Single} (h : minInputVoltage ≤ x) : ¬ x < 0 := by
  have hmin : 0 ≤ minInputVoltage.ordinal := by decide +kernel
  rw [le_iff] at h
  rw [lt_iff, ordinal_zero]
  omega

theorem nominal_init {config : ControlConfig} {start : UInt64} {d : δ} {c : Controller δ}
    (hinit : (Controller.init config start d).1 = .ok c) : Nominal c := by
  obtain ⟨valid, up, -, hvoltage, rfl⟩ := Controller.init_eq_ok_iff.1 hinit
  obtain ⟨-, hspinup, -, -, htau, -⟩ := ControlConfig.valid_iff.1 valid
  exact ⟨hspinup, not_neg_of_nonneg htau, inUnit_zero,
    not_neg_of_minInputVoltage_le hvoltage.1⟩

/-- The filtered voltage of a turn. -/
theorem Turn.state_voltage (t : Turn δ) :
    t.state.supply.voltage =
      lowPass t.before.parameters.filterTau t.elapsed t.before.state.supply.voltage
        t.supply.voltage := by
  have hheld : t.held.supply = t.before.state.supply :=
    (ControlState.expire_keeps _ _ _ _).2.2.2
  rw [← hheld]
  simp only [Turn.state, ControlState.filter]

theorem Nominal.state_voltage {t : Turn δ} (h : Nominal t.before) (hrange : t.VoltageInRange) :
    ¬ t.state.supply.voltage < 0 := by
  rw [t.state_voltage]
  exact not_neg_lowPass h.tau (not_neg_toSeconds _) h.voltage
    (not_neg_of_minInputVoltage_le hrange.1)

/-- A turn keeps the invariant, whatever it commands. -/
theorem nominal_turn {t : Turn δ} (hrange : t.VoltageInRange) (h : Nominal t.before) :
    Nominal t.after := by
  have hsupply : t.after.state.supply = t.state.supply := ControlState.cycle_keeps.2.1
  refine ⟨h.spinup, h.tau, t.setpointsKept_after.inUnit h.setpoint, ?_⟩
  rw [hsupply]
  exact h.state_voltage hrange

theorem nominal_step {input : Input (MotorDriver.Change δ)} {c : Controller δ}
    (hquiet : Controller.Quiet input c) (h : Nominal c) : Nominal (c.step input).1 := by
  obtain ⟨hspinup, htau, hunit, hvoltage⟩ := h
  cases input with
  | setDuty duty now => exact ⟨hspinup, htau, (clampDuty_spec duty).1, hvoltage⟩
  | setRpm rpm now => exact ⟨hspinup, htau, hunit, hvoltage⟩
  | cycle now body =>
      have hidle : c.active = false := hquiet
      simpa [Controller.step, hidle] using Nominal.mk hspinup htau hunit hvoltage
  | change change => exact ⟨hspinup, htau, hunit, hvoltage⟩
  | shutdown =>
      simp only [Controller.step]
      split <;> exact ⟨hspinup, htau, hunit, hvoltage⟩

end Invariant

namespace ControlState

variable (p : Parameters) (dt target : Single) (s : ControlState)

/-- The duty after one slewed step, before rounding. -/
def landing : ℚ :=
  if target < s.duty then s.duty.toRat - (p.dutySlope * dt).toRat
  else s.duty.toRat + (p.dutySlope * dt).toRat

/-- One slewed step leads to a duty. -/
def LandsInUnit : Prop :=
  s.duty.isFinite ∧ (p.dutySlope * dt).isFinite ∧ 0 ≤ s.landing p dt target ∧
    s.landing p dt target ≤ 1 + 1 / 2 ^ 24

instance : Decidable (s.LandsInUnit p dt target) :=
  inferInstanceAs (Decidable (_ ∧ _))

variable {p dt target s} {period : UInt32}

theorem inUnit_nextDuty_of_jumps (h : s.Jumps p target) :
    (s.nextDuty p dt target).InUnit ↔ s.LandsInUnit p dt target := by
  unfold nextDuty LandsInUnit landing
  rw [if_pos h, inUnit_add_iff]
  split
  · rw [isFinite_neg, toRat_neg, ← sub_eq_add_neg]
  · rfl

theorem inUnit_spinupDuty_iff (hspinup : 0 < p.spinupVoltage) (hvoltage : ¬ s.supply.voltage < 0) :
    (s.spinupDuty p).InUnit ↔
      p.spinupVoltage.isFinite ∧ p.spinupVoltage ≤ s.supply.voltage :=
  inUnit_div_iff hspinup hvoltage

/-- A target is a duty unless it is a negative cap. -/
theorem inUnit_target_iff (hunit : s.dutySetpoint.InUnit)
    (htarget : s.target? p period = some target) :
    target.InUnit ↔ ¬ RampNegative p.periodLimit period := by
  obtain ⟨-, hperiod, hfin, hcases⟩ := target?_eq_some_iff.1 htarget
  obtain ⟨hnan, hlow, hhigh⟩ := inUnit_iff.1 hunit
  rw [rampNegative_iff]
  rcases hcases with ⟨⟨hlimit, hcap⟩, rfl⟩ | ⟨hcap, -, rfl⟩
  · rw [lt_iff] at hcap
    rw [inUnit_iff, lt_iff, ordinal_zero, isNaN_zero]
    simp only [hcap.1, hperiod, hlimit, ne_eq, not_false_eq_true, true_and]
    omega
  · refine iff_of_true hunit ?_
    rintro ⟨-, hlimit, hneg⟩
    refine hcap ⟨hlimit, ?_⟩
    rw [lt_iff, ordinal_zero] at hneg
    rw [lt_iff]
    exact ⟨hneg.1, hnan, by omega⟩

end ControlState

namespace Turn

variable {δ : Type} [MotorDriver δ] (t : Turn δ)

/-- Towards what a turn drives the motor. -/
def target? : Option Single :=
  if t.readings.runState = .running then
    t.state.target? t.before.parameters t.readings.period
  else none

/-- A start at a spin-up voltage that the bus does not have. -/
def StartFault : Prop :=
  t.readings.runState = .idle ∧ t.state.wantsStart t.before.parameters = true ∧
    ¬ (t.before.parameters.spinupVoltage.isFinite ∧
      t.before.parameters.spinupVoltage ≤ t.state.supply.voltage)

/-- The motor is driven to a near target while the cap is negative. -/
def CapFault : Prop :=
  ∃ target ∈ t.target?, ¬ t.state.Jumps t.before.parameters target ∧
    ControlState.RampNegative t.before.parameters.periodLimit t.readings.period

/-- A slewed step oversteps the unit interval. -/
def SlewFault : Prop :=
  ∃ target ∈ t.target?, t.state.Jumps t.before.parameters target ∧
    ¬ t.state.LandsInUnit t.before.parameters t.elapsed target

instance : Decidable t.StartFault :=
  inferInstanceAs (Decidable (_ ∧ _))

instance : Decidable t.CapFault :=
  inferInstanceAs (Decidable (∃ target ∈ _, _))

instance : Decidable t.SlewFault :=
  inferInstanceAs (Decidable (∃ target ∈ _, _))

variable {t}

/-- One turn gives an admissible command exactly when it shows no fault. -/
theorem admissible_iff_no_fault_turn (h : Nominal t.before) (hrange : t.VoltageInRange) :
    (∀ k ∈ t.result.command, k.Admissible) ↔
      ¬ t.StartFault ∧ ¬ t.CapFault ∧ ¬ t.SlewFault := by
  have hunit := t.setpointsKept_state.inUnit h.setpoint
  unfold StartFault CapFault SlewFault target? result
  cases hrun : t.readings.runState with
  | starting =>
      rw [ControlState.cycle_starting hrun]
      simp
  | idle =>
      rw [ControlState.cycle_idle hrun,
        ← ControlState.inUnit_spinupDuty_iff h.spinup (h.state_voltage hrange)]
      cases t.state.wantsStart t.before.parameters <;> simp [Command.Admissible]
  | running =>
      cases htarget : t.state.target? t.before.parameters t.readings.period with
      | none =>
          rw [ControlState.cycle_stop hrun htarget]
          simp [Command.Admissible]
      | some target =>
          rw [ControlState.cycle_drive hrun htarget]
          by_cases hjump : t.state.Jumps t.before.parameters target
          · simp [Command.Admissible, ControlState.inUnit_nextDuty_of_jumps hjump, hjump]
          · have hdirect : t.state.nextDuty t.before.parameters t.elapsed target = target :=
              if_neg hjump
            rw [hdirect]
            simp [Command.Admissible, ControlState.inUnit_target_iff hunit htarget, hjump]

end Turn

/-- Every duty that a run gives the driver lies in the unit interval exactly
when no turn of the run shows a fault. -/
theorem admissible_iff_no_fault {δ : Type} [MotorDriver δ] {config : ControlConfig}
    {start : UInt64} {d : δ} {c : Controller δ}
    (hinit : (Controller.init config start d).1 = .ok c)
    (inputs : List (Input (MotorDriver.Change δ)))
    (hrange : ∀ t ∈ c.turns inputs, t.VoltageInRange) :
    (∀ r ∈ (c.run inputs).2, ∀ k ∈ r.command, k.Admissible) ↔
      ∀ t ∈ c.turns inputs, ¬ t.StartFault ∧ ¬ t.CapFault ∧ ¬ t.SlewFault := by
  have hnominal := Controller.forall_turns_while (P := fun _ => True)
    (fun _ _ _ => nominal_step) (fun _ => nominal_turn) inputs (nominal_init hinit)
    (fun _ _ => trivial) hrange
  rw [Controller.forall_command_iff trivial]
  exact forall₂_congr fun t ht =>
    Turn.admissible_iff_no_fault_turn (hnominal t ht) (hrange t ht)

/-- A bench driver that runs as soon as it is started. -/
def promptBench : BenchDriver :=
  { BenchDriver.standard "bench" with startsAs := .running }

/-- A start at full duty and the same request so many clock ticks later. -/
def fullDuty (pause : UInt64) : List (Input BenchDriver) :=
  [.setDuty 1 0, .cycle 0 .zero, .setDuty 1 pause, .cycle pause .zero]

/-- A cycle in time takes a slewed step within the interval. -/
theorem admissible_in_time :
    let c := Controller.broughtUp .standard ControlConfig.standard_valid 0 promptBench
    (Controller.init .standard 0 promptBench).1 = .ok c ∧
      (∀ t ∈ c.turns (fullDuty 10000), t.VoltageInRange) ∧
      ((∀ r ∈ (c.run (fullDuty 10000)).2, ∀ k ∈ r.command, k.Admissible) ↔
        ∀ t ∈ c.turns (fullDuty 10000), ¬ t.StartFault ∧ ¬ t.CapFault ∧ ¬ t.SlewFault) ∧
      ∀ t ∈ c.turns (fullDuty 10000), ¬ t.StartFault ∧ ¬ t.CapFault ∧ ¬ t.SlewFault := by
  intro c
  have hinit : (Controller.init .standard 0 promptBench).1 = .ok c :=
    Controller.init_eq_ok_iff.2
      ⟨ControlConfig.standard_valid, promptBench, rfl, by decide +kernel, rfl⟩
  have hrange : ∀ t ∈ c.turns (fullDuty 10000), t.VoltageInRange := by decide +kernel
  exact ⟨hinit, hrange, admissible_iff_no_fault hinit _ hrange, by decide +kernel⟩

/-- Two seconds late, the slewed step passes the setpoint and leaves the
interval. -/
theorem inadmissible_when_late :
    let c := Controller.broughtUp .standard ControlConfig.standard_valid 0 promptBench
    (Controller.init .standard 0 promptBench).1 = .ok c ∧
      0 < MotorDriver.periodLimit promptBench ∧
      (∀ t ∈ c.turns (fullDuty 20000000), t.VoltageInRange) ∧
      ¬ ∀ r ∈ (c.run (fullDuty 20000000)).2, ∀ k ∈ r.command, k.Admissible := by
  intro c
  refine ⟨Controller.init_eq_ok_iff.2
    ⟨ControlConfig.standard_valid, promptBench, rfl, by decide +kernel, rfl⟩, ?_⟩
  decide +kernel

end MotorSupervisor
